import Mathlib.Data.List.Nodup
import VmsLite.Recordings.Types

/-!
# The table of processing jobs

The rows of `processing_jobs` and what the queries of the job queue do to them. The table keeps at
most one row for an id, and one for a recording and a job type.
-/

set_option autoImplicit false

namespace VmsLite.Analysis

open Recordings (RecordingId)

abbrev JobId := ℕ

inductive JobStatus
  | queued | claimed | processing | completed | failed
  deriving DecidableEq, Repr

/-- COMPLETED and FAILED. -/
def JobStatus.isFinal : JobStatus → Bool
  | .completed | .failed => true
  | _ => false

/-- What `create` is given. -/
structure NewJob where
  recordingId : RecordingId
  jobType : String
  priority : ℤ
  availableAt : ℤ
  maxAttempts : ℤ
  modelVersion : Option String
  deriving DecidableEq, Repr

structure ProcessingJob extends NewJob where
  id : JobId
  status : JobStatus
  attempts : ℤ
  startedAt : Option ℤ := none
  completedAt : Option ℤ := none
  lastError : Option String := none
  deriving DecidableEq, Repr

/-- What a job is unique for. -/
def NewJob.key (job : NewJob) : RecordingId × String := (job.recordingId, job.jobType)

/-- A new row. -/
def NewJob.toJob (data : NewJob) (id : JobId) : ProcessingJob :=
  { data with id, status := .queued, attempts := 0 }

/-- The `data` of the updates of the job queue. -/
inductive JobUpdate
  | claim (startedAt attempts : ℤ)
  | complete (completedAt : ℤ) (modelVersion : Option String)
  | requeue (attempts availableAt : ℤ) (lastError : String)
  | giveUp (attempts completedAt : ℤ) (lastError : String)
  deriving DecidableEq, Repr

def JobUpdate.apply (job : ProcessingJob) : JobUpdate → ProcessingJob
  | .claim startedAt attempts =>
    { job with status := .claimed, startedAt := some startedAt, attempts }
  | .complete completedAt modelVersion =>
    { job with
      status := .completed
      completedAt := some completedAt
      modelVersion := modelVersion <|> job.modelVersion
      lastError := none }
  | .requeue attempts availableAt lastError =>
    { job with status := .queued, attempts, availableAt, lastError := some lastError }
  | .giveUp attempts completedAt lastError =>
    { job with
      status := .failed
      attempts
      completedAt := some completedAt
      lastError := some lastError }

section Update

variable (job : ProcessingJob) (update : JobUpdate)

@[simp] theorem JobUpdate.apply_id : (update.apply job).id = job.id := by cases update <;> rfl

@[simp] theorem JobUpdate.apply_key : (update.apply job).key = job.key := by cases update <;> rfl

@[simp] theorem JobUpdate.apply_maxAttempts : (update.apply job).maxAttempts = job.maxAttempts := by
  cases update <;> rfl

end Update

/-- `orderBy: [{ priority: 'desc' }, { availableAt: 'asc' }]`. -/
def ProcessingJob.comesFirst (first second : ProcessingJob) : Bool :=
  second.priority < first.priority ||
    (first.priority = second.priority && first.availableAt ≤ second.availableAt)

structure JobTable where
  rows : List ProcessingJob := []
  nextId : JobId := 0
  ids_nodup : (rows.map ProcessingJob.id).Nodup := by decide
  keys_nodup : (rows.map fun job ↦ job.key).Nodup := by decide
  ids_lt : ∀ job ∈ rows, job.id < nextId := by decide

namespace JobTable

variable (table : JobTable)

def find (id : JobId) : Option ProcessingJob := table.rows.find? fun job ↦ job.id = id

def findByKey (key : RecordingId × String) : Option ProcessingJob :=
  table.rows.find? fun job ↦ job.key = key

/-- The QUEUED jobs of some types that are available, the first of them. -/
def findQueued (jobTypes : List String) (now : ℤ) (limit : ℕ) : List ProcessingJob :=
  ((table.rows.filter fun job ↦ job.jobType ∈ jobTypes && job.status = .queued &&
    job.availableAt ≤ now).mergeSort ProcessingJob.comesFirst).take limit

/-- `create` of a job of a key that is free. -/
def insert (data : NewJob) (hfree : table.findByKey data.key = none) : JobTable where
  rows := table.rows ++ [data.toJob table.nextId]
  nextId := table.nextId + 1
  ids_nodup := by
    rw [List.map_append, List.nodup_append]
    refine ⟨table.ids_nodup, List.nodup_singleton _, ?_⟩
    intro id hid other hother
    obtain ⟨job, hjob, rfl⟩ := List.mem_map.mp hid
    obtain rfl : other = table.nextId := by simpa [NewJob.toJob] using hother
    exact Nat.ne_of_lt (table.ids_lt job hjob)
  keys_nodup := by
    rw [List.map_append, List.nodup_append]
    refine ⟨table.keys_nodup, List.nodup_singleton _, ?_⟩
    intro key hkey other hother
    obtain ⟨job, hjob, rfl⟩ := List.mem_map.mp hkey
    obtain rfl : other = data.key := by simpa [NewJob.toJob] using hother
    simpa using List.find?_eq_none.mp hfree job hjob
  ids_lt := by
    intro job hjob
    rcases List.mem_append.mp hjob with hold | hnew
    · exact Nat.lt_succ_of_lt (table.ids_lt job hold)
    · rw [List.mem_singleton.mp hnew]
      exact Nat.lt_succ_self _

/-- `update({ where: { id }, data })`. -/
def update (id : JobId) (data : JobUpdate) : JobTable where
  rows := table.rows.map fun job ↦ if job.id = id then data.apply job else job
  nextId := table.nextId
  ids_nodup := by
    have hids : (table.rows.map fun job ↦ if job.id = id then data.apply job else job).map
        ProcessingJob.id = table.rows.map ProcessingJob.id := by
      rw [List.map_map]
      refine List.map_congr_left fun job _ ↦ ?_
      rw [Function.comp_apply]
      split_ifs
      · exact data.apply_id job
      · rfl
    rw [hids]
    exact table.ids_nodup
  keys_nodup := by
    have hkeys : (table.rows.map fun job ↦ if job.id = id then data.apply job else job).map
        (fun job ↦ job.key) = table.rows.map fun job ↦ job.key := by
      rw [List.map_map]
      refine List.map_congr_left fun job _ ↦ ?_
      rw [Function.comp_apply]
      split_ifs
      · exact data.apply_key job
      · rfl
    rw [hkeys]
    exact table.keys_nodup
  ids_lt := by
    intro job hjob
    obtain ⟨old, hold, rfl⟩ := List.mem_map.mp hjob
    have hlt := table.ids_lt old hold
    split_ifs
    · rw [data.apply_id]
      exact hlt
    · exact hlt

variable {table}

theorem eq_of_id_eq {first second : ProcessingJob} (hfirst : first ∈ table.rows)
    (hsecond : second ∈ table.rows) (hid : first.id = second.id) : first = second :=
  List.inj_on_of_nodup_map table.ids_nodup hfirst hsecond hid

theorem eq_of_key_eq {first second : ProcessingJob} (hfirst : first ∈ table.rows)
    (hsecond : second ∈ table.rows) (hkey : first.key = second.key) : first = second :=
  List.inj_on_of_nodup_map table.keys_nodup hfirst hsecond hkey

theorem find_eq_some_iff {id : JobId} {job : ProcessingJob} :
    table.find id = some job ↔ job ∈ table.rows ∧ job.id = id := by
  constructor
  · intro hfind
    exact ⟨List.mem_of_find?_eq_some hfind, by simpa using List.find?_some hfind⟩
  · rintro ⟨hjob, rfl⟩
    cases hfind : table.find job.id with
    | none => simpa using List.find?_eq_none.mp hfind job hjob
    | some other =>
      have hid : other.id = job.id := by simpa using List.find?_some hfind
      rw [eq_of_id_eq (List.mem_of_find?_eq_some hfind) hjob hid]

theorem findByKey_eq_some_iff {key : RecordingId × String} {job : ProcessingJob} :
    table.findByKey key = some job ↔ job ∈ table.rows ∧ job.key = key := by
  constructor
  · intro hfind
    exact ⟨List.mem_of_find?_eq_some hfind, by simpa using List.find?_some hfind⟩
  · rintro ⟨hjob, rfl⟩
    cases hfind : table.findByKey job.key with
    | none => simpa using List.find?_eq_none.mp hfind job hjob
    | some other =>
      have hkey : other.key = job.key := by simpa using List.find?_some hfind
      rw [eq_of_key_eq (List.mem_of_find?_eq_some hfind) hjob hkey]

theorem mem_findQueued {jobTypes : List String} {now : ℤ} {limit : ℕ} {job : ProcessingJob}
    (h : job ∈ table.findQueued jobTypes now limit) : job ∈ table.rows ∧ job.status = .queued := by
  have hmem := List.mem_mergeSort.mp (List.mem_of_mem_take h)
  obtain ⟨hjob, hqueued⟩ := List.mem_filter.mp hmem
  simp only [Bool.and_eq_true, decide_eq_true_eq] at hqueued
  exact ⟨hjob, hqueued.1.2⟩

@[simp] theorem mem_insert {data : NewJob} {hfree : table.findByKey data.key = none}
    {job : ProcessingJob} :
    job ∈ (table.insert data hfree).rows ↔ job ∈ table.rows ∨ job = data.toJob table.nextId := by
  simp [insert]

theorem mem_update {id : JobId} {data : JobUpdate} {job : ProcessingJob} :
    job ∈ (table.update id data).rows ↔
      ∃ old ∈ table.rows, job = if old.id = id then data.apply old else old := by
  simp only [update, List.mem_map, eq_comm]

end JobTable

end VmsLite.Analysis
