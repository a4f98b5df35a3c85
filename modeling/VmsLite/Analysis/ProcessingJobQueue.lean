import Mathlib.Algebra.Group.Int.Defs
import Mathlib.Data.Rat.Defs
import VmsLite.Analysis.JobTable
import VmsLite.Async.Observation

/-!
# The job queue

`PrismaProcessingJobQueue` over the world of the analysis of recordings: the jobs and the detections
in the database, the workers of the pipeline, the bus and the clock. Every call but a look at the
clock is awaited and may fail, with an error of the environment's choice and no effect.
-/

set_option autoImplicit false

namespace VmsLite.Analysis

open VmsLite.Async Program
open Recordings (RecordingId CameraId Failure)

/-! ### The world -/

/-- What `recording.segment_created` tells of a recording, as far as it is read. -/
structure SegmentCreated where
  recordingId : RecordingId
  cameraId : CameraId
  siteId : Option String := none
  startTime : ℤ
  deriving DecidableEq, Repr

structure AiBoundingBox where
  x : ℚ
  y : ℚ
  width : ℚ
  height : ℚ
  deriving DecidableEq, Repr

structure AiDetectionItem where
  id : String
  label : String
  confidence : ℚ
  boundingBox : AiBoundingBox
  timestampOffsetMs : ℤ
  deriving DecidableEq, Repr

structure AiSegmentAnalysisResult where
  detections : List AiDetectionItem
  processingDurationMs : ℤ
  modelVersion : String
  deriving DecidableEq, Repr

/-- A row of `detections`. -/
structure Detection where
  recordingId : RecordingId
  cameraId : CameraId
  siteId : Option String
  timestamp : ℤ
  label : String
  confidence : ℚ
  bbox : AiBoundingBox
  trackId : Option String
  modelVersion : String
  deriving DecidableEq, Repr

/-- An `ai.detections_processed` event. -/
structure DetectionsProcessed where
  worker : String
  segment : SegmentCreated
  result : AiSegmentAnalysisResult
  deriving DecidableEq, Repr

structure World where
  jobs : JobTable := {}
  detections : List Detection := []
  emitted : List DetectionsProcessed := []
  now : ℤ := 0

inductive Outcome
  | ok
  | fail (error : Failure)
  | ready (isReady : Bool)
  | analysed (result : AiSegmentAnalysisResult)

inductive Call
  | findJobByKey (recordingId : RecordingId) (jobType : String)
  | createJob (data : NewJob)
  | findQueuedJobs (jobTypes : List String) (now : ℤ) (limit : ℕ)
  | findJob (id : JobId)
  | updateJob (id : JobId) (data : JobUpdate)
  | isReady (worker : String)
  | processSegment (worker : String) (segment : SegmentCreated)
  | createDetection (data : Detection)
  | emitEvent (event : DetectionsProcessed)
  | clockNow

@[reducible] def Reply : Call → Type
  | .findJobByKey .. => Except Failure (Option ProcessingJob)
  | .createJob _ => Except Failure ProcessingJob
  | .findQueuedJobs .. => Except Failure (List ProcessingJob)
  | .findJob _ => Except Failure (Option ProcessingJob)
  | .updateJob .. => Except Failure ProcessingJob
  | .isReady _ => Except Failure Bool
  | .processSegment .. => Except Failure AiSegmentAnalysisResult
  | .createDetection _ => Except Failure Unit
  | .emitEvent _ => Except Failure Unit
  | .clockNow => ℤ

/-- A value, unless the environment made the call fail. -/
def Outcome.orFail {α : Type} (outcome : Outcome) (value : α) : Except Failure α :=
  match outcome with
  | .fail error => .error error
  | _ => .ok value

theorem Outcome.orFail_cases {α : Type} (outcome : Outcome) (value : α) :
    outcome.orFail value = .ok value ∨
      ∃ error, outcome = .fail error ∧ outcome.orFail value = .error error := by
  cases outcome with
  | fail error => exact Or.inr ⟨error, rfl, rfl⟩
  | _ => exact Or.inl rfl

def Outcome.passes : Outcome → Bool
  | .fail _ => false
  | _ => true

namespace World

variable (world : World)

/-- `create` of a job; it throws when there is one for the recording and the type. -/
def answerCreate (data : NewJob) (outcome : Outcome) : Except Failure ProcessingJob × World :=
  match outcome with
  | .fail error => (.error error, world)
  | _ =>
    if hfree : world.jobs.findByKey data.key = none then
      (.ok (data.toJob world.jobs.nextId), { world with jobs := world.jobs.insert data hfree })
    else (.error { code := .p2002, message := "Unique constraint failed" }, world)

/-- A creation throws without effect, or inserts a job of a key that is free. -/
theorem answerCreate_cases (data : NewJob) (outcome : Outcome) :
    (∃ error, world.answerCreate data outcome = (.error error, world)) ∨
      ∃ hfree : world.jobs.findByKey data.key = none, world.answerCreate data outcome =
        (.ok (data.toJob world.jobs.nextId),
          { world with jobs := world.jobs.insert data hfree }) := by
  by_cases hfree : world.jobs.findByKey data.key = none
  · cases outcome with
    | fail error => exact Or.inl ⟨error, rfl⟩
    | _ => exact Or.inr ⟨hfree, dif_pos hfree⟩
  · left
    cases outcome with
    | fail error => exact ⟨error, rfl⟩
    | _ => exact ⟨_, dif_neg hfree⟩

/-- What an update throws when there is no row to update. -/
def noRecordToUpdate : Failure where
  code := .p2025
  message := "No record was found for an update."

/-- `update` of a job; it throws when there is none with the id. -/
def answerUpdate (id : JobId) (data : JobUpdate) (outcome : Outcome) :
    Except Failure ProcessingJob × World :=
  match outcome with
  | .fail error => (.error error, world)
  | _ =>
    match world.jobs.find id with
    | some job => (.ok (data.apply job), { world with jobs := world.jobs.update id data })
    | none => (.error noRecordToUpdate, world)

/-- An update throws without effect, or changes the job of the id. -/
theorem answerUpdate_cases (id : JobId) (data : JobUpdate) (outcome : Outcome) :
    (∃ error, world.answerUpdate id data outcome = (.error error, world)) ∨
      ∃ job, world.jobs.find id = some job ∧ world.answerUpdate id data outcome =
        (.ok (data.apply job), { world with jobs := world.jobs.update id data }) := by
  cases hfind : world.jobs.find id with
  | none =>
    left
    cases outcome with
    | fail error => exact ⟨error, rfl⟩
    | _ => exact ⟨noRecordToUpdate, by simp only [answerUpdate, hfind]⟩
  | some job =>
    cases outcome with
    | fail error => exact Or.inl ⟨error, rfl⟩
    | _ => exact Or.inr ⟨job, rfl, by simp only [answerUpdate, hfind]⟩

/-- What a worker answers; without a result of the environment it found nothing. -/
def answerAnalysis : Outcome → Except Failure AiSegmentAnalysisResult
  | .fail error => .error error
  | .analysed result => .ok result
  | _ => .ok { detections := [], processingDurationMs := 0, modelVersion := "" }

end World

def answer (call : Call) (outcome : Outcome) (world : World) : Reply call × World :=
  match call with
  | .findJobByKey recordingId jobType =>
    (outcome.orFail (world.jobs.findByKey (recordingId, jobType)), world)
  | .createJob data => world.answerCreate data outcome
  | .findQueuedJobs jobTypes now limit =>
    (outcome.orFail (world.jobs.findQueued jobTypes now limit), world)
  | .findJob id => (outcome.orFail (world.jobs.find id), world)
  | .updateJob id data => world.answerUpdate id data outcome
  | .isReady _ =>
    (match outcome with
      | .fail error => .error error
      | .ready isReady => .ok isReady
      | _ => .ok true, world)
  | .processSegment _ _ => (World.answerAnalysis outcome, world)
  | .createDetection data =>
    (match outcome with
      | .fail error => (.error error, world)
      | _ => (.ok (), { world with detections := world.detections ++ [data] }))
  | .emitEvent event =>
    (match outcome with
      | .fail error => (.error error, world)
      | _ => (.ok (), { world with emitted := world.emitted ++ [event] }))
  | .clockNow => (world.now, world)

/-- Time passes. -/
structure EnvironmentChange where
  ms : ℕ

/-- A restart of the process keeps the database. -/
def machine : Machine Call Reply World Outcome EnvironmentChange where
  answer := answer
  synchronous := fun call ↦
    match call with
    | .clockNow => true
    | _ => false
  calm := .ok
  react := fun change world ↦ { world with now := world.now + change.ms }
  restart := id

/-- A program of the analysis. -/
abbrev Async (α : Type) : Type := Program Call Reply Failure α

/-- Await one call. -/
abbrev call (request : Call) : Async (Reply request) := Program.request request

/-! ### The queue -/

structure EnqueueJobInput where
  recordingId : RecordingId
  jobType : String
  priority : Option ℤ := none
  availableAt : Option ℤ := none
  modelVersion : Option String := none
  maxAttempts : Option ℤ := none

/-- The row that `enqueue` creates at an instant. -/
def EnqueueJobInput.newJob (input : EnqueueJobInput) (now : ℤ) : NewJob where
  recordingId := input.recordingId
  jobType := input.jobType
  priority := input.priority.getD 0
  availableAt := input.availableAt.getD now
  maxAttempts := input.maxAttempts.getD 3
  modelVersion := input.modelVersion

/-- Enqueues an analysis or storage job. Idempotent on (recordingId, jobType). -/
def enqueue (input : EnqueueJobInput) : Async ProcessingJob := do
  let now ← call .clockNow
  let existing ← orThrow (← call (.findJobByKey input.recordingId input.jobType))
  match existing with
  | some existing => pure existing
  | none => orThrow (← call (.createJob (input.newJob now)))

/-- Claims up to `limit` available jobs for processing. -/
def claimNext (jobTypes : List String) (limit : ℕ) : Async (List ProcessingJob) := do
  let now ← call .clockNow
  let candidates ← orThrow (← call (.findQueuedJobs jobTypes now limit))
  candidates.foldlM
    (fun claimed job ↦ do
      let updated ← orThrow (← call (.updateJob job.id (.claim now (job.attempts + 1))))
      pure (claimed ++ [updated])) []

/-- Marks a job as completed. -/
def complete (jobId : JobId) (modelVersion : Option String) : Async Unit := do
  let now ← call .clockNow
  let _ ← orThrow (← call (.updateJob jobId (.complete now modelVersion)))
  pure ()

structure FailResult where
  retried : Bool
  attempts : ℤ

/-- The backoff after as many attempts: 5s, doubled with every one, up to 60s. -/
def retryDelayMs (attempts : ℤ) : ℤ :=
  let delay : ℤ := 5000 * 2 ^ (attempts - 1).toNat
  if delay ≤ 60000 then delay else 60000

/-- `Job ${jobId} not found`. -/
def jobNotFound (jobId : JobId) : Failure where
  code := .other
  message := "Job " ++ toString jobId ++ " not found"

/-- Fails a job with automatic exponential backoff retry. -/
def fail (jobId : JobId) (errorMessage : String) : Async FailResult := do
  let found ← orThrow (← call (.findJob jobId))
  match found with
  | none => failed (jobNotFound jobId)
  | some job =>
    let attempts := job.attempts + (if job.status = .claimed then 0 else 1)
    let now ← call .clockNow
    if attempts < job.maxAttempts then do
      let _ ← orThrow (← call (.updateJob jobId
        (.requeue attempts (now + retryDelayMs attempts) errorMessage)))
      pure { retried := true, attempts }
    else do
      let _ ← orThrow (← call (.updateJob jobId (.giveUp attempts now errorMessage)))
      pure { retried := false, attempts }

end VmsLite.Analysis
