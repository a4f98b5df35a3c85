import VmsLite.Data.Positions
import VmsLite.Storage.TieredStorage

/-!
# Offload scheduling

The manager never has more uploads in flight than it may, starts no upload twice and leaves a task
alone that has completed or failed. No task is left pending while an upload could run, save by
`setSecondaryProvider`, which does not drain the queue (`offloadsWell_iff`).
-/

set_option autoImplicit false

namespace VmsLite.Storage

open VmsLite.Async

/-! ### Statuses -/

namespace Manager

variable {manager : Manager} {ref other : TaskRef} {change : OffloadTask → OffloadTask}

theorem getElem?_modifyTask (manager : Manager) (ref other : TaskRef)
    (change : OffloadTask → OffloadTask) :
    (manager.modifyTask ref change).tasks[other]? =
      if ref = other then (manager.tasks[other]?).map change else manager.tasks[other]? := by
  unfold modifyTask
  rw [List.getElem?_modify]
  split_ifs
  · rfl
  · exact Option.map_id'

theorem statusOf_modifyTask_of_ne (hne : ref ≠ other) :
    (manager.modifyTask ref change).statusOf other = manager.statusOf other := by
  unfold statusOf
  rw [getElem?_modifyTask, if_neg hne]

/-- A task that is there takes the status that it is given. -/
theorem statusOf_modifyTask_self {status : Status} (hchange : ∀ task, (change task).status = status)
    (hstatus : (manager.statusOf ref).isSome = true) :
    (manager.modifyTask ref change).statusOf ref = some status := by
  unfold statusOf at hstatus ⊢
  rw [getElem?_modifyTask, if_pos rfl]
  cases htask : manager.tasks[ref]? with
  | none =>
    rw [htask] at hstatus
    cases hstatus
  | some task => simp [hchange]

theorem isSome_statusOf : (manager.statusOf ref).isSome = true ↔ ref < manager.tasks.length := by
  unfold statusOf
  rw [Option.isSome_map, isSome_getElem?]

end Manager

/-- The tasks that are being uploaded. -/
def Manager.uploading (manager : Manager) : List TaskRef := manager.uploads.map (·.task)

/-- The counter is right, and the status of a task says whether its upload was started and whether
it is over. -/
structure Consistent (manager : Manager) : Prop where
  counter : manager.activeUploads = manager.uploads.length
  bounded : manager.uploads.length ≤ manager.maxConcurrent
  uploading_nodup : manager.uploading.Nodup
  started_nodup : manager.started.Nodup
  puts_nodup : manager.puts.Nodup
  pending_iff : ∀ ref, manager.statusOf ref = some .pending ↔
    ref < manager.tasks.length ∧ ref ∉ manager.started
  inProgress_iff : ∀ ref, manager.statusOf ref = some .inProgress ↔ ref ∈ manager.uploading
  started_lt : ∀ ref ∈ manager.started, ref < manager.tasks.length
  puts_started : ∀ ref ∈ manager.puts, ref ∈ manager.started
  reading : ∀ upload ∈ manager.uploads, upload.phase = .reading → upload.task ∉ manager.puts

def IsSettled (task : OffloadTask) : Prop := task.status = .completed ∨ task.status = .failed

/-- Every task that has completed or failed is as it was. -/
def KeepsSettled (before after : Manager) : Prop :=
  ∀ (ref : TaskRef) (task : OffloadTask), before.tasks[ref]? = some task → IsSettled task →
    after.tasks[ref]? = some task

theorem KeepsSettled.refl (manager : Manager) : KeepsSettled manager manager :=
  fun _ _ htask _ ↦ htask

theorem KeepsSettled.trans {first second third : Manager} (hfirst : KeepsSettled first second)
    (hsecond : KeepsSettled second third) : KeepsSettled first third :=
  fun ref task htask hsettled ↦ hsecond ref task (hfirst ref task htask hsettled) hsettled

/-- A task whose upload is not over may be changed. -/
theorem keepsSettled_modifyTask {manager : Manager} {ref : TaskRef}
    (hstatus : manager.statusOf ref = some .pending ∨ manager.statusOf ref = some .inProgress)
    (change : OffloadTask → OffloadTask) :
    KeepsSettled manager (manager.modifyTask ref change) := by
  intro other task htask hsettled
  have hne : ref ≠ other := by
    rintro rfl
    unfold Manager.statusOf at hstatus
    rw [htask, Option.map_some, Option.some_inj, Option.some_inj] at hstatus
    unfold IsSettled at hsettled
    rcases hsettled with hsettled | hsettled
    · simp [hsettled] at hstatus
    · simp [hsettled] at hstatus
  rw [Manager.getElem?_modifyTask, if_neg hne]
  exact htask

theorem Consistent.started_of_uploading {manager : Manager} (hmanager : Consistent manager)
    {ref : TaskRef} (hmem : ref ∈ manager.uploading) : ref ∈ manager.started := by
  have hstatus := (hmanager.inProgress_iff ref).mpr hmem
  have hlt : ref < manager.tasks.length := Manager.isSome_statusOf.mp (by rw [hstatus]; rfl)
  by_contra hnew
  have hpending := (hmanager.pending_iff ref).mpr ⟨hlt, hnew⟩
  rw [hstatus] at hpending
  cases hpending

/-! ### Starting uploads -/

theorem processTask_of_isSome {manager : Manager} (hsecondary : manager.secondary.isSome = true)
    (ref : TaskRef) :
    manager.processTask ref =
      { manager.modifyTask ref fun task ↦ { task with status := .inProgress } with
        activeUploads := manager.activeUploads + 1
        uploads := manager.uploads ++ [⟨ref, .reading⟩]
        started := manager.started ++ [ref] } := by
  have hsome : ¬ manager.secondary.isNone = true :=
    Option.isNone_iff_eq_none.not.mpr (Option.isSome_iff_ne_none.mp hsecondary)
  unfold Manager.processTask
  rw [if_neg hsome]

/-- The status of a task that `processTask` starts. -/
theorem statusOf_processTask {manager : Manager} {ref : TaskRef}
    (hsecondary : manager.secondary.isSome = true) (hpending : manager.statusOf ref = some .pending)
    (other : TaskRef) :
    (manager.processTask ref).statusOf other =
      if other = ref then some .inProgress else manager.statusOf other := by
  rw [processTask_of_isSome hsecondary]
  split_ifs with hsame
  · subst hsame
    exact Manager.statusOf_modifyTask_self (fun _ ↦ rfl) (by rw [hpending]; rfl)
  · exact Manager.statusOf_modifyTask_of_ne (Ne.symm hsame)

theorem consistent_processTask {manager : Manager} (hmanager : Consistent manager) {ref : TaskRef}
    (hsecondary : manager.secondary.isSome = true) (hpending : manager.statusOf ref = some .pending)
    (hfree : manager.uploads.length < manager.maxConcurrent) :
    Consistent (manager.processTask ref) := by
  have hstatus := statusOf_processTask hsecondary hpending
  obtain ⟨hlt, hnew⟩ := (hmanager.pending_iff ref).mp hpending
  have hidle : ref ∉ manager.uploading := fun hmem ↦ hnew (hmanager.started_of_uploading hmem)
  have hprocessed := processTask_of_isSome hsecondary ref
  have hlength : (manager.processTask ref).tasks.length = manager.tasks.length := by
    rw [hprocessed]
    exact List.length_modify _ _ _
  have huploading : (manager.processTask ref).uploading = manager.uploading ++ [ref] := by
    rw [hprocessed]
    exact List.map_append
  have hstarted : (manager.processTask ref).started = manager.started ++ [ref] := by
    rw [hprocessed]
  have hputs : (manager.processTask ref).puts = manager.puts := by
    rw [hprocessed]
    rfl
  constructor
  · rw [hprocessed]
    simp [hmanager.counter]
  · rw [hprocessed]
    simpa [Manager.modifyTask] using Nat.succ_le_of_lt hfree
  · rw [huploading]
    exact List.Nodup.append hmanager.uploading_nodup (List.nodup_singleton ref) (by simpa)
  · rw [hstarted]
    exact List.Nodup.append hmanager.started_nodup (List.nodup_singleton ref) (by simpa)
  · rw [hputs]
    exact hmanager.puts_nodup
  · intro other
    rw [hstatus, hlength, hstarted, List.mem_append, List.mem_singleton]
    split_ifs with hsame
    · simp [hsame]
    · simp [hsame, hmanager.pending_iff other]
  · intro other
    rw [hstatus, huploading, List.mem_append, List.mem_singleton]
    split_ifs with hsame
    · simp [hsame]
    · simp [hsame, hmanager.inProgress_iff other]
  · intro other hother
    rw [hstarted, List.mem_append, List.mem_singleton] at hother
    rw [hlength]
    rcases hother with hearlier | rfl
    · exact hmanager.started_lt other hearlier
    · exact hlt
  · intro other hother
    rw [hputs] at hother
    rw [hstarted]
    exact List.mem_append_left _ (hmanager.puts_started other hother)
  · intro upload hupload hreading
    rw [hputs]
    rw [hprocessed, List.mem_append, List.mem_singleton] at hupload
    rcases hupload with hearlier | rfl
    · exact hmanager.reading upload hearlier hreading
    · exact fun hmem ↦ hnew (hmanager.puts_started ref hmem)

/-- What draining leads to: a consistent manager with the same queue, in which every task that has
completed or failed is as it was. -/
structure Drains (before after : Manager) : Prop where
  consistent : Consistent after
  keepsSettled : KeepsSettled before after
  queue_eq : after.queue = before.queue
  secondary_eq : after.secondary = before.secondary
  maxConcurrent_eq : after.maxConcurrent = before.maxConcurrent
  pending : ∀ ref, after.statusOf ref = some .pending → before.statusOf ref = some .pending

theorem Drains.refl {manager : Manager} (hmanager : Consistent manager) :
    Drains manager manager where
  consistent := hmanager
  keepsSettled := KeepsSettled.refl manager
  queue_eq := rfl
  secondary_eq := rfl
  maxConcurrent_eq := rfl
  pending _ hpending := hpending

theorem Drains.trans {first second third : Manager} (hfirst : Drains first second)
    (hsecond : Drains second third) : Drains first third where
  consistent := hsecond.consistent
  keepsSettled := hfirst.keepsSettled.trans hsecond.keepsSettled
  queue_eq := hsecond.queue_eq.trans hfirst.queue_eq
  secondary_eq := hsecond.secondary_eq.trans hfirst.secondary_eq
  maxConcurrent_eq := hsecond.maxConcurrent_eq.trans hfirst.maxConcurrent_eq
  pending ref hpending := hfirst.pending ref (hsecond.pending ref hpending)

theorem drains_processTask {manager : Manager} (hmanager : Consistent manager) {ref : TaskRef}
    (hsecondary : manager.secondary.isSome = true) (hpending : manager.statusOf ref = some .pending)
    (hfree : manager.uploads.length < manager.maxConcurrent) :
    Drains manager (manager.processTask ref) where
  consistent := consistent_processTask hmanager hsecondary hpending hfree
  keepsSettled := by
    rw [processTask_of_isSome hsecondary]
    exact keepsSettled_modifyTask (Or.inl hpending) _
  queue_eq := by
    rw [processTask_of_isSome hsecondary]
    rfl
  secondary_eq := by
    rw [processTask_of_isSome hsecondary]
    rfl
  maxConcurrent_eq := by
    rw [processTask_of_isSome hsecondary]
    rfl
  pending other hother := by
    rw [statusOf_processTask hsecondary hpending] at hother
    split_ifs at hother with hsame
    · cases hother
    · exact hother

/-- The loop starts uploads until there are as many as there may be, or none of its tasks is pending
any more. -/
theorem processPending_spec {manager : Manager} (hmanager : Consistent manager)
    (hsecondary : manager.secondary.isSome = true)
    (hfree : manager.uploads.length < manager.maxConcurrent) (refs : List TaskRef) :
    Drains manager (manager.processPending refs) ∧
      ((manager.processPending refs).uploads.length < manager.maxConcurrent →
        ∀ ref ∈ refs, (manager.processPending refs).statusOf ref ≠ some .pending) := by
  induction refs generalizing manager with
  | nil => exact ⟨Drains.refl hmanager, by simp⟩
  | cons ref refs ih =>
    unfold Manager.processPending
    split_ifs with hpending
    · have hdrains := drains_processTask hmanager hsecondary hpending hfree
      have hcounter := hdrains.consistent.counter
      have hmax := hdrains.maxConcurrent_eq
      dsimp only
      split_ifs with hfull
      · refine ⟨hdrains, fun hroom ↦ ?_⟩
        rw [hcounter, hmax] at hfull
        omega
      · have hroom : (manager.processTask ref).uploads.length <
            (manager.processTask ref).maxConcurrent := by
          rw [hcounter] at hfull
          omega
        obtain ⟨hrest, hnone⟩ := ih hdrains.consistent (hdrains.secondary_eq ▸ hsecondary) hroom
        refine ⟨hdrains.trans hrest, fun hleft other hother ↦ ?_⟩
        rcases List.mem_cons.mp hother with rfl | hother
        · intro hstill
          have hprocessed := hrest.pending _ hstill
          rw [statusOf_processTask hsecondary hpending, if_pos rfl] at hprocessed
          cases hprocessed
        · exact hnone (hmax ▸ hleft) other hother
    · obtain ⟨hrest, hnone⟩ := ih hmanager hsecondary hfree
      refine ⟨hrest, fun hleft other hother ↦ ?_⟩
      rcases List.mem_cons.mp hother with rfl | hother
      · exact fun hstill ↦ hpending (hrest.pending _ hstill)
      · exact hnone hleft other hother

/-- While an upload could run, no task of the queue is pending. -/
def IsDrained (manager : Manager) : Prop :=
  manager.secondary.isSome = true → manager.uploads.length < manager.maxConcurrent →
    (getStats manager).pending = 0

theorem getStats_pending_eq_zero {manager : Manager} :
    (getStats manager).pending = 0 ↔
      ∀ ref ∈ manager.queue.map Prod.snd, manager.statusOf ref ≠ some .pending := by
  simp only [getStats, count, List.countP_eq_zero, decide_eq_true_eq, List.forall_mem_map]

theorem drainQueue_spec {manager : Manager} (hmanager : Consistent manager) :
    Drains manager manager.drainQueue ∧ IsDrained manager.drainQueue := by
  unfold Manager.drainQueue
  split_ifs with hnone hfull
  · refine ⟨Drains.refl hmanager, fun hsome ↦ ?_⟩
    rw [Option.isNone_iff_eq_none.mp hnone] at hsome
    cases hsome
  · refine ⟨Drains.refl hmanager, fun _ hfree ↦ ?_⟩
    rw [hmanager.counter] at hfull
    omega
  · have hsome : manager.secondary.isSome = true :=
      Option.isSome_iff_ne_none.mpr (Option.isNone_iff_eq_none.not.mp hnone)
    have hfree : manager.uploads.length < manager.maxConcurrent := by
      rw [hmanager.counter] at hfull
      omega
    obtain ⟨hdrains, hidle⟩ :=
      processPending_spec hmanager hsome hfree (manager.queue.map Prod.snd)
    refine ⟨hdrains, fun _ hleft ↦ getStats_pending_eq_zero.mpr ?_⟩
    rw [hdrains.queue_eq]
    exact hidle (hdrains.maxConcurrent_eq ▸ hleft)

/-! ### One move -/

theorem consistent_new (secondary : Option ProviderId) (maxConcurrentUploads : Option ℕ) :
    Consistent (Manager.new secondary maxConcurrentUploads) where
  counter := rfl
  bounded := Nat.zero_le _
  uploading_nodup := List.nodup_nil
  started_nodup := List.nodup_nil
  puts_nodup := List.nodup_nil
  pending_iff ref := by simp [Manager.new, Manager.statusOf]
  inProgress_iff ref := by simp [Manager.new, Manager.statusOf, Manager.uploading]
  started_lt _ hmem := absurd hmem List.not_mem_nil
  puts_started _ hmem := absurd hmem List.not_mem_nil
  reading _ hmem := absurd hmem List.not_mem_nil

theorem isDrained_new (secondary : Option ProviderId) (maxConcurrentUploads : Option ℕ) :
    IsDrained (Manager.new secondary maxConcurrentUploads) := fun _ _ ↦ rfl

/-- A new task behind the others. -/
theorem consistent_append {manager : Manager} (hmanager : Consistent manager) {task : OffloadTask}
    (htask : task.status = .pending) (queue : List (String × TaskRef)) :
    Consistent { manager with tasks := manager.tasks ++ [task], queue := queue } := by
  have hstatus : ∀ ref, Manager.statusOf
      { manager with tasks := manager.tasks ++ [task], queue := queue } ref =
        if ref = manager.tasks.length then some .pending else manager.statusOf ref := by
    intro ref
    unfold Manager.statusOf
    by_cases hlast : ref = manager.tasks.length
    · rw [if_pos hlast, hlast, List.getElem?_concat_length, Option.map_some, htask]
    · rw [if_neg hlast, List.getElem?_append]
      split_ifs with hlt
      · rfl
      · have hbeyond := Nat.lt_of_le_of_ne (Nat.le_of_not_lt hlt) (Ne.symm hlast)
        rw [List.getElem?_eq_none (Nat.le_of_lt hbeyond),
          List.getElem?_eq_none (Nat.le_sub_of_add_le' hbeyond)]
  have hnew : manager.tasks.length ∉ manager.started :=
    fun hmem ↦ Nat.lt_irrefl _ (hmanager.started_lt _ hmem)
  refine ⟨hmanager.counter, hmanager.bounded, hmanager.uploading_nodup, hmanager.started_nodup,
    hmanager.puts_nodup, ?_, ?_, ?_, hmanager.puts_started, hmanager.reading⟩
  · intro ref
    rw [hstatus, List.length_append, List.length_singleton]
    split_ifs with hlast
    · rw [hlast]
      exact iff_of_true rfl ⟨Nat.lt_succ_self _, hnew⟩
    · rw [hmanager.pending_iff]
      constructor
      · rintro ⟨hlt, hmem⟩
        exact ⟨Nat.lt_succ_of_lt hlt, hmem⟩
      · rintro ⟨hlt, hmem⟩
        exact ⟨Nat.lt_of_le_of_ne (Nat.le_of_lt_succ hlt) hlast, hmem⟩
  · intro ref
    rw [hstatus]
    split_ifs with hlast
    · refine iff_of_false (by simp) fun hmem ↦ hnew ?_
      rw [← hlast]
      exact hmanager.started_of_uploading hmem
    · exact hmanager.inProgress_iff ref
  · intro ref hmem
    rw [List.length_append]
    exact Nat.lt_add_right _ (hmanager.started_lt ref hmem)

/-- The upload at a place is over. -/
theorem consistent_eraseIdx {manager : Manager} (hmanager : Consistent manager) {place : ℕ}
    {upload : Upload} (hupload : manager.uploads[place]? = some upload)
    {change : OffloadTask → OffloadTask} {status : Status}
    (hchange : ∀ task, (change task).status = status)
    (hstatus : status = .completed ∨ status = .failed) :
    Consistent { manager.modifyTask upload.task change with
      activeUploads := manager.activeUploads - 1
      uploads := manager.uploads.eraseIdx place } := by
  obtain ⟨before, after, huploads, rfl⟩ := Data.split_of_getElem? hupload
  have herase : manager.uploads.eraseIdx before.length = before ++ after := by
    rw [huploads, Data.eraseIdx_split]
  have huploading : manager.uploading =
      before.map (·.task) ++ upload.task :: after.map (·.task) := by
    unfold Manager.uploading
    rw [huploads, List.map_append, List.map_cons]
  have hnodup := hmanager.uploading_nodup
  rw [huploading, List.nodup_middle, List.nodup_cons] at hnodup
  obtain ⟨hover, hrest⟩ := hnodup
  have hmem : upload.task ∈ manager.uploading := by
    rw [huploading]
    exact List.mem_append_right _ List.mem_cons_self
  have hbusy := (hmanager.inProgress_iff upload.task).mpr hmem
  have hself := @Manager.statusOf_modifyTask_self manager upload.task change status hchange
    (by rw [hbusy]; rfl)
  have hlength : (manager.modifyTask upload.task change).tasks.length = manager.tasks.length :=
    List.length_modify _ _ _
  have hcount : manager.uploads.length = (before ++ after).length + 1 := by
    rw [huploads, List.length_append, List.length_cons, List.length_append]
    omega
  refine ⟨?_, ?_, ?_, hmanager.started_nodup, hmanager.puts_nodup, ?_, ?_, ?_,
    hmanager.puts_started, ?_⟩
  · dsimp only
    rw [herase, hmanager.counter, hcount]
    push_cast
    omega
  · dsimp only
    rw [herase]
    have hbounded := hmanager.bounded
    rw [hcount] at hbounded
    exact Nat.le_of_succ_le hbounded
  · unfold Manager.uploading
    dsimp only
    rw [herase, List.map_append]
    exact hrest
  · intro ref
    show (manager.modifyTask upload.task change).statusOf ref = some .pending ↔
      ref < (manager.modifyTask upload.task change).tasks.length ∧ ref ∉ manager.started
    rw [hlength]
    by_cases hsame : upload.task = ref
    · subst hsame
      rw [hself]
      refine iff_of_false ?_ fun hpending ↦ hpending.2 (hmanager.started_of_uploading hmem)
      rcases hstatus with rfl | rfl
      · exact fun hsame ↦ nomatch hsame
      · exact fun hsame ↦ nomatch hsame
    · rw [Manager.statusOf_modifyTask_of_ne hsame]
      exact hmanager.pending_iff ref
  · intro ref
    show (manager.modifyTask upload.task change).statusOf ref = some .inProgress ↔
      ref ∈ (manager.uploads.eraseIdx before.length).map (·.task)
    rw [herase, List.map_append]
    by_cases hsame : upload.task = ref
    · subst hsame
      rw [hself]
      refine iff_of_false ?_ hover
      rcases hstatus with rfl | rfl
      · exact fun hsame ↦ nomatch hsame
      · exact fun hsame ↦ nomatch hsame
    · rw [Manager.statusOf_modifyTask_of_ne hsame, hmanager.inProgress_iff, huploading]
      simp [Ne.symm hsame]
  · intro ref hstarted
    rw [hlength]
    exact hmanager.started_lt ref hstarted
  · intro other hother
    dsimp only at hother ⊢
    rw [herase, List.mem_append] at hother
    refine hmanager.reading other ?_
    rw [huploads, List.mem_append, List.mem_cons]
    tauto

/-- An upload is handed to a secondary provider. -/
theorem consistent_put {manager : Manager} (hmanager : Consistent manager) {place : ℕ}
    {ref : TaskRef} (hupload : manager.uploads[place]? = some ⟨ref, .reading⟩)
    (secondary : ProviderId) :
    Consistent { manager with
      uploads := manager.uploads.set place ⟨ref, .putting secondary⟩
      puts := manager.puts ++ [ref] } := by
  obtain ⟨before, after, huploads, rfl⟩ := Data.split_of_getElem? hupload
  have hset : manager.uploads.set before.length ⟨ref, .putting secondary⟩ =
      before ++ ⟨ref, .putting secondary⟩ :: after := by
    rw [huploads, Data.set_split]
  have huploading : (manager.uploads.set before.length ⟨ref, .putting secondary⟩).map (·.task) =
      manager.uploading := by
    unfold Manager.uploading
    rw [hset, huploads]
    simp
  have hmem : ⟨ref, .reading⟩ ∈ manager.uploads := List.mem_of_getElem? hupload
  have hunput := hmanager.reading _ hmem rfl
  have hstarted := hmanager.started_of_uploading (List.mem_map_of_mem hmem)
  have hothers : ∀ upload ∈ before ++ after, upload.task ≠ ref := by
    have hnodup := hmanager.uploading_nodup
    unfold Manager.uploading at hnodup
    rw [huploads, List.map_append, List.map_cons, List.nodup_middle, List.nodup_cons,
      ← List.map_append] at hnodup
    rintro other hother rfl
    exact hnodup.1 (List.mem_map.mpr ⟨other, hother, rfl⟩)
  refine ⟨?_, ?_, ?_, hmanager.started_nodup, ?_, hmanager.pending_iff, ?_, hmanager.started_lt,
    ?_, ?_⟩
  · dsimp only
    rw [List.length_set]
    exact hmanager.counter
  · dsimp only
    rw [List.length_set]
    exact hmanager.bounded
  · unfold Manager.uploading
    dsimp only
    rw [huploading]
    exact hmanager.uploading_nodup
  · exact List.Nodup.append hmanager.puts_nodup (List.nodup_singleton ref) (by simpa)
  · intro other
    unfold Manager.uploading
    dsimp only
    rw [huploading]
    exact hmanager.inProgress_iff other
  · intro other hother
    rw [List.mem_append, List.mem_singleton] at hother
    rcases hother with hearlier | rfl
    · exact hmanager.puts_started other hearlier
    · exact hstarted
  · intro other hother hreading
    dsimp only at hother ⊢
    rw [hset, List.mem_append, List.mem_cons] at hother
    have hthere : other ∈ before ++ after := by
      rw [List.mem_append]
      rcases hother with hother | rfl | hother
      · exact Or.inl hother
      · cases hreading
      · exact Or.inr hother
    rw [List.mem_append, List.mem_singleton, not_or]
    refine ⟨hmanager.reading other ?_ hreading, hothers other hthere⟩
    rw [huploads, List.mem_append, List.mem_cons]
    rcases List.mem_append.mp hthere with hbefore | hafter
    · exact Or.inl hbefore
    · exact Or.inr (Or.inr hafter)

/-- What a move leads to from a consistent manager. -/
structure Moves (before after : Manager) : Prop where
  consistent : Consistent after
  keepsSettled : KeepsSettled before after

theorem moves_drainQueue {before middle : Manager} (hmiddle : Consistent middle)
    (hkeeps : KeepsSettled before middle) :
    Moves before middle.drainQueue ∧ IsDrained middle.drainQueue := by
  obtain ⟨hdrains, hdrained⟩ := drainQueue_spec hmiddle
  exact ⟨⟨hdrains.consistent, hkeeps.trans hdrains.keepsSettled⟩, hdrained⟩

theorem enqueueOffload_spec {manager : Manager} (hmanager : Consistent manager) (id key : String)
    (reason : Reason) (now : ℕ) :
    Moves manager (manager.enqueueOffload id key reason now) ∧
      IsDrained (manager.enqueueOffload id key reason now) := by
  refine moves_drainQueue (consistent_append hmanager rfl _) fun ref task htask _ ↦ ?_
  obtain ⟨hlt, -⟩ := List.getElem?_eq_some_iff.mp htask
  dsimp only
  rw [List.getElem?_append_left hlt]
  exact htask

theorem finish_spec {manager : Manager} (hmanager : Consistent manager) {place : ℕ}
    {upload : Upload} (hupload : manager.uploads[place]? = some upload)
    {change : OffloadTask → OffloadTask} {status : Status}
    (hchange : ∀ task, (change task).status = status)
    (hstatus : status = .completed ∨ status = .failed) :
    Moves manager (manager.finish place upload.task change) ∧
      IsDrained (manager.finish place upload.task change) := by
  have hmem : upload.task ∈ manager.uploading :=
    List.mem_map_of_mem (List.mem_of_getElem? hupload)
  have hbusy := (hmanager.inProgress_iff upload.task).mpr hmem
  exact moves_drainQueue (consistent_eraseIdx hmanager hupload hchange hstatus)
    (keepsSettled_modifyTask (Or.inr hbusy) change)

/-- The provider is not set while a task of the queue is pending and an upload could run. -/
def IsCareful (manager : Manager) : Move → Prop
  | .setSecondaryProvider _ =>
    manager.uploads.length < manager.maxConcurrent → (getStats manager).pending = 0
  | _ => True

theorem Manager.completeTask_status (remoteUri : String) (now : ℕ) (task : OffloadTask) :
    (completeTask remoteUri now task).status = .completed := rfl

theorem Manager.failTask_status (message : Option String) (task : OffloadTask) :
    (failTask message task).status = .failed := rfl

/-- What a move does: the queue is drained in the end, or it goes on waiting as before. -/
theorem next_spec {manager : Manager} (hmanager : Consistent manager) (move : Move) :
    Moves manager (next manager move) ∧
      (IsDrained manager → (IsDrained (next manager move) ↔ IsCareful manager move)) := by
  have hstays : Moves manager manager ∧ (IsDrained manager → (IsDrained manager ↔ True)) :=
    ⟨⟨hmanager, KeepsSettled.refl manager⟩, fun hdrained ↦ iff_of_true hdrained trivial⟩
  have hdrains : ∀ {after : Manager}, Moves manager after ∧ IsDrained after →
      Moves manager after ∧ (IsDrained manager → (IsDrained after ↔ True)) :=
    fun ⟨hmoves, hafter⟩ ↦ ⟨hmoves, fun _ ↦ iff_of_true hafter trivial⟩
  cases move with
  | setSecondaryProvider secondary =>
    -- Nothing changes but the provider, so that what was pending stays pending
    refine ⟨⟨⟨hmanager.counter, hmanager.bounded, hmanager.uploading_nodup, hmanager.started_nodup,
      hmanager.puts_nodup, hmanager.pending_iff, hmanager.inProgress_iff, hmanager.started_lt,
      hmanager.puts_started, hmanager.reading⟩, fun _ _ htask _ ↦ htask⟩, fun _ ↦ ?_⟩
    constructor
    · exact fun hafter hfree ↦ hafter rfl hfree
    · exact fun hcareful _ hfree ↦ hcareful hfree
  | enqueueOffload id key reason now =>
    exact hdrains (enqueueOffload_spec hmanager id key reason now)
  | streamOpened place =>
    unfold next
    dsimp only
    split
    · rename_i ref hupload
      split
      · exact hdrains (finish_spec hmanager hupload (Manager.failTask_status _) (Or.inr rfl))
      · refine ⟨⟨consistent_put hmanager hupload _, fun _ _ htask _ ↦ htask⟩,
          fun hdrained ↦ iff_of_true ?_ trivial⟩
        intro hsecondary hfree
        rw [List.length_set] at hfree
        exact hdrained hsecondary hfree
    · exact hstays
  | uploaded place remoteUri now =>
    unfold next
    dsimp only
    split
    · rename_i ref secondary hupload
      exact hdrains (finish_spec hmanager hupload (Manager.completeTask_status remoteUri now)
        (Or.inl rfl))
    · exact hstays
  | rejected place message =>
    unfold next
    dsimp only
    split
    · rename_i ref phase hupload
      exact hdrains (finish_spec hmanager hupload (Manager.failTask_status message) (Or.inr rfl))
    · exact hstays

/-! ### Runs -/

/-- What is asked of a state: the uploads in flight are as many as the counter says and not more
than there may be, no upload was started or handed over twice, and no task waits for nothing. -/
structure IsScheduled (manager : Manager) : Prop where
  counter : manager.activeUploads = manager.uploads.length
  bounded : manager.uploads.length ≤ manager.maxConcurrent
  started_nodup : manager.started.Nodup
  puts_nodup : manager.puts.Nodup
  drained : IsDrained manager

/-- What is asked of a run: every state of it is scheduled, and a task that has completed or failed
stays as it is. -/
structure OffloadsWell (initial : Manager) (moves : List Move) : Prop where
  scheduled : EachState next IsScheduled initial moves
  settled : ∀ before later, before ++ later <+: moves →
    KeepsSettled (runMoves next initial before) (runMoves next initial (before ++ later))

theorem Consistent.isScheduled {manager : Manager} (hmanager : Consistent manager)
    (hdrained : IsDrained manager) : IsScheduled manager where
  counter := hmanager.counter
  bounded := hmanager.bounded
  started_nodup := hmanager.started_nodup
  puts_nodup := hmanager.puts_nodup
  drained := hdrained

/-- In every run the counter is right and no settled task changes. -/
theorem moves_runMoves {initial : Manager} (hinitial : Consistent initial) (moves : List Move) :
    Moves initial (runMoves next initial moves) := by
  induction moves using List.reverseRecOn with
  | nil => exact ⟨hinitial, KeepsSettled.refl initial⟩
  | append_singleton moves move ih =>
    rw [runMoves_concat]
    have hmove := (next_spec ih.consistent move).1
    exact ⟨hmove.consistent, ih.keepsSettled.trans hmove.keepsSettled⟩

theorem runMoves_append (initial : Manager) (before later : List Move) :
    runMoves next initial (before ++ later) = runMoves next (runMoves next initial before) later :=
  List.foldl_append

/-- The tasks of a run are offloaded as they should be just when the provider is never set while a
task of the queue is pending and an upload could run. -/
theorem offloadsWell_iff (secondary : Option ProviderId) (maxConcurrentUploads : Option ℕ)
    (moves : List Move) :
    OffloadsWell (Manager.new secondary maxConcurrentUploads) moves ↔
      EachMove next IsCareful (Manager.new secondary maxConcurrentUploads) moves := by
  have hinitial := consistent_new secondary maxConcurrentUploads
  have hscheduled : EachState next IsScheduled (Manager.new secondary maxConcurrentUploads) moves ↔
      EachMove next IsCareful (Manager.new secondary maxConcurrentUploads) moves := by
    refine eachState_iff_eachMove (fun manager ↦ Consistent manager ∧ IsDrained manager)
      ⟨hinitial, isDrained_new _ _⟩ ?_ ?_ ?_
    · exact fun manager hkept ↦ hkept.1.isScheduled hkept.2
    · rintro manager move ⟨hmanager, hdrained⟩
      obtain ⟨hmoves, hiff⟩ := next_spec hmanager move
      rw [← hiff hdrained]
      exact ⟨fun hafter ↦ hafter.drained, hmoves.consistent.isScheduled⟩
    · rintro manager move ⟨hmanager, hdrained⟩ hcareful
      obtain ⟨hmoves, hiff⟩ := next_spec hmanager move
      exact ⟨hmoves.consistent, (hiff hdrained).mpr hcareful⟩
  constructor
  · exact fun hwell ↦ hscheduled.mp hwell.scheduled
  · refine fun hcareful ↦ ⟨hscheduled.mpr hcareful, fun before later _ ↦ ?_⟩
    rw [runMoves_append]
    exact (moves_runMoves (moves_runMoves hinitial before).consistent later).keepsSettled

/-- A task is queued, and then the provider comes. -/
def lateProvider : List Move :=
  [.enqueueOffload "offload-1" "cam-1/clip.mp4" .alert 0, .setSecondaryProvider 0]

theorem not_offloadsWell_lateProvider : ¬ OffloadsWell (Manager.new none none) lateProvider := by
  intro hwell
  have hdrained := (hwell.scheduled lateProvider List.prefix_rfl).drained
  exact absurd (hdrained rfl (by decide)) (by decide)

end VmsLite.Storage
