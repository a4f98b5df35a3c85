import VmsLite.Async.Sequential
import VmsLite.Recordings.Footprint

/-!
# Held footage

A segment is held when it is under legal hold, near a bookmark of its camera, or in the range of an
export that is queued or running. The purges by age and by capacity ask the retention policy and
leave held segments alone; `reconcilePendingDeletions` only finishes deletions that were begun
before. `expireBufferedSegments` asks nobody: it deletes every buffered segment that motion can no
longer keep. `heldSurvives_of_unheldBuffer` says that no operation unlinks the file of a segment
that was held when it began, as long as no expiry begins over a held segment that it would delete.
The operations run one after another; any call of them may fail, and any crash may end them.
-/

set_option autoImplicit false

namespace VmsLite.Recordings

open VmsLite.Async Program

/-! ### Holds -/

/-- Whether a segment is on hold at the moment. -/
def isHeld (bookmarkWindowMs : ℤ) (world : World) (row : Recording) : Bool :=
  RetentionPolicy.isLegalHold row ||
    RetentionPolicy.overlapsAny row
      (RetentionPolicy.holds { bookmarkWindowMs := bookmarkWindowMs } world)

/-- The runs of `deleteOldestSegments`, under any settings with this bookmark window. -/
inductive PurgeRun (bookmarkWindowMs : ℤ) : Async Unit → Prop
  | age (controller : StorageController) (overrideDays : Option ℤ)
      (hwindow : controller.retention.bookmarkWindowMs = bookmarkWindowMs) :
      PurgeRun bookmarkWindowMs ((controller.purgeRetention overrideDays).bind fun _ ↦ done ())
  | capacity (controller : StorageController)
      (hwindow : controller.retention.bookmarkWindowMs = bookmarkWindowMs) :
      PurgeRun bookmarkWindowMs (controller.purgeCapacity.bind fun _ ↦ done ())

/-- The automatic deletion operations. -/
inductive DeletionOperation (bookmarkWindowMs : ℤ) : Async Unit → Prop
  | purge {program : Async Unit} (hpurge : PurgeRun bookmarkWindowMs program) :
      DeletionOperation bookmarkWindowMs program
  | expire (ingest : SegmentIngest) :
      DeletionOperation bookmarkWindowMs ingest.expireBufferedSegments
  | reconcile : DeletionOperation bookmarkWindowMs (reconcilePendingDeletions.bind fun _ ↦ done ())

/-- A run of `deleteOldestSegments` asks only questions before a batch. -/
theorem PurgeRun.eq_deleteOldestSegments {bookmarkWindowMs : ℤ} {program : Async Unit}
    (hpurge : PurgeRun bookmarkWindowMs program) :
    ∃ (controller : StorageController) (opts : PurgeOptions),
      controller.retention.bookmarkWindowMs = bookmarkWindowMs ∧
        (StorageController.continues opts).Uses (Call.harmless · = true) ∧
        program = (controller.deleteOldestSegments opts).bind fun _ ↦ done () := by
  cases hpurge with
  | age controller overrideDays hwindow =>
    exact ⟨controller, { mode := .age, overrideDays := overrideDays }, hwindow, trivial, rfl⟩
  | capacity controller hwindow =>
    exact ⟨controller, { mode := .capacity, shouldContinue := some controller.aboveTarget },
      hwindow, Uses.bind controller.getStorageMetrics_uses fun _ ↦ trivial, rfl⟩

/-- The moves of a sequence of operations, with a condition on where an operation starts. -/
def deletionTurns (bookmarkWindowMs : ℤ) (condition : Async Unit → World → Prop)
    (state : Turn Call Reply Failure World) :
    TurnMove Call Reply Failure Outcome EnvironmentChange → Prop
  | .start program => state.current.isOver = true ∧
      DeletionOperation bookmarkWindowMs program ∧ condition program state.world
  | .advance _ => True
  | .crash => True
  | .environment _ => state.current.isOver = true

/-- No operation unlinks the file of a segment that is held, and not yet DELETE_PENDING, where the
operation starts: the file is there after any number of its calls, whatever their outcomes. -/
def HeldSurvives (bookmarkWindowMs : ℤ) (condition : Async Unit → World → Prop)
    (initial : World) : Prop :=
  ∀ state, Reaches machine.turn (deletionTurns bookmarkWindowMs condition)
      { current := .done (), world := initial } state →
    ∀ program, deletionTurns bookmarkWindowMs condition state (.start program) →
      ∀ row ∈ state.world.recordings.rows, row.status ≠ .deletePending →
        isHeld bookmarkWindowMs state.world row = true →
          state.world.onDisk row.filePath = true → ∀ outcomes,
            (after answer outcomes (program, state.world)).2.onDisk row.filePath = true

/-- The buffered segments an expiry looks at. -/
def bufferedPage (world : World) : List Recording :=
  world.recordings.findRecordingsByStatus .buffered maxBufferedScan

/-- An expiry does not start over a held segment that it would delete: one that it looks at, that
ended before its cutoff, and that is below its root. -/
def UnheldBuffer (bookmarkWindowMs : ℤ) (program : Async Unit) (world : World) : Prop :=
  ∀ ingest : SegmentIngest, program = ingest.expireBufferedSegments →
    ∀ row ∈ bufferedPage world, row.endTime < ingest.expiryCutoff world.now →
      isWithinRoot ingest.recordingsRoot row.filePath = true →
        isHeld bookmarkWindowMs world row = false

/-! ### What an operation leaves alone -/

/-- Whether a path is the file of a segment that an operation starting in `origin` must spare. -/
def Spared (bookmarkWindowMs : ℤ) (origin : World) (path : Path) : Prop :=
  ∃ row ∈ origin.recordings.rows, row.filePath = path ∧ row.status ≠ .deletePending ∧
    isHeld bookmarkWindowMs origin row = true

/-- The columns of a row that decide whether it is held. -/
structure SameSegment (old row : Recording) : Prop where
  id_eq : row.id = old.id
  filePath_eq : row.filePath = old.filePath
  cameraId_eq : row.cameraId = old.cameraId
  startTime_eq : row.startTime = old.startTime
  endTime_eq : row.endTime = old.endTime
  retentionTier_eq : row.retentionTier = old.retentionTier
  isProtected_eq : row.isProtected = old.isProtected

/-- One call of an operation: rows stay or go, with their columns, the holds stay, and no spared
file is unlinked. -/
structure Spares (spared : Path → Prop) (before after : World) : Prop where
  rows : ∀ row ∈ after.recordings.rows, ∃ old ∈ before.recordings.rows, SameSegment old row
  bookmarks : after.bookmarks = before.bookmarks
  exportJobs : after.exportJobs = before.exportJobs
  files : ∀ path, spared path → before.onDisk path = true → after.onDisk path = true

/-- What an operation knows of the world it started in. -/
structure Since (origin world : World) : Prop where
  rows : ∀ row ∈ world.recordings.rows, ∃ old ∈ origin.recordings.rows, SameSegment old row
  bookmarks : world.bookmarks = origin.bookmarks
  exportJobs : world.exportJobs = origin.exportJobs

theorem SameSegment.refl (row : Recording) : SameSegment row row :=
  ⟨rfl, rfl, rfl, rfl, rfl, rfl, rfl⟩

theorem SameSegment.trans {first second third : Recording} (hfirst : SameSegment first second)
    (hsecond : SameSegment second third) : SameSegment first third where
  id_eq := hsecond.id_eq.trans hfirst.id_eq
  filePath_eq := hsecond.filePath_eq.trans hfirst.filePath_eq
  cameraId_eq := hsecond.cameraId_eq.trans hfirst.cameraId_eq
  startTime_eq := hsecond.startTime_eq.trans hfirst.startTime_eq
  endTime_eq := hsecond.endTime_eq.trans hfirst.endTime_eq
  retentionTier_eq := hsecond.retentionTier_eq.trans hfirst.retentionTier_eq
  isProtected_eq := hsecond.isProtected_eq.trans hfirst.isProtected_eq

theorem Since.refl (world : World) : Since world world :=
  ⟨fun row hrow ↦ ⟨row, hrow, SameSegment.refl row⟩, rfl, rfl⟩

theorem Since.step {spared : Path → Prop} {origin before after : World}
    (hsince : Since origin before) (hstep : Spares spared before after) : Since origin after where
  rows := by
    intro row hrow
    obtain ⟨middle, hmiddle, hsame⟩ := hstep.rows row hrow
    obtain ⟨old, hold, hsame'⟩ := hsince.rows middle hmiddle
    exact ⟨old, hold, hsame'.trans hsame⟩
  bookmarks := hstep.bookmarks.trans hsince.bookmarks
  exportJobs := hstep.exportJobs.trans hsince.exportJobs

/-- A row is held as the row it comes from. -/
theorem isHeld_congr (bookmarkWindowMs : ℤ) (world : World) {old row : Recording}
    (hsame : SameSegment old row) :
    isHeld bookmarkWindowMs world row = isHeld bookmarkWindowMs world old := by
  unfold isHeld RetentionPolicy.isLegalHold RetentionPolicy.overlapsAny overlapsWindow
  rw [hsame.cameraId_eq, hsame.startTime_eq, hsame.endTime_eq, hsame.retentionTier_eq,
    hsame.isProtected_eq]

/-- The file of a row that is not held is not spared. -/
theorem Since.not_spared {bookmarkWindowMs : ℤ} {origin world : World}
    (hsince : Since origin world) {row : Recording} (hrow : row ∈ world.recordings.rows)
    (hheld : isHeld bookmarkWindowMs origin row = false) :
    ¬ Spared bookmarkWindowMs origin row.filePath := by
  rintro ⟨held, hmem, hpath, -, hholds⟩
  obtain ⟨old, hold, hsame⟩ := hsince.rows row hrow
  have heq : held = old :=
    RecordingTable.eq_of_filePath_eq hmem hold (hpath.trans hsame.filePath_eq)
  rw [isHeld_congr bookmarkWindowMs origin hsame, ← heq, hholds] at hheld
  cases hheld

/-! ### What each call does -/

section Steps

variable {spared : Path → Prop} {world : World}

theorem Spares.of_same {before after : World} (hrows : after.recordings = before.recordings)
    (hbookmarks : after.bookmarks = before.bookmarks)
    (hexports : after.exportJobs = before.exportJobs) (hfiles : after.files = before.files) :
    Spares spared before after where
  rows := fun row hrow ↦ ⟨row, hrows ▸ hrow, SameSegment.refl row⟩
  bookmarks := hbookmarks
  exportJobs := hexports
  files := fun path _ hpath ↦ by
    rw [World.onDisk, hfiles]
    exact hpath

theorem Spares.updateStatus (world : World) (id : RecordingId) (status : SegmentStatus)
    (reason : Option (Option String)) :
    Spares spared world
      (world.updateRow id { status := some status, errorReason := reason }) where
  rows := by
    intro row hrow
    obtain ⟨old, hold, rfl⟩ := RecordingTable.mem_update.mp hrow
    refine ⟨old, hold, ?_⟩
    split_ifs
    · exact ⟨rfl, rfl, rfl, rfl, rfl, rfl, rfl⟩
    · exact SameSegment.refl old
  bookmarks := rfl
  exportJobs := rfl
  files := fun _ _ hpath ↦ hpath

theorem Spares.removeRows (world : World) (condition : Recording → Bool) :
    Spares spared world (world.removeRows condition) where
  rows := fun row hrow ↦ ⟨row, (RecordingTable.mem_remove.mp hrow).1, SameSegment.refl row⟩
  bookmarks := rfl
  exportJobs := rfl
  files := fun _ _ hpath ↦ hpath

theorem Spares.removeFile (world : World) {path : Path} (hspared : ¬ spared path) :
    Spares spared world (world.removeFile path) where
  rows := fun row hrow ↦ ⟨row, hrow, SameSegment.refl row⟩
  bookmarks := rfl
  exportJobs := rfl
  files := fun _ hother hdisk ↦
    World.onDisk_removeFile.mpr ⟨fun hsame ↦ hspared (hsame ▸ hother), hdisk⟩

/-- Calls that read, or that mark or remove a row: all but `unlink`. -/
theorem Spares.answer {call : Call} (hcall : call.harmless = true ∨ call.deletes = true)
    (hunlink : ∀ path, call ≠ .unlink path) (outcome : Outcome) (world : World) :
    Spares spared world (answer call outcome world).2 := by
  cases call with
  | updateRecordingStatus id status errorReason =>
    rcases World.answerUpdate_cases world id
      { status := some status, errorReason := some errorReason } outcome with
      ⟨-, hanswer⟩ | ⟨-, hanswer⟩
    · simp only [Recordings.answer, hanswer]
      exact Spares.updateStatus world id status _
    · simp only [Recordings.answer, hanswer]
      exact Spares.of_same rfl rfl rfl rfl
  | deleteRecording id =>
    rcases World.answerDelete_cases world id outcome with hanswer | ⟨error, hanswer⟩
    · simp only [Recordings.answer, hanswer]
      exact Spares.removeRows world _
    · simp only [Recordings.answer, hanswer]
      exact Spares.of_same rfl rfl rfl rfl
  | unlink path => exact absurd rfl (hunlink path)
  | createRecording data => simp [Call.harmless, Call.deletes] at hcall
  | updateRecordingTier id tier => simp [Call.harmless, Call.deletes] at hcall
  | deleteCamera cameraId => simp [Call.harmless, Call.deletes] at hcall
  | _ => exact Spares.of_same rfl rfl rfl rfl

end Steps

/-! ### Operations spare what is held -/

/-- Every call of a program spares the held files of `origin`, and the world it ends in still
follows `origin`. -/
def Sparing (bookmarkWindowMs : ℤ) (origin : World) {α : Type} (program : Async α)
    (post : α → Prop) (world : World) : Prop :=
  program.Steps answer (fun _ _ _ ↦ True) (Spares (Spared bookmarkWindowMs origin))
    (fun value reached ↦ post value ∧ Since origin reached) (fun _ reached ↦ Since origin reached)
    world

section Sparing

variable {bookmarkWindowMs : ℤ} {origin world : World} {α β : Type}

theorem Sparing.of_steps {program : Async α} {post : α → Prop} (hsince : Since origin world)
    (hsteps : program.Steps answer (fun _ _ _ ↦ True) (Spares (Spared bookmarkWindowMs origin))
      (fun value _ ↦ post value) (fun _ _ ↦ True) world) :
    Sparing bookmarkWindowMs origin program post world :=
  (hsteps.frame (Since origin) (fun _ _ hstep hkept ↦ hkept.step hstep) hsince).mono
    (fun _ _ hstep ↦ hstep) (fun _ _ hpost ↦ hpost) fun _ _ hthrown ↦ hthrown.2

theorem Sparing.bind {program : Async α} {rest : α → Async β} {middle : α → Prop}
    {post : β → Prop} (hfirst : Sparing bookmarkWindowMs origin program middle world)
    (hrest : ∀ value reached, middle value → Since origin reached →
      Sparing bookmarkWindowMs origin (rest value) post reached) :
    Sparing bookmarkWindowMs origin (program.bind rest) post world :=
  Steps.bind hfirst fun value reached hreached ↦ hrest value reached hreached.1 hreached.2

theorem Sparing.done {value : α} {post : α → Prop} (hpost : post value)
    (hsince : Since origin world) :
    Sparing bookmarkWindowMs origin (Program.done value) post world :=
  ⟨hpost, hsince⟩

theorem Sparing.orThrow {reply : Except Failure α} {post : α → Prop}
    (hpost : ∀ value, reply = .ok value → post value) (hsince : Since origin world) :
    Sparing bookmarkWindowMs origin (Program.orThrow reply) post world :=
  Steps.orThrow (fun value hreply ↦ ⟨hpost value hreply, hsince⟩) fun _ _ ↦ hsince

theorem Sparing.catching {program : Async α} {handler : Failure → Async α} {post : α → Prop}
    (hbody : Sparing bookmarkWindowMs origin program post world)
    (hhandler : ∀ error reached, Since origin reached →
      Sparing bookmarkWindowMs origin (handler error) post reached) :
    Sparing bookmarkWindowMs origin (program.catching handler) post world :=
  Steps.catching (fun _ reached ↦ Since origin reached) hbody hhandler

theorem Sparing.foldlM {items : List α} {body : β → α → Async β}
    (hbody : ∀ total, ∀ item ∈ items, ∀ reached, Since origin reached →
      Sparing bookmarkWindowMs origin (body total item) (fun _ ↦ True) reached)
    {total : β} (hsince : Since origin world) :
    Sparing bookmarkWindowMs origin (items.foldlM body total) (fun _ ↦ True) world :=
  Steps.mono (Steps.foldlM (fun _ reached ↦ Since origin reached)
    (fun total item hitem reached hreached ↦ (hbody total item hitem reached hreached).mono
      (fun _ _ hstep ↦ hstep) (fun _ _ hpost ↦ hpost.2) fun _ _ hthrown ↦ hthrown) hsince)
    (fun _ _ hstep ↦ hstep) (fun _ _ hkept ↦ ⟨trivial, hkept⟩) fun _ _ hthrown ↦ hthrown

/-- A program that unlinks nothing spares everything. -/
theorem Sparing.of_uses {program : Async α}
    (huses : program.Uses fun call ↦ (call.harmless = true ∨ call.deletes = true) ∧
      ∀ path, call ≠ .unlink path) (hsince : Since origin world) :
    Sparing bookmarkWindowMs origin program (fun _ ↦ True) world :=
  Sparing.of_steps hsince (Steps.of_uses huses
    (fun _ outcome world hcall _ ↦ Spares.answer hcall.1 hcall.2 outcome world) world)

/-- A program that only reads spares everything. -/
theorem Sparing.of_harmless {program : Async α} (huses : program.Uses (Call.harmless · = true))
    (hsince : Since origin world) :
    Sparing bookmarkWindowMs origin program (fun _ ↦ True) world := by
  refine Sparing.of_uses (huses.mono fun call hharmless ↦ ⟨Or.inl hharmless, ?_⟩) hsince
  rintro path rfl
  cases hharmless

/-- One query and what its answer says. -/
theorem Sparing.query {request : Call} {post : Reply request → Prop}
    (hharmless : request.harmless = true)
    (hpost : ∀ outcome, post (answer request outcome world).1) (hsince : Since origin world) :
    Sparing bookmarkWindowMs origin (call request) post world := by
  refine Sparing.of_steps hsince (Steps.request fun outcome _ ↦ ⟨?_, hpost outcome⟩)
  refine Spares.answer (Or.inl hharmless) ?_ outcome world
  rintro path rfl
  cases hharmless

/-- The value of a query that went through. -/
theorem orFail_eq_ok {outcome : Outcome} {value found : α}
    (hreply : outcome.orFail value = .ok found) : found = value := by
  rcases Outcome.orFail_cases outcome value with hok | ⟨error, -, herror⟩
  · exact Except.ok.inj (hreply.symm.trans hok)
  · exact absurd (hreply.symm.trans herror) (by simp)

/-- Unlinking a file that need not be spared. -/
theorem fsUnlinkFn_sparing {path : Path} (hpath : ¬ Spared bookmarkWindowMs origin path)
    (hsince : Since origin world) :
    Sparing bookmarkWindowMs origin (fsUnlinkFn path) (fun _ ↦ True) world := by
  have hstep : ∀ outcome, Spares (Spared bookmarkWindowMs origin) world
      (answer (.unlink path) outcome world).2 := by
    intro outcome
    rcases World.answerUnlink_cases world path outcome with ⟨-, hanswer⟩ | ⟨error, hanswer, -⟩
    · simp only [answer, hanswer]
      exact Spares.removeFile world hpath
    · simp only [answer, hanswer]
      exact Spares.of_same rfl rfl rfl rfl
  refine Sparing.of_steps hsince ?_
  exact fun outcome _ ↦ ⟨hstep outcome, trivial⟩

/-- Deleting a segment that need not be spared, or that is not below the root. -/
theorem deleteSegmentInternal_sparing {recordingsRoot path : Path} (id : RecordingId)
    (reportedSize : ℕ)
    (hpath : isWithinRoot recordingsRoot path = true → ¬ Spared bookmarkWindowMs origin path)
    (hsince : Since origin world) :
    Sparing bookmarkWindowMs origin (deleteSegmentInternal recordingsRoot id path reportedSize)
      (fun _ ↦ True) world := by
  have hmark : ∀ status reason reached, Since origin reached →
      Sparing bookmarkWindowMs origin (updateRecordingStatus id status reason) (fun _ ↦ True)
        reached :=
    fun _ _ _ ↦ Sparing.of_uses (Uses.request ⟨Or.inr rfl, fun _ ↦ nofun⟩)
  have hdelete : ∀ reached, Since origin reached →
      Sparing bookmarkWindowMs origin (tryDeleteRecording id) (fun _ ↦ True) reached :=
    fun _ ↦ Sparing.of_uses (Uses.request ⟨Or.inr rfl, fun _ ↦ nofun⟩)
  unfold deleteSegmentInternal
  split_ifs with hroot
  · refine Sparing.bind (hmark _ _ _ hsince) fun _ marked _ hmarked ↦ ?_
    refine Sparing.bind (fsUnlinkFn_sparing (hpath hroot) hmarked) ?_
    rintro (error | _) unlinked _ hunlinked
    · dsimp only
      split_ifs
      · refine Sparing.bind (Sparing.bind (hdelete _ hunlinked) fun reply deleted _ hdeleted ↦
          Sparing.orThrow (fun _ _ ↦ trivial) hdeleted) fun _ deleted _ hdeleted ↦ ?_
        exact Sparing.done trivial hdeleted
      · exact Sparing.bind (hmark _ _ _ hunlinked) fun _ _ _ hgarbage ↦
          Sparing.done trivial hgarbage
    · refine Sparing.bind (hdelete _ hunlinked) ?_
      rintro (error | _) deleted _ hdeleted
      · exact Sparing.bind (hmark _ _ _ hdeleted) fun _ _ _ hgarbage ↦
          Sparing.done trivial hgarbage
      · exact Sparing.done trivial hdeleted
  · exact hsince

end Sparing

/-! ### Purges -/

section Purge

variable {bookmarkWindowMs : ℤ} {origin world : World} {policy : RetentionPolicy}

/-- A policy's windows depend on its bookmark window only. -/
theorem holds_eq (hwindow : policy.bookmarkWindowMs = bookmarkWindowMs) (world : World) :
    policy.holds world =
      RetentionPolicy.holds { bookmarkWindowMs := bookmarkWindowMs } world := by
  unfold RetentionPolicy.holds RetentionPolicy.bookmarkWindow
  rw [hwindow]

/-- The windows a policy finds say of its segments what the holds of the origin say. -/
theorem holdWindows_sparing (hsince : Since origin world) (segments : List Recording) :
    Sparing bookmarkWindowMs origin (policy.holdWindows segments)
      (fun windows ↦ ∀ segment ∈ segments, RetentionPolicy.overlapsAny segment windows =
        RetentionPolicy.overlapsAny segment (policy.holds origin)) world := by
  have hbookmarks : ∀ reached, Since origin reached → Sparing bookmarkWindowMs origin
      (call (.findBookmarks (policy.holdsFrom segments) (policy.holdsTo segments)))
      (fun reply ↦ ∀ found, reply = .ok found → found = origin.bookmarks.filter fun bookmark ↦
        policy.holdsFrom segments ≤ bookmark.timestamp &&
          bookmark.timestamp ≤ policy.holdsTo segments) reached := by
    refine fun reached hreached ↦ Sparing.query rfl (fun outcome found hreply ↦ ?_) hreached
    rw [← hreached.bookmarks]
    exact orFail_eq_ok hreply
  have hexports : ∀ reached, Since origin reached → Sparing bookmarkWindowMs origin
      (call .findActiveExports) (fun reply ↦ ∀ found, reply = .ok found →
        found = origin.exportJobs.filter fun job ↦
          job.status = .queued || job.status = .running) reached := by
    refine fun reached hreached ↦ Sparing.query rfl (fun outcome found hreply ↦ ?_) hreached
    rw [← hreached.exportJobs]
    exact orFail_eq_ok hreply
  unfold RetentionPolicy.holdWindows
  refine Sparing.bind (Sparing.of_harmless (Uses.request rfl) hsince) ?_
  rintro (_ | _) asked _ hasked
  · refine Sparing.bind (hexports asked hasked) fun reply listed hreply hlisted ↦ ?_
    refine Sparing.bind (Sparing.orThrow hreply hlisted) ?_
    rintro _ found rfl hfound
    refine Sparing.bind (hbookmarks found hfound) fun reply listed hreply hlisted ↦ ?_
    refine Sparing.bind (Sparing.orThrow hreply hlisted) ?_
    rintro _ found rfl hfound
    exact Sparing.done (fun segment hsegment ↦ policy.overlapsAny_span origin hsegment) hfound
  · refine Sparing.bind (hbookmarks asked hasked) fun reply listed hreply hlisted ↦ ?_
    refine Sparing.bind (Sparing.orThrow hreply hlisted) ?_
    rintro _ found rfl hfound
    refine Sparing.bind (hexports found hfound) fun reply listed hreply hlisted ↦ ?_
    refine Sparing.bind (Sparing.orThrow hreply hlisted) ?_
    rintro _ found rfl hfound
    exact Sparing.done (fun segment hsegment ↦ policy.overlapsAny_span origin hsegment) hfound

/-- What a policy lets go was not held where the operation started. -/
theorem deletable_sparing (hwindow : policy.bookmarkWindowMs = bookmarkWindowMs)
    (hsince : Since origin world) (candidates : List Recording) (mode : PurgeMode)
    (overrideDays : Option ℤ) :
    Sparing bookmarkWindowMs origin (policy.deletable candidates mode overrideDays)
      (fun deletable ↦ ∀ row ∈ deletable, row ∈ candidates ∧
        isHeld bookmarkWindowMs origin row = false) world := by
  unfold RetentionPolicy.deletable
  refine Sparing.bind (Sparing.of_harmless (Uses.request rfl) hsince)
    fun now clocked _ hclocked ↦ ?_
  dsimp only
  split_ifs
  · exact Sparing.done (fun row hrow ↦ absurd hrow List.not_mem_nil) hclocked
  · refine Sparing.bind (holdWindows_sparing hclocked _) fun windows found hwindows hfound ↦ ?_
    refine Sparing.done (fun row hrow ↦ ?_) hfound
    obtain ⟨hdue, hfree⟩ := List.mem_filter.mp hrow
    rw [hwindows row hdue, holds_eq hwindow] at hfree
    rw [policy.due_eq_filter, List.mem_filter] at hdue
    refine ⟨hdue.1, ?_⟩
    have hunheld : RetentionPolicy.isLegalHold row = false := by
      have hdue := hdue.2
      simp only [RetentionPolicy.isDue, Bool.and_eq_true, Bool.not_eq_true'] at hdue
      exact hdue.1.2
    rw [isHeld, hunheld, Bool.false_or]
    simpa using hfree

variable {controller : StorageController}

/-- One pass of a purge spares what was held where the purge started. -/
theorem purgePass_sparing (hwindow : controller.retention.bookmarkWindowMs = bookmarkWindowMs)
    {opts : PurgeOptions}
    (hcontinue : (StorageController.continues opts).Uses (Call.harmless · = true))
    (statuses : Option (List SegmentStatus)) (iterations : ℕ) (progress : PurgeProgress)
    (hsince : Since origin world) :
    Sparing bookmarkWindowMs origin (controller.purgePass opts statuses iterations progress)
      (fun _ ↦ True) world := by
  induction iterations generalizing progress world with
  | zero => exact Sparing.done trivial hsince
  | succ iterations ih =>
    have hquery : Sparing bookmarkWindowMs origin
        (getOldestRecordings controller.batchSize progress.skip statuses)
        (fun found ↦ ∀ row ∈ found, row ∈ world.recordings.rows) world := by
      refine Sparing.bind (Sparing.query rfl (fun outcome ↦ ?_) hsince)
        fun reply listed hreply hlisted ↦ Sparing.orThrow hreply hlisted
      intro found hreply row hrow
      rw [orFail_eq_ok hreply, RecordingTable.findOldestRecordings] at hrow
      have hrow := List.mem_of_mem_drop (List.mem_of_mem_take hrow)
      rw [mem_oldestFirst, List.mem_filter] at hrow
      exact hrow.1
    unfold StorageController.purgePass
    refine Sparing.bind hquery fun candidates listed hcandidates hlisted ↦ ?_
    split_ifs
    · exact Sparing.done trivial hlisted
    refine Sparing.bind (Sparing.of_harmless hcontinue hlisted) fun goesOn checked _ hchecked ↦ ?_
    split_ifs
    · refine Sparing.bind (deletable_sparing hwindow hchecked candidates _ _)
        fun deletable asked hdeletable hasked ↦ ?_
      refine Sparing.bind (Sparing.foldlM (fun progress segment hsegment reached hreached ↦ ?_)
        hasked) fun progress deleted _ hdeleted ↦ ?_
      · unfold StorageController.deleteCandidate
        split_ifs with hids
        · -- The id is that of a row the policy let go, so the segment is that row
          obtain ⟨row, hrow, hid⟩ := List.mem_map.mp hids
          obtain ⟨hmem, hfree⟩ := hdeletable row hrow
          have hsame : row = segment := RecordingTable.eq_of_id_eq (hcandidates row hmem)
            (hcandidates segment hsegment) hid
          refine Sparing.catching (Sparing.bind (deleteSegmentInternal_sparing _ _ (fun _ ↦ ?_)
            hreached) fun _ _ _ hend ↦ Sparing.done trivial hend)
              fun _ _ hend ↦ Sparing.done trivial hend
          exact hsince.not_spared (hcandidates segment hsegment) (hsame ▸ hfree)
        · exact Sparing.done trivial hreached
      · split_ifs
        · exact Sparing.done trivial hdeleted
        · exact ih progress hdeleted
    · exact Sparing.done trivial hchecked

theorem deleteOldestSegments_sparing
    (hwindow : controller.retention.bookmarkWindowMs = bookmarkWindowMs) {opts : PurgeOptions}
    (hcontinue : (StorageController.continues opts).Uses (Call.harmless · = true))
    (hsince : Since origin world) :
    Sparing bookmarkWindowMs origin (controller.deleteOldestSegments opts) (fun _ ↦ True)
      world := by
  unfold StorageController.deleteOldestSegments
  generalize StorageController.passes opts.mode = passes
  generalize ({} : PurgeProgress) = progress
  induction passes generalizing progress world with
  | nil => exact Sparing.done trivial hsince
  | cons statuses passes ih =>
    unfold StorageController.purgePasses
    refine Sparing.bind (purgePass_sparing hwindow hcontinue _ _ _ hsince)
      fun passed reached _ hreached ↦ ?_
    dsimp only
    split_ifs
    · exact Sparing.done trivial hreached
    · exact ih hreached passed.2

end Purge

/-! ### The other operations -/

section Others

variable {bookmarkWindowMs : ℤ} {origin : World}

/-- A sweep of pending deletions touches only rows that were DELETE_PENDING before. -/
theorem reconcilePendingDeletions_sparing :
    Sparing bookmarkWindowMs origin reconcilePendingDeletions (fun _ ↦ True) origin := by
  have hquery : Sparing bookmarkWindowMs origin
      (findRecordingsByStatus .deletePending pendingSweepLimit)
      (fun found ↦ ∀ row ∈ found, ¬ Spared bookmarkWindowMs origin row.filePath) origin := by
    refine Sparing.bind (Sparing.query rfl (fun outcome ↦ ?_) (Since.refl origin))
      fun reply listed hreply hlisted ↦ Sparing.orThrow hreply hlisted
    rintro found hreply row hrow ⟨spared, hspared, hpath, hstatus, -⟩
    rw [orFail_eq_ok hreply, RecordingTable.findRecordingsByStatus] at hrow
    have hrow := List.mem_of_mem_take hrow
    rw [mem_oldestFirst, List.mem_filter, decide_eq_true_eq] at hrow
    rw [RecordingTable.eq_of_filePath_eq hspared hrow.1 hpath] at hstatus
    exact hstatus hrow.2
  have hmark : ∀ id reason reached, Since origin reached →
      Sparing bookmarkWindowMs origin (updateRecordingStatus id .garbage reason) (fun _ ↦ True)
        reached :=
    fun _ _ _ ↦ Sparing.of_uses (Uses.request ⟨Or.inr rfl, fun _ ↦ nofun⟩)
  have hdelete : ∀ id reached, Since origin reached →
      Sparing bookmarkWindowMs origin (deleteRecording id) (fun _ ↦ True) reached :=
    fun id _ ↦ Sparing.of_uses (Uses.bind (Uses.request ⟨Or.inr rfl, fun _ ↦ nofun⟩)
      fun _ ↦ Uses.orThrow)
  unfold reconcilePendingDeletions
  refine Sparing.bind hquery fun pending listed hpending hlisted ↦ ?_
  refine Sparing.foldlM (fun counts seg hseg reached hreached ↦ ?_) hlisted
  unfold reconcileSegment
  refine Sparing.bind (Sparing.of_harmless (Uses.request rfl) hreached) ?_
  rintro (error | _) probed _ hprobed
  · exact Sparing.bind (hdelete _ _ hprobed) fun _ _ _ hend ↦ Sparing.done trivial hend
  · refine Sparing.catching (Sparing.bind (fsUnlinkFn_sparing (hpending seg hseg) hprobed)
      fun reply unlinked _ hunlinked ↦ ?_) fun error reached hreached ↦ ?_
    · refine Sparing.bind (Sparing.orThrow (fun _ _ ↦ trivial) hunlinked)
        fun _ _ (_ : True) hend ↦ ?_
      exact Sparing.bind (hdelete _ _ hend) fun _ _ _ hend ↦ Sparing.done trivial hend
    · exact Sparing.bind (hmark _ _ _ hreached) fun _ _ _ hend ↦ Sparing.done trivial hend

/-- An expiry that looks at no held segment it would delete spares what is held. -/
theorem expireBufferedSegments_sparing (ingest : SegmentIngest)
    (hunheld : UnheldBuffer bookmarkWindowMs ingest.expireBufferedSegments origin) :
    Sparing bookmarkWindowMs origin ingest.expireBufferedSegments (fun _ ↦ True) origin := by
  have hquery : Sparing bookmarkWindowMs origin (findRecordingsByStatus .buffered maxBufferedScan)
      (fun found ↦ found = bufferedPage origin) origin :=
    Sparing.bind (Sparing.query rfl (fun _ _ ↦ orFail_eq_ok) (Since.refl origin))
      fun reply listed hreply hlisted ↦ Sparing.orThrow hreply hlisted
  have hexpire : Sparing bookmarkWindowMs origin
      ((findRecordingsByStatus .buffered maxBufferedScan).bind fun buffered ↦ buffered.foldlM
        (fun _ segment ↦ ingest.expireSegment (ingest.expiryCutoff origin.now) segment) ())
      (fun _ ↦ True) origin := by
    refine Sparing.bind hquery ?_
    rintro _ listed rfl hlisted
    refine Sparing.foldlM (fun _ segment hsegment reached hreached ↦ ?_) hlisted
    unfold SegmentIngest.expireSegment
    split_ifs with hcutoff
    · exact Sparing.done trivial hreached
    · refine Sparing.catching (Sparing.bind (deleteSegmentInternal_sparing _ _ (fun hroot ↦ ?_)
        hreached) fun _ _ _ hend ↦ Sparing.done trivial hend)
          fun _ _ hend ↦ Sparing.done trivial hend
      have hheld := hunheld ingest rfl segment hsegment (not_le.mp hcutoff) hroot
      rw [bufferedPage, RecordingTable.findRecordingsByStatus] at hsegment
      have hmem := List.mem_of_mem_take hsegment
      rw [mem_oldestFirst, List.mem_filter] at hmem
      exact (Since.refl origin).not_spared hmem.1 hheld
  -- The clock is read first, and changes nothing
  exact fun _ _ ↦ ⟨Spares.of_same rfl rfl rfl rfl, hexpire⟩

end Others

/-- Every operation spares what is held where it starts, an expiry on its condition. -/
theorem DeletionOperation.sparing {bookmarkWindowMs : ℤ} {program : Async Unit}
    (hoperation : DeletionOperation bookmarkWindowMs program) {origin : World}
    (hunheld : UnheldBuffer bookmarkWindowMs program origin) :
    Sparing bookmarkWindowMs origin program (fun _ ↦ True) origin := by
  have hsince := Since.refl origin
  cases hoperation with
  | purge hpurge =>
    obtain ⟨controller, opts, hwindow, hcontinue, rfl⟩ := hpurge.eq_deleteOldestSegments
    exact Sparing.bind (deleteOldestSegments_sparing hwindow hcontinue hsince)
      fun _ _ _ hend ↦ Sparing.done trivial hend
  | expire ingest => exact expireBufferedSegments_sparing ingest hunheld
  | reconcile =>
    exact Sparing.bind reconcilePendingDeletions_sparing fun _ _ _ hend ↦ Sparing.done trivial hend

/-! ### Runs -/

/-- Held footage survives every sequence of operations in which no expiry starts over a held segment
that it would delete. -/
theorem heldSurvives_of_unheldBuffer (bookmarkWindowMs : ℤ) (initial : World) :
    HeldSurvives bookmarkWindowMs (UnheldBuffer bookmarkWindowMs) initial := by
  intro state _ program hstart row hrow hstatus hheld hdisk outcomes
  obtain ⟨-, hoperation, hunheld⟩ := hstart
  have hspared : Spared bookmarkWindowMs state.world row.filePath :=
    ⟨row, hrow, rfl, hstatus, hheld⟩
  exact Steps.after (fun reached ↦ reached.onDisk row.filePath = true) (fun _ _ _ ↦ trivial)
    (fun _ _ hstep ↦ hstep.files row.filePath hspared) (hoperation.sparing hunheld) hdisk outcomes

/-- A protected segment of the motion buffer, a minute after its end. -/
def heldBufferWorld : World where
  recordings :=
    { rows := [{ yardSegment with status := .buffered, isProtected := true }], nextId := 1 }
  files := [{ path := yardSegment.filePath, size := 100, mtimeMs := 0 }]
  now := 70000

/-- An expiry deletes a protected segment once it is old enough. -/
theorem not_heldSurvives_expired_hold :
    ¬ HeldSurvives 120000 (fun _ _ ↦ True) heldBufferWorld := by
  intro hsurvives
  have hfile := hsurvives { current := .done (), world := heldBufferWorld } Reaches.refl
    (SegmentIngest.mk ["rec"] 15000 10 30 30).expireBufferedSegments
    ⟨rfl, DeletionOperation.expire _, trivial⟩
    { yardSegment with status := .buffered, isProtected := true } (by decide) (by decide)
    (by decide) (by decide) [.ok, .ok, .ok, .ok]
  revert hfile
  decide

end VmsLite.Recordings
