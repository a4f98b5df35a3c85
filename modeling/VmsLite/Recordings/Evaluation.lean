import VmsLite.Async.Uses
import VmsLite.Paging.Sweep
import VmsLite.Recordings.StorageController

/-!
# Runs without failures

What the programs of the engine return, and what they do to the store, when no call fails: every
query is then a function of the world. A policy is `Unhindered` when only an `unlink` may fail.
`Undisturbed` relates two worlds with the same store, clock and volume; reading the metrics keeps
it. `mayDelete` says of one row what `deletable` says of a batch.
-/

set_option autoImplicit false

namespace VmsLite.Recordings

open VmsLite.Async Program

/-- Every call but an `unlink` goes through. -/
def Unhindered (policy : Call → World → Outcome) : Prop :=
  ∀ call world, (∀ path, call ≠ .unlink path) → policy call world = .ok

theorem Unhindered.eval_await {policy : Call → World → Outcome} (hpolicy : Unhindered policy)
    {α : Type} {request : Call} (hrequest : ∀ path, request ≠ .unlink path)
    (next : Reply request → Async α) (world : World) :
    eval answer policy (await request next) world =
      eval answer policy (next (answer request .ok world).1) (answer request .ok world).2 := by
  rw [Program.eval_await, hpolicy request world hrequest]

/-- Every call goes through. -/
def calm : Call → World → Outcome := fun _ _ ↦ .ok

theorem calm_unhindered : Unhindered calm := fun _ _ _ ↦ rfl

/-- The same rows, files, holds, clock and volume. -/
structure Undisturbed (before after : World) : Prop where
  recordings : after.recordings = before.recordings
  cameras : after.cameras = before.cameras
  bookmarks : after.bookmarks = before.bookmarks
  exportJobs : after.exportJobs = before.exportJobs
  files : after.files = before.files
  directories : after.directories = before.directories
  volume : after.volume = before.volume
  now : after.now = before.now

theorem Undisturbed.refl (world : World) : Undisturbed world world :=
  ⟨rfl, rfl, rfl, rfl, rfl, rfl, rfl, rfl⟩

theorem Undisturbed.trans {first second third : World} (hfirst : Undisturbed first second)
    (hsecond : Undisturbed second third) : Undisturbed first third where
  recordings := hsecond.recordings.trans hfirst.recordings
  cameras := hsecond.cameras.trans hfirst.cameras
  bookmarks := hsecond.bookmarks.trans hfirst.bookmarks
  exportJobs := hsecond.exportJobs.trans hfirst.exportJobs
  files := hsecond.files.trans hfirst.files
  directories := hsecond.directories.trans hfirst.directories
  volume := hsecond.volume.trans hfirst.volume
  now := hsecond.now.trans hfirst.now

/-- Calls that read, touch the memory of the process or emit an event, a storage warning apart. -/
def Call.harmless : Call → Bool
  | .createRecording _ | .updateRecordingTier .. | .updateRecordingStatus ..
  | .deleteRecording _ | .deleteCamera _ | .unlink _ | .emitEvent (.storageWarning ..) => false
  | _ => true

theorem Undisturbed.answer {before : World} (call : Call) (outcome : Outcome) (world : World)
    (hharmless : call.harmless = true) (hworld : Undisturbed before world) :
    Undisturbed before (answer call outcome world).2 := by
  cases call <;> simp only [Call.harmless, Bool.false_eq_true] at hharmless
  all_goals exact hworld.trans ⟨rfl, rfl, rfl, rfl, rfl, rfl, rfl, rfl⟩

/-- Calls that read the database, the volume or the clock. -/
def Call.consults : Call → Bool
  | .findOldestRecordings .. | .findHeldRecordings _ | .findBookmarks .. | .findActiveExports
  | .promiseAllOrder | .statfs _ | .clockNow => true
  | _ => false

/-- Calls that find out what is kept. -/
def Call.asksHolds : Call → Bool
  | .findHeldRecordings _ | .findBookmarks .. | .findActiveExports | .promiseAllOrder
  | .clockNow => true
  | _ => false

theorem Call.consults_of_asksHolds {call : Call} (hasks : call.asksHolds = true) :
    call.consults = true := by
  cases call <;> first | rfl | cases hasks

/-- Calls that read how full the disk is. -/
def Call.isReading : Call → Bool
  | .statfs _ => true
  | _ => false

theorem Call.consults_of_isReading {call : Call} (hreading : call.isReading = true) :
    call.consults = true := by
  cases call <;> first | rfl | cases hreading

/-- Calls that a measurement of the storage makes. -/
def Call.isMeasurement : Call → Bool
  | .mkdir _ | .statfs _ | .writeCanary | .exchangeHealthStatus _ | .getProtectedOverflow
  | .setProtectedOverflow _ | .emitEvent (.storageHealthChanged ..)
  | .emitEvent (.protectedOverflow ..) | .emitEvent (.protectedRecovered ..) => true
  | call => call.asksHolds

theorem Call.isMeasurement_of_asksHolds {call : Call} (hasks : call.asksHolds = true) :
    call.isMeasurement = true := by
  cases call <;> first | rfl | cases hasks

theorem Call.isMeasurement_of_isReading {call : Call} (hreading : call.isReading = true) :
    call.isMeasurement = true := by
  cases call <;> first | rfl | cases hreading

theorem Call.harmless_of_isMeasurement {call : Call} (hmeasurement : call.isMeasurement = true) :
    call.harmless = true := by
  cases call with
  | emitEvent event => cases event <;> first | rfl | cases hmeasurement
  | _ => first | rfl | cases hmeasurement

theorem Call.harmless_of_consults {call : Call} (hconsults : call.consults = true) :
    call.harmless = true := by
  cases call <;> first | rfl | cases hconsults

/-- Only the emission of an event adds to the events. -/
theorem emitted_answer {call : Call} (hcall : ∀ event, call ≠ .emitEvent event) (outcome : Outcome)
    (world : World) : (answer call outcome world).2.emitted = world.emitted := by
  cases call with
  | createRecording data =>
    rcases World.answerCreate_cases world data outcome with ⟨_, hanswer⟩ | ⟨_, hanswer⟩
    all_goals simp only [answer, hanswer]
  | updateRecordingTier id tier =>
    rcases World.answerUpdate_cases world id { retentionTier := some tier } outcome with
      ⟨_, hanswer⟩ | ⟨_, hanswer⟩
    all_goals simp only [answer, hanswer, World.updateRow]
  | updateRecordingStatus id status errorReason =>
    rcases World.answerUpdate_cases world id
      { status := some status, errorReason := some errorReason } outcome with
      ⟨_, hanswer⟩ | ⟨_, hanswer⟩
    all_goals simp only [answer, hanswer, World.updateRow]
  | deleteRecording id =>
    rcases World.answerDelete_cases world id outcome with hanswer | ⟨_, hanswer⟩
    all_goals simp only [answer, hanswer, World.removeRows]
  | deleteCamera cameraId =>
    simp only [answer, World.answerDeleteCamera]
    split
    · rfl
    · split_ifs <;> rfl
  | unlink path =>
    rcases World.answerUnlink_cases world path outcome with ⟨_, hanswer⟩ | ⟨_, hanswer, _⟩
    all_goals simp only [answer, hanswer, World.removeFile]
  | emitEvent event => exact absurd rfl (hcall event)
  | _ => rfl

/-- The same rows and the same files. -/
def KeepsStore (before after : World) : Prop :=
  after.recordings.rows = before.recordings.rows ∧ after.files = before.files

theorem KeepsStore.of_undisturbed {before after : World}
    (hundisturbed : Undisturbed before after) : KeepsStore before after :=
  ⟨congrArg RecordingTable.rows hundisturbed.recordings, hundisturbed.files⟩

/-- Programs that only read keep the store. -/
theorem keepsStore_of_uses {α : Type} {program : Async α}
    (huses : program.Uses (Call.harmless · = true)) (policy : Call → World → Outcome)
    (world : World) : ∀ reached ∈ visited answer policy program world, KeepsStore world reached :=
  fun reached hreached ↦ KeepsStore.of_undisturbed (huses.visited policy
    (fun call outcome _ hharmless hworld ↦ hworld.answer call outcome _ hharmless)
    (Undisturbed.refl world) reached hreached)

/-! ### The retention policy -/

namespace RetentionPolicy

variable (policy : RetentionPolicy)

/-- What is kept at the moment, over all time. -/
def holds (world : World) : List Window :=
  world.bookmarks.map policy.bookmarkWindow ++
    (world.exportJobs.filter fun job ↦ job.status = .queued || job.status = .running).map
      exportWindow

/-- Whether a row is old enough at `now`. -/
def isDue (now : ℤ) (mode : PurgeMode) (overrideDays : Option ℤ) (row : Recording) : Bool :=
  row.status ≠ .buffered && !isLegalHold row &&
    (mode = .capacity || row.startTime < now - policy.lifetimeMs overrideDays row)

/-- Whether the policy lets a row be deleted at the moment. -/
def mayDelete (world : World) (mode : PurgeMode) (overrideDays : Option ℤ) (row : Recording) :
    Bool :=
  policy.isDue world.now mode overrideDays row && !overlapsAny row (policy.holds world)

theorem due_eq_filter (now : ℤ) (candidates : List Recording) (mode : PurgeMode)
    (overrideDays : Option ℤ) :
    policy.due now candidates mode overrideDays =
      candidates.filter (policy.isDue now mode overrideDays) := by
  cases mode with
  | age =>
    simp only [due, List.filter_filter]
    refine List.filter_congr fun row _ ↦ ?_
    simp [isDue, Bool.and_comm]
  | capacity =>
    refine List.filter_congr fun row _ ↦ ?_
    simp [isDue]

/-- A bookmark whose window meets one of the segments is not left out of the query. -/
theorem bookmark_in_span {segments : List Recording} {segment : Recording}
    (hsegment : segment ∈ segments) {bookmark : Bookmark}
    (hoverlap : overlapsWindow segment (policy.bookmarkWindow bookmark) = true) :
    policy.holdsFrom segments ≤ bookmark.timestamp ∧
      bookmark.timestamp ≤ policy.holdsTo segments := by
  obtain ⟨-, hstart, hend⟩ := overlapsWindow_iff.mp hoverlap
  simp only [bookmarkWindow] at hstart hend
  constructor
  · unfold holdsFrom
    cases hmin : (segments.map Recording.startTime).min? with
    | none =>
      rw [List.min?_eq_none_iff, List.map_eq_nil_iff] at hmin
      exact absurd (hmin ▸ hsegment) List.not_mem_nil
    | some first =>
      have hfirst := (List.min?_eq_some_iff.mp hmin).2 _ (List.mem_map_of_mem hsegment)
      show first - policy.bookmarkWindowMs ≤ bookmark.timestamp
      omega
  · unfold holdsTo
    cases hmax : (segments.map Recording.endTime).max? with
    | none =>
      rw [List.max?_eq_none_iff, List.map_eq_nil_iff] at hmax
      exact absurd (hmax ▸ hsegment) List.not_mem_nil
    | some last =>
      have hlast := (List.max?_eq_some_iff.mp hmax).2 _ (List.mem_map_of_mem hsegment)
      show bookmark.timestamp ≤ last + policy.bookmarkWindowMs
      omega

/-- Over a query's own segments, the windows it finds say the same as all windows. -/
theorem overlapsAny_span (world : World) {segments : List Recording} {segment : Recording}
    (hsegment : segment ∈ segments) :
    overlapsAny segment
        (((world.bookmarks.filter fun bookmark ↦
          policy.holdsFrom segments ≤ bookmark.timestamp &&
            bookmark.timestamp ≤ policy.holdsTo segments).map policy.bookmarkWindow) ++
          (world.exportJobs.filter fun job ↦
            job.status = .queued || job.status = .running).map exportWindow) =
      overlapsAny segment (policy.holds world) := by
  simp only [overlapsAny, holds, List.any_append, List.any_map, List.any_filter]
  congr 1
  refine List.any_congr rfl fun bookmark ↦ ?_
  cases hoverlap : overlapsWindow segment (policy.bookmarkWindow bookmark) with
  | false => simp [hoverlap]
  | true =>
    obtain ⟨hfrom, hto⟩ := policy.bookmark_in_span hsegment hoverlap
    simp [hoverlap, hfrom, hto]

variable {outcomes : Call → World → Outcome}

theorem eval_holdWindows (houtcomes : Unhindered outcomes) (segments : List Recording)
    (world : World) :
    eval answer outcomes (policy.holdWindows segments) world =
      (.ok (((world.bookmarks.filter fun bookmark ↦
          policy.holdsFrom segments ≤ bookmark.timestamp &&
            bookmark.timestamp ≤ policy.holdsTo segments).map policy.bookmarkWindow) ++
          (world.exportJobs.filter fun job ↦
            job.status = .queued || job.status = .running).map exportWindow), world) := by
  unfold holdWindows
  simp only [call, bind_eq, request_bind]
  rw [houtcomes.eval_await (by simp)]
  simp only [answer, Outcome.passes, if_true]
  rw [houtcomes.eval_await (by simp)]
  simp only [answer, Outcome.orFail, orThrow_ok, done_bind]
  rw [houtcomes.eval_await (by simp)]
  rfl

/-- What is due and overlaps no hold may be deleted. -/
theorem due_filter_holds (candidates : List Recording) (mode : PurgeMode)
    (overrideDays : Option ℤ) (world : World) :
    (policy.due world.now candidates mode overrideDays).filter (fun segment ↦
        !overlapsAny segment (policy.holds world)) =
      candidates.filter (policy.mayDelete world mode overrideDays) := by
  rw [due_eq_filter, List.filter_filter]
  refine List.filter_congr fun row _ ↦ ?_
  rw [mayDelete, Bool.and_comm]

/-- `deletable` picks the candidates that may be deleted, and changes nothing. -/
theorem eval_deletable (houtcomes : Unhindered outcomes) (candidates : List Recording)
    (mode : PurgeMode) (overrideDays : Option ℤ) (world : World) :
    eval answer outcomes (policy.deletable candidates mode overrideDays) world =
      (.ok (candidates.filter (policy.mayDelete world mode overrideDays)), world) := by
  unfold deletable
  simp only [call, bind_eq, request_bind]
  rw [houtcomes.eval_await (by simp), show answer .clockNow .ok world = (world.now, world) from rfl,
    ← due_filter_holds]
  split_ifs with hempty
  · rw [List.isEmpty_iff.mp hempty]
    rfl
  · rw [eval_bind_of_ok answer outcomes (policy.eval_holdWindows houtcomes _ world)]
    simp only [pure_eq, eval_done, Prod.mk.injEq, Except.ok.injEq, and_true]
    exact List.filter_congr fun row hrow ↦ by rw [policy.overlapsAny_span world hrow]

theorem holdWindows_asks (segments : List Recording) :
    (policy.holdWindows segments).Uses (Call.asksHolds · = true) := by
  unfold holdWindows
  refine Uses.bind (Uses.request rfl) fun first ↦ ?_
  cases first
  all_goals
    refine Uses.bind (Uses.request rfl) fun _ ↦ Uses.bind Uses.orThrow fun _ ↦ ?_
    refine Uses.bind (Uses.request rfl) fun _ ↦ Uses.bind Uses.orThrow fun _ ↦ ?_
    trivial

theorem deletable_asks (candidates : List Recording) (mode : PurgeMode) (overrideDays : Option ℤ) :
    (policy.deletable candidates mode overrideDays).Uses (Call.asksHolds · = true) := by
  unfold deletable
  refine Uses.bind (Uses.request rfl) fun now ↦ ?_
  dsimp only
  split_ifs
  · trivial
  · exact Uses.bind (policy.holdWindows_asks _) fun windows ↦ trivial

theorem deletable_consults (candidates : List Recording) (mode : PurgeMode)
    (overrideDays : Option ℤ) :
    (policy.deletable candidates mode overrideDays).Uses (Call.consults · = true) :=
  (policy.deletable_asks candidates mode overrideDays).mono fun _ ↦ Call.consults_of_asksHolds

theorem deletable_uses (candidates : List Recording) (mode : PurgeMode)
    (overrideDays : Option ℤ) :
    (policy.deletable candidates mode overrideDays).Uses (Call.harmless · = true) :=
  (policy.deletable_consults _ _ _).mono fun _ ↦ Call.harmless_of_consults

theorem protectedBytes_asks : policy.protectedBytes.Uses (Call.asksHolds · = true) := by
  unfold protectedBytes
  refine Uses.bind (policy.holdWindows_asks []) fun windows ↦ ?_
  refine Uses.bind (Uses.request rfl) fun _ ↦ Uses.bind Uses.orThrow fun held ↦ ?_
  trivial

theorem protectedBytes_uses : policy.protectedBytes.Uses (Call.consults · = true) :=
  policy.protectedBytes_asks.mono fun _ ↦ Call.consults_of_asksHolds

end RetentionPolicy

/-! ### Metrics -/

namespace StorageController

variable (controller : StorageController)

theorem statfsUpwards_reads (dir : Path) (depth : ℕ) :
    (statfsUpwards dir depth).Uses (Call.isReading · = true) := by
  induction depth with
  | zero =>
    refine Uses.bind (Uses.request rfl) fun reply ↦ ?_
    cases reply <;> trivial
  | succ depth ih =>
    refine Uses.bind (Uses.request rfl) fun reply ↦ ?_
    cases reply with
    | ok stats => trivial
    | error err => exact ih

theorem statfsUpwards_uses (dir : Path) (depth : ℕ) :
    (statfsUpwards dir depth).Uses (Call.consults · = true) :=
  (statfsUpwards_reads dir depth).mono fun _ ↦ Call.consults_of_isReading

theorem emitSome_uses {allowed : Call → Prop} {event : Option BusEvent}
    (hevent : ∀ emitted ∈ event, allowed (.emitEvent emitted)) :
    (emitSome event).Uses allowed := by
  cases event with
  | none => trivial
  | some emitted => exact Uses.request (hevent emitted rfl)

theorem getStorageMetrics_isMeasurement :
    controller.getStorageMetrics.Uses (Call.isMeasurement · = true) := by
  unfold getStorageMetrics
  refine Uses.bind (Uses.request rfl) fun _ ↦ ?_
  refine Uses.bind (Uses.catching (Uses.bind ?_ fun _ ↦ ?_) fun _ ↦ ?_) fun reading ↦ ?_
  · exact (statfsUpwards_reads _ _).mono fun _ ↦ Call.isMeasurement_of_isReading
  · trivial
  · trivial
  refine Uses.bind (Uses.catching ?_ fun _ ↦ ?_) fun protectedBytes ↦ ?_
  · exact controller.retention.protectedBytes_asks.mono fun _ ↦ Call.isMeasurement_of_asksHolds
  · trivial
  refine Uses.bind (Uses.bind (Uses.request rfl) fun reply ↦ ?_) fun canary ↦ ?_
  · cases reply <;> trivial
  refine Uses.bind (Uses.request rfl) fun previousStatus ↦ ?_
  refine Uses.bind (emitSome_uses fun event hevent ↦ ?_) fun _ ↦ ?_
  · split_ifs at hevent <;> cases hevent
    rfl
  refine Uses.bind (Uses.request rfl) fun protectedOverflow ↦ ?_
  refine Uses.bind (emitSome_uses fun event hevent ↦ ?_) fun _ ↦ ?_
  · split_ifs at hevent <;> cases hevent <;> rfl
  refine Uses.bind (Uses.request rfl) fun _ ↦ ?_
  trivial

theorem getStorageMetrics_uses :
    controller.getStorageMetrics.Uses (Call.harmless · = true) :=
  controller.getStorageMetrics_isMeasurement.mono fun _ ↦ Call.harmless_of_isMeasurement

/-- What `statfsUpwards` reads off a volume. -/
def reading (volume : Volume) (dir : Path) : ℕ → Option DiskStats
  | 0 => volume.statfs.lookup []
  | depth + 1 =>
    match volume.statfs.lookup (dir.take (depth + 1)) with
    | some stats => some stats
    | none => reading volume dir depth

/-- The reading of the recordings root; `none` when the mount is missing. -/
def rootReading (volume : Volume) : Option DiskStats :=
  reading volume controller.recordingsRoot controller.recordingsRoot.length

/-- The used percentage of a volume, 0 when the mount is missing. -/
def usedPercentOf (volume : Volume) : ℕ :=
  let stats := (controller.rootReading volume).getD noReading
  percentOf (stats.blocks * stats.bsize - stats.bfree * stats.bsize) (stats.blocks * stats.bsize)

/-- The health of a volume. -/
def volumeHealth (volume : Volume) : StorageHealthStatus :=
  controller.healthStatus (controller.rootReading volume).isNone volume.canaryLatencyMs
    (controller.usedPercentOf volume)

section Metrics

variable {policy : Call → World → Outcome}

theorem eval_statfsUpwards (hpolicy : Unhindered policy) (dir : Path) (depth : ℕ)
    (world : World) :
    (∃ stats, reading world.volume dir depth = some stats ∧
        eval answer policy (statfsUpwards dir depth) world = (.ok stats, world)) ∨
      reading world.volume dir depth = none ∧
        ∃ error, eval answer policy (statfsUpwards dir depth) world = (.error error, world) := by
  induction depth with
  | zero =>
    unfold statfsUpwards reading
    simp only [call, bind_eq, request_bind]
    rw [hpolicy.eval_await (by simp)]
    cases hlookup : world.volume.statfs.lookup [] with
    | some stats =>
      simp only [answer, World.answerStatfs, hlookup, pure_eq, eval_done]
      exact Or.inl ⟨stats, rfl, rfl⟩
    | none =>
      simp only [answer, World.answerStatfs, hlookup, eval_failed]
      exact Or.inr ⟨trivial, _, rfl⟩
  | succ depth ih =>
    unfold statfsUpwards reading
    simp only [call, bind_eq, request_bind]
    rw [hpolicy.eval_await (by simp)]
    cases hlookup : world.volume.statfs.lookup (dir.take (depth + 1)) with
    | some stats =>
      simp only [answer, World.answerStatfs, hlookup, pure_eq, eval_done]
      exact Or.inl ⟨stats, rfl, rfl⟩
    | none =>
      simp only [answer, World.answerStatfs, hlookup]
      exact ih

theorem eval_calculateProtectedBytes (hpolicy : Unhindered policy) (world : World) :
    ∃ bytes, eval answer policy controller.calculateProtectedBytes world = (.ok bytes, world) := by
  unfold calculateProtectedBytes RetentionPolicy.protectedBytes
  rw [eval_catching, bind_eq, eval_bind_of_ok answer policy
    (controller.retention.eval_holdWindows hpolicy [] world)]
  simp only [call, bind_eq, request_bind]
  rw [hpolicy.eval_await (by simp)]
  exact ⟨_, rfl⟩

theorem eval_runWriteCanary (hpolicy : Unhindered policy) (world : World) :
    eval answer policy runWriteCanary world = (.ok world.volume.canaryLatencyMs, world) := by
  unfold runWriteCanary
  simp only [call, bind_eq, request_bind]
  rw [hpolicy.eval_await (by simp)]
  cases hcanary : world.volume.canaryLatencyMs <;>
    simp [answer, World.answerCanary, hcanary]

/-- The reading that `getStorageMetrics` begins with. -/
theorem eval_mountReading (hpolicy : Unhindered policy) (world : World) :
    eval answer policy (catching
        ((statfsNearestExisting controller.recordingsRoot).bind fun stats ↦ done (false, stats))
        fun _ ↦ done (true, noReading)) world =
      (.ok ((controller.rootReading world.volume).isNone,
        (controller.rootReading world.volume).getD noReading), world) := by
  unfold rootReading statfsNearestExisting
  rcases eval_statfsUpwards hpolicy controller.recordingsRoot controller.recordingsRoot.length
    world with ⟨stats, hreading, heval⟩ | ⟨hreading, error, heval⟩
  · rw [eval_catching, eval_bind, heval, hreading]
    rfl
  · rw [eval_catching, eval_bind, heval, hreading]
    rfl

theorem eval_emitSome (hpolicy : Unhindered policy) (event : Option BusEvent) (world : World) :
    ∃ reached, eval answer policy (emitSome event) world = (.ok (), reached) := by
  cases event with
  | none => exact ⟨world, rfl⟩
  | some event =>
    have hemit : eval answer policy (emitSome (some event)) world =
        eval answer policy (await (.emitEvent event) done) world := rfl
    rw [hemit, hpolicy.eval_await (by simp)]
    exact ⟨_, rfl⟩

/-- What `getStorageMetrics` reports is the state of the volume. -/
theorem eval_getStorageMetrics (hpolicy : Unhindered policy) (world : World) :
    ∃ metrics reached, eval answer policy controller.getStorageMetrics world =
        (.ok metrics, reached) ∧ Undisturbed world reached ∧
      metrics.usedPercent = controller.usedPercentOf world.volume ∧
      metrics.healthStatus = controller.volumeHealth world.volume := by
  obtain ⟨bytes, hbytes⟩ := controller.eval_calculateProtectedBytes hpolicy world
  have hmetrics : ∃ reached, eval answer policy controller.getStorageMetrics world =
      (.ok (controller.metricsOf (controller.rootReading world.volume).isNone
        ((controller.rootReading world.volume).getD noReading) bytes
        world.volume.canaryLatencyMs), reached) := by
    unfold getStorageMetrics
    simp only [call, bind_eq, request_bind, pure_eq]
    rw [hpolicy.eval_await (by simp), show answer (.mkdir controller.recordingsRoot) .ok world =
      ((), world) from rfl,
      eval_bind_of_ok answer policy (controller.eval_mountReading hpolicy world),
      eval_bind_of_ok answer policy hbytes,
      eval_bind_of_ok answer policy (eval_runWriteCanary hpolicy world),
      hpolicy.eval_await (by simp)]
    obtain ⟨announced, hannounced⟩ := eval_emitSome hpolicy _ _
    rw [eval_bind_of_ok answer policy hannounced, hpolicy.eval_await (by simp)]
    obtain ⟨alerted, halerted⟩ := eval_emitSome hpolicy _ _
    rw [eval_bind_of_ok answer policy halerted, hpolicy.eval_await (by simp)]
    exact ⟨_, rfl⟩
  obtain ⟨reached, heval⟩ := hmetrics
  have hundisturbed := controller.getStorageMetrics_uses.eval policy
    (fun call outcome reached hharmless hreached ↦
      Undisturbed.answer call outcome reached hharmless hreached) (Undisturbed.refl world)
  rw [heval] at hundisturbed
  exact ⟨_, reached, heval, hundisturbed, rfl, rfl⟩

/-- Whether a rollover goes on. -/
theorem eval_aboveTarget (hpolicy : Unhindered policy) (world : World) :
    ∃ reached, eval answer policy controller.aboveTarget world =
        (.ok (controller.targetThresholdPercent < controller.usedPercentOf world.volume : Bool),
          reached) ∧ Undisturbed world reached := by
  obtain ⟨metrics, reached, heval, hundisturbed, hused, -⟩ :=
    controller.eval_getStorageMetrics hpolicy world
  unfold aboveTarget
  rw [bind_eq, eval_bind_of_ok answer policy heval, hused]
  exact ⟨reached, rfl, hundisturbed⟩

end Metrics

end StorageController

/-! ### Deletions -/

/-- What a purge without failures does to the store: rows go only with their files, no file
appears, and nothing that decides what may be deleted changes. -/
structure Purged (before after : World) : Prop where
  bookmarks : after.bookmarks = before.bookmarks
  exportJobs : after.exportJobs = before.exportJobs
  volume : after.volume = before.volume
  now : after.now = before.now
  no_file_appears : ∀ path, after.onDisk path = true → before.onDisk path = true
  file_gone : ∀ row ∈ before.recordings.rows, row ∉ after.recordings.rows →
    after.onDisk row.filePath = false

theorem Purged.of_undisturbed {before after : World} (hundisturbed : Undisturbed before after) :
    Purged before after where
  bookmarks := hundisturbed.bookmarks
  exportJobs := hundisturbed.exportJobs
  volume := hundisturbed.volume
  now := hundisturbed.now
  no_file_appears := fun path hpath ↦ by
    rw [World.onDisk, ← hundisturbed.files]
    exact hpath
  file_gone := fun row hrow hgone ↦ absurd (by rw [hundisturbed.recordings]; exact hrow) hgone

theorem Purged.trans {first second third : World} (hfirst : Purged first second)
    (hsecond : Purged second third) : Purged first third where
  bookmarks := hsecond.bookmarks.trans hfirst.bookmarks
  exportJobs := hsecond.exportJobs.trans hfirst.exportJobs
  volume := hsecond.volume.trans hfirst.volume
  now := hsecond.now.trans hfirst.now
  no_file_appears := fun path hpath ↦
    hfirst.no_file_appears path (hsecond.no_file_appears path hpath)
  file_gone := by
    intro row hrow hgone
    by_cases hmiddle : row ∈ second.recordings.rows
    · exact hsecond.file_gone row hmiddle hgone
    · have habsent := hfirst.file_gone row hrow hmiddle
      rw [← Bool.not_eq_true] at habsent ⊢
      exact fun hdisk ↦ habsent (hsecond.no_file_appears _ hdisk)

/-- What decides whether a row may be deleted does not change in a purge. -/
theorem Purged.mayDelete {before after : World} (hpurged : Purged before after)
    (policy : RetentionPolicy) (mode : PurgeMode) (overrideDays : Option ℤ) (row : Recording) :
    policy.mayDelete after mode overrideDays row =
      policy.mayDelete before mode overrideDays row := by
  unfold RetentionPolicy.mayDelete RetentionPolicy.holds
  rw [hpurged.bookmarks, hpurged.exportJobs, hpurged.now]

/-- Deleting a row that is there. -/
theorem eval_tryDeleteRecording {policy : Call → World → Outcome} (hpolicy : Unhindered policy)
    {world : World} {id : RecordingId} (hfind : (world.recordings.find id).isSome = true) :
    eval answer policy (tryDeleteRecording id) world =
      (.ok (.ok ()), world.removeRows fun row ↦ row.id = id) := by
  have hanswer : answer (.deleteRecording id) .ok world =
      (.ok (), world.removeRows fun row ↦ row.id = id) := if_pos hfind
  have hcall : tryDeleteRecording id = await (Call.deleteRecording id) done := rfl
  rw [hcall, hpolicy.eval_await (by simp), hanswer]
  rfl

theorem eval_deleteRecording {policy : Call → World → Outcome} (hpolicy : Unhindered policy)
    {world : World} {id : RecordingId} (hfind : (world.recordings.find id).isSome = true) :
    eval answer policy (deleteRecording id) world =
      (.ok (), world.removeRows fun row ↦ row.id = id) := by
  unfold deleteRecording
  rw [bind_eq, eval_bind_of_ok answer policy (eval_tryDeleteRecording hpolicy hfind)]
  rfl

/-- A row without a file goes. -/
theorem Purged.removeRow {before unlinked : World} {segment : Recording} {patch : RowPatch}
    (hsegment : segment ∈ before.recordings.rows)
    (hrows : unlinked.recordings = before.recordings.update segment.id patch)
    (hbookmarks : unlinked.bookmarks = before.bookmarks)
    (hexports : unlinked.exportJobs = before.exportJobs)
    (hvolume : unlinked.volume = before.volume) (hnow : unlinked.now = before.now)
    (hfiles : ∀ path, unlinked.onDisk path = true → before.onDisk path = true)
    (hgone : unlinked.onDisk segment.filePath = false) :
    Purged before (unlinked.removeRows fun row ↦ row.id = segment.id) ∧
      (unlinked.removeRows fun row ↦ row.id = segment.id).recordings.rows =
        before.recordings.rows.filter fun row ↦ row.id ≠ segment.id := by
  have hleft : (unlinked.removeRows fun row ↦ row.id = segment.id).recordings.rows =
      before.recordings.rows.filter fun row ↦ row.id ≠ segment.id := by
    unfold World.removeRows
    rw [hrows]
    exact before.recordings.rows_remove_update segment.id patch
  refine ⟨⟨hbookmarks, hexports, hvolume, hnow, hfiles, fun row hrow hremoved ↦ ?_⟩, hleft⟩
  have hsame : row = segment := by
    by_contra hne
    rw [hleft, List.mem_filter] at hremoved
    exact hremoved ⟨hrow, by
      simpa using fun hid ↦ hne (RecordingTable.eq_of_id_eq hrow hsegment hid)⟩
  rw [hsame]
  exact hgone

/-- Without failures, a deletion of a catalogued segment under the root deletes row and file. -/
theorem eval_deleteSegmentInternal {recordingsRoot : Path} {world : World} {segment : Recording}
    (hsegment : segment ∈ world.recordings.rows)
    (hroot : isWithinRoot recordingsRoot segment.filePath = true) (reportedSize : ℕ) :
    ∃ result reached, eval answer calm
        (deleteSegmentInternal recordingsRoot segment.id segment.filePath reportedSize) world =
          (.ok result, reached) ∧ result.success = true ∧ Purged world reached ∧
        reached.recordings.rows = world.recordings.rows.filter fun row ↦ row.id ≠ segment.id := by
  have hfind := RecordingTable.find_update_isSome hsegment
    { status := some .deletePending, errorReason := some none }
  unfold deleteSegmentInternal
  rw [if_pos hroot]
  simp only [updateRecordingStatus, fsUnlinkFn, call, bind_eq, request_bind, eval_await, calm,
    answer, World.answerUpdate, Outcome.passes, if_true]
  by_cases hdisk : world.onDisk segment.filePath = true
  · have hunlink : (world.updateRow segment.id
        { status := some .deletePending, errorReason := some none }).answerUnlink
          segment.filePath .ok = (.ok (), (world.updateRow segment.id
        { status := some .deletePending, errorReason := some none }).removeFile
          segment.filePath) := if_pos hdisk
    rw [hunlink]
    simp only
    rw [eval_bind_of_ok answer calm (eval_tryDeleteRecording calm_unhindered hfind)]
    exact ⟨_, _, rfl, rfl, Purged.removeRow hsegment rfl rfl rfl rfl rfl
      (fun path hpath ↦ (World.onDisk_removeFile.mp hpath).2) (World.not_onDisk_removeFile _)⟩
  · have hunlink : (world.updateRow segment.id
        { status := some .deletePending, errorReason := some none }).answerUnlink
          segment.filePath .ok = (.error (World.noSuchFile "unlink" segment.filePath),
            world.updateRow segment.id
              { status := some .deletePending, errorReason := some none }) := if_neg hdisk
    rw [hunlink]
    simp only [World.noSuchFile, if_true]
    rw [eval_bind_of_ok answer calm (eval_deleteRecording calm_unhindered hfind)]
    exact ⟨_, _, rfl, rfl, Purged.removeRow hsegment rfl rfl rfl rfl rfl
      (fun path hpath ↦ hpath) (Bool.not_eq_true _ ▸ hdisk)⟩

end VmsLite.Recordings
