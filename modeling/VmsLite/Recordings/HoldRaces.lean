import VmsLite.Async.Renewal
import VmsLite.Recordings.HeldFootage

/-!
# Holds that arrive while a purge runs

`deleteOldestSegments` reads a batch, asks the retention policy which of its segments are on no
hold, and then deletes those one by one, with several awaited calls for each. A bookmark or an
export that is committed in between is not seen before the next batch.
`holdsTakeEffect_of_asksAgain` says that this is the only way to lose a hold: a hold committed while
the purge will ask for holds of its kind before it unlinks any segment in its window takes effect,
whatever else is committed and whatever fails.
-/

set_option autoImplicit false

namespace VmsLite.Recordings

open VmsLite.Async Program

/-! ### Commits -/

/-- A hold that is about to be committed. -/
inductive Hold
  | bookmark (placed : Bookmark)
  | queuedExport (job : ExportJob)

namespace Hold

/-- What committing a hold does; `createExportJob` persists the job as QUEUED. -/
def commit : Hold → EnvironmentChange
  | .bookmark placed => .createBookmark placed
  | .queuedExport job => .persistExport { job with status := .queued }

/-- The footage a hold keeps. -/
def window (bookmarkWindowMs : ℤ) : Hold → Window
  | .bookmark placed =>
    RetentionPolicy.bookmarkWindow { bookmarkWindowMs := bookmarkWindowMs } placed
  | .queuedExport job => RetentionPolicy.exportWindow job

/-- Whether a hold is in the database. -/
def committed : Hold → World → Prop
  | .bookmark placed, world => placed ∈ world.bookmarks
  | .queuedExport job, world => { job with status := .queued } ∈ world.exportJobs

/-- The query that reads the holds of a kind. -/
def asks : Hold → Call → Prop
  | .bookmark _, .findBookmarks .. => True
  | .queuedExport _, .findActiveExports => True
  | _, _ => False

end Hold

/-- What happens around a purge: bookmarks and QUEUED exports are committed, and time passes. -/
def CommittedMeanwhile (before after : World) : Prop :=
  ∃ (bookmarks : List Bookmark) (exportJobs : List ExportJob) (ms : ℕ),
    (∀ job ∈ exportJobs, job.status = .queued) ∧
      after = { before with
        bookmarks := before.bookmarks ++ bookmarks
        exportJobs := before.exportJobs ++ exportJobs
        now := before.now + ms }

/-- The moves of one purge and of the commits around it, with a condition on the commits. Nothing
happens between two calls of which the first only touches the memory of the process. -/
def raceTurns (condition : Hold → Async Unit → World → Prop)
    (state : Turn Call Reply Failure World) :
    TurnMove Call Reply Failure Outcome EnvironmentChange → Prop
  | .start _ => False
  | .advance _ => True
  | .crash => True
  | .environment event => state.current.isSuspended synchronous = true ∧
      ((∃ hold : Hold, event = hold.commit ∧ condition hold state.current state.world) ∨
        ∃ ms, event = .clockAdvances ms)

/-- Whether a hold that is committed now has to keep a segment. -/
def Hold.MustKeep (bookmarkWindowMs : ℤ) (hold : Hold) (world : World) (row : Recording) : Prop :=
  row ∈ world.recordings.rows ∧ row.status = .available ∧
    overlapsWindow row (hold.window bookmarkWindowMs) = true ∧ world.onDisk row.filePath = true

/-- Once a hold is committed, no AVAILABLE segment in its window is unlinked later in the purge. -/
def HoldsTakeEffect (bookmarkWindowMs : ℤ) (condition : Hold → Async Unit → World → Prop)
    (initial : World) : Prop :=
  ∀ purge, PurgeRun bookmarkWindowMs purge → ∀ state,
    Reaches machine.turn (raceTurns condition) { current := purge, world := initial } state →
      ∀ hold : Hold, state.current.isSuspended synchronous = true →
        condition hold state.current state.world →
          ∀ row, hold.MustKeep bookmarkWindowMs state.world row → ∀ later,
            Reaches machine.turn (raceTurns condition)
              (machine.turn state (.environment hold.commit)) later →
                later.world.onDisk row.filePath = true

/-- Where a hold is committed, the purge asks for holds of its kind before it unlinks a segment that
the hold has to keep. -/
def AsksAgain (bookmarkWindowMs : ℤ) (hold : Hold) (program : Async Unit) (world : World) : Prop :=
  ∀ row, hold.MustKeep bookmarkWindowMs world row →
    program.AsksFirst answer CommittedMeanwhile hold.asks (· = .unlink row.filePath) world

theorem CommittedMeanwhile.refl (world : World) : CommittedMeanwhile world world :=
  ⟨[], [], 0, fun _ hjob ↦ absurd hjob List.not_mem_nil, by simp⟩

theorem CommittedMeanwhile.trans (first second third : World)
    (hfirst : CommittedMeanwhile first second) (hsecond : CommittedMeanwhile second third) :
    CommittedMeanwhile first third := by
  obtain ⟨bookmarks, exportJobs, ms, hqueued, rfl⟩ := hfirst
  obtain ⟨bookmarks', exportJobs', ms', hqueued', rfl⟩ := hsecond
  refine ⟨bookmarks ++ bookmarks', exportJobs ++ exportJobs', ms + ms', fun job hjob ↦ ?_, ?_⟩
  · exact (List.mem_append.mp hjob).elim (hqueued job) (hqueued' job)
  · simp only [List.append_assoc, Int.natCast_add, Int.add_assoc]

theorem Hold.committed_meanwhile {hold : Hold} {before after : World}
    (hmeanwhile : CommittedMeanwhile before after) (hcommitted : hold.committed before) :
    hold.committed after := by
  obtain ⟨bookmarks, exportJobs, ms, -, rfl⟩ := hmeanwhile
  cases hold with
  | bookmark placed => exact List.mem_append_left _ hcommitted
  | queuedExport job => exact List.mem_append_left _ hcommitted

theorem Hold.committed_react (hold : Hold) (world : World) :
    hold.committed (react hold.commit world) := by
  cases hold with
  | bookmark placed => exact List.mem_append_right _ (List.mem_singleton.mpr rfl)
  | queuedExport job => exact List.mem_append_right _ (List.mem_singleton.mpr rfl)

theorem Hold.meanwhile_react (hold : Hold) (world : World) :
    CommittedMeanwhile world (react hold.commit world) := by
  cases hold with
  | bookmark placed =>
    exact ⟨[placed], [], 0, fun _ hjob ↦ absurd hjob List.not_mem_nil, by simp [commit, react]⟩
  | queuedExport job =>
    refine ⟨[], [{ job with status := .queued }], 0, fun other hother ↦ ?_, by simp [commit, react]⟩
    rw [List.mem_singleton.mp hother]

/-! ### What a purge knows of a hold -/

/-- The rows of a world come from those of another. -/
def Descends (origin world : World) : Prop :=
  ∀ row ∈ world.recordings.rows, ∃ old ∈ origin.recordings.rows, SameSegment old row

theorem Descends.refl (world : World) : Descends world world :=
  fun row hrow ↦ ⟨row, hrow, SameSegment.refl row⟩

theorem Descends.step {spared : Path → Prop} {origin before after : World}
    (hdescends : Descends origin before) (hstep : Spares spared before after) :
    Descends origin after := by
  intro row hrow
  obtain ⟨middle, hmiddle, hsame⟩ := hstep.rows row hrow
  obtain ⟨old, hold, hsame'⟩ := hdescends middle hmiddle
  exact ⟨old, hold, hsame'.trans hsame⟩

/-- What a purge that started in `origin` knows: its rows come from there, and a hold that it has
asked for since the commit is in the database. In a stretch that does not ask, it has asked at most
if it had before. -/
structure Informed (origin : World) (hold : Hold) (bound renewed : Prop) (world : World) :
    Prop where
  rows : Descends origin world
  committed : renewed → hold.committed world
  bounded : renewed → bound

/-- A purge heeds a hold: once it has asked, it spares the file of the target. -/
def Heeds (origin : World) (hold : Hold) (target : Recording) (bound : Prop) {α : Type}
    (program : Async α) (post : Prop → α → Prop) (renewed : Prop) (world : World) : Prop :=
  program.Careful answer CommittedMeanwhile
    (fun renewed ↦ Spares fun path ↦ renewed ∧ path = target.filePath)
    (fun call world ↦ hold.asks call ∧ hold.committed world)
    (fun renewed value world ↦ Informed origin hold bound renewed world ∧ post renewed value)
    (fun renewed _ world ↦ Informed origin hold bound renewed world) renewed world

section Heeds

variable {origin world : World} {hold : Hold} {target : Recording} {bound renewed : Prop}
  {α β : Type}

theorem Informed.meanwhile {before after : World} (hmeanwhile : CommittedMeanwhile before after)
    (hinformed : Informed origin hold bound renewed before) :
    Informed origin hold bound renewed after where
  rows := by
    obtain ⟨bookmarks, exportJobs, ms, -, rfl⟩ := hmeanwhile
    exact hinformed.rows
  committed := fun hrenewed ↦ Hold.committed_meanwhile hmeanwhile (hinformed.committed hrenewed)
  bounded := hinformed.bounded

theorem Hold.committed_spares {spared : Path → Prop} {before after : World}
    (hstep : Spares spared before after) (hcommitted : hold.committed before) :
    hold.committed after := by
  cases hold with
  | bookmark placed =>
    rw [Hold.committed, hstep.bookmarks]
    exact hcommitted
  | queuedExport job =>
    rw [Hold.committed, hstep.exportJobs]
    exact hcommitted

/-- A call keeps what a purge knows, when it asks only where the stretch may ask. -/
theorem Informed.call {spared : Path → Prop} {before after : World} {asked : Prop}
    (hinformed : Informed origin hold bound renewed before) (hstep : Spares spared before after)
    (hasked : asked → bound) :
    Informed origin hold bound (renewed ∨ asked ∧ hold.committed before) after where
  rows := hinformed.rows.step hstep
  committed := fun hrenewed ↦ Hold.committed_spares hstep
    (hrenewed.elim hinformed.committed And.right)
  bounded := fun hrenewed ↦ hrenewed.elim hinformed.bounded fun hnew ↦ hasked hnew.1

theorem Heeds.bind {program : Async α} {rest : α → Async β} {middle : Prop → α → Prop}
    {post : Prop → β → Prop}
    (hfirst : Heeds origin hold target bound program middle renewed world)
    (hrest : ∀ renewed value reached, Informed origin hold bound renewed reached →
      middle renewed value → Heeds origin hold target bound (rest value) post renewed reached) :
    Heeds origin hold target bound (program.bind rest) post renewed world :=
  Careful.bind hfirst fun renewed value reached hreached ↦
    hrest renewed value reached hreached.1 hreached.2

theorem Heeds.done {value : α} {post : Prop → α → Prop}
    (hinformed : Informed origin hold bound renewed world) (hpost : post renewed value) :
    Heeds origin hold target bound (Program.done value) post renewed world :=
  ⟨hinformed, hpost⟩

theorem Heeds.orThrow {reply : Except Failure α} {post : Prop → α → Prop}
    (hinformed : Informed origin hold bound renewed world)
    (hpost : ∀ value, reply = .ok value → post renewed value) :
    Heeds origin hold target bound (Program.orThrow reply) post renewed world :=
  Careful.orThrow (fun value hreply ↦ ⟨hinformed, hpost value hreply⟩) fun _ _ ↦ hinformed

/-- A query whose error is thrown. -/
theorem Heeds.bind_orThrow {query : Async (Except Failure α)} {rest : α → Async β}
    {middle : Prop → Except Failure α → Prop} {post : Prop → β → Prop}
    (hquery : Heeds origin hold target bound query middle renewed world)
    (hrest : ∀ renewed value reached, Informed origin hold bound renewed reached →
      middle renewed (.ok value) →
        Heeds origin hold target bound (rest value) post renewed reached) :
    Heeds origin hold target bound
      (query.bind fun reply ↦ (Program.orThrow reply).bind rest) post renewed world := by
  refine Heeds.bind hquery ?_
  rintro renewed (error | value) reached hreached hmiddle
  · exact hreached
  · exact hrest renewed value reached hreached hmiddle

theorem Heeds.catching {program : Async α} {handler : Failure → Async α} {post : Prop → α → Prop}
    (hbody : Heeds origin hold target bound program post renewed world)
    (hhandler : ∀ renewed error reached, Informed origin hold bound renewed reached →
      Heeds origin hold target bound (handler error) post renewed reached) :
    Heeds origin hold target bound (program.catching handler) post renewed world :=
  Careful.catching (fun renewed _ reached ↦ Informed origin hold bound renewed reached) hbody
    hhandler

theorem Heeds.foldlM {items : List α} {body : β → α → Async β}
    (hbody : ∀ renewed total, ∀ item ∈ items, ∀ reached,
      Informed origin hold bound renewed reached →
        Heeds origin hold target bound (body total item) (fun _ _ ↦ True) renewed reached)
    {total : β} (hinformed : Informed origin hold bound renewed world) :
    Heeds origin hold target bound (items.foldlM body total) (fun _ _ ↦ True) renewed world :=
  Careful.foldlM (fun renewed _ reached ↦ Informed origin hold bound renewed reached ∧ True)
    (fun renewed total item hitem reached hreached ↦
      hbody renewed total item hitem reached hreached.1) ⟨hinformed, trivial⟩

/-- One query and what its answer says. -/
theorem Heeds.query {request : Call} {post : Prop → Reply request → Prop}
    (hharmless : request.harmless = true) (hasks : hold.asks request → bound)
    (hpost : ∀ outcome later, Informed origin hold bound renewed later →
      post (renewed ∨ hold.asks request ∧ hold.committed later) (answer request outcome later).1)
    (hinformed : Informed origin hold bound renewed world) :
    Heeds origin hold target bound (call request) post renewed world := by
  intro later hlater outcome
  have hlater := hinformed.meanwhile hlater
  have hstep : Spares (fun path ↦ renewed ∧ path = target.filePath) later
      (answer request outcome later).2 := by
    refine Spares.answer (Or.inl hharmless) ?_ outcome later
    rintro path rfl
    cases hharmless
  exact ⟨hstep, hlater.call hstep hasks, hpost outcome later hlater⟩

/-- A program that unlinks nothing heeds every hold. -/
theorem Heeds.of_uses {program : Async α}
    (huses : program.Uses fun call ↦ (call.harmless = true ∨ call.deletes = true) ∧
      (∀ path, call ≠ .unlink path) ∧ (hold.asks call → bound))
    (hinformed : Informed origin hold bound renewed world) :
    Heeds origin hold target bound program (fun _ _ ↦ True) renewed world := by
  refine Careful.mono (Careful.of_uses (Informed origin hold bound) huses
    (fun _ _ _ hmeanwhile hknown ↦ hknown.meanwhile hmeanwhile) ?_ hinformed)
    (fun _ _ _ hpost ↦ ⟨hpost, trivial⟩) fun _ _ _ hthrown ↦ hthrown
  intro call renewed outcome world hcall hknown
  have hstep : Spares (fun path ↦ renewed ∧ path = target.filePath) world
      (answer call outcome world).2 := Spares.answer hcall.1 hcall.2.1 outcome world
  exact ⟨hstep, hknown.call hstep hcall.2.2⟩

/-- A program that only reads heeds every hold. -/
theorem Heeds.of_harmless {program : Async α} (huses : program.Uses (Call.harmless · = true))
    (hinformed : Informed origin hold True renewed world) :
    Heeds origin hold target True program (fun _ _ ↦ True) renewed world := by
  refine Heeds.of_uses (huses.mono fun call hharmless ↦ ⟨Or.inl hharmless, ?_, fun _ ↦ trivial⟩)
    hinformed
  rintro path rfl
  cases hharmless

end Heeds

/-! ### Deleting a batch -/

section Deletion

variable {origin world : World} {hold : Hold} {target : Recording} {bound renewed : Prop}

/-- No call of a deletion asks for holds. -/
theorem Hold.not_asks_of_deletes {call : Call} (hdeletes : call.deletes = true) :
    ¬ hold.asks call := by
  intro hasks
  cases call <;>
    first
    | exact absurd hdeletes Bool.false_ne_true
    | cases hold <;> exact hasks

/-- Deleting a segment other than the target, or one that is not below the root. -/
theorem deleteSegmentInternal_heeds {recordingsRoot path : Path} (id : RecordingId)
    (reportedSize : ℕ)
    (hpath : bound → isWithinRoot recordingsRoot path = true → path ≠ target.filePath)
    (hinformed : Informed origin hold bound renewed world) :
    Heeds origin hold target bound (deleteSegmentInternal recordingsRoot id path reportedSize)
      (fun _ _ ↦ True) renewed world := by
  have hmark : ∀ status reason renewed reached, Informed origin hold bound renewed reached →
      Heeds origin hold target bound (updateRecordingStatus id status reason) (fun _ _ ↦ True)
        renewed reached :=
    fun _ _ _ _ ↦ Heeds.of_uses (Uses.request ⟨Or.inr rfl, fun _ ↦ nofun,
      fun hasks ↦ absurd hasks (Hold.not_asks_of_deletes rfl)⟩)
  have hdelete : ∀ renewed reached, Informed origin hold bound renewed reached →
      Heeds origin hold target bound (tryDeleteRecording id) (fun _ _ ↦ True) renewed reached :=
    fun _ _ ↦ Heeds.of_uses (Uses.request ⟨Or.inr rfl, fun _ ↦ nofun,
      fun hasks ↦ absurd hasks (Hold.not_asks_of_deletes rfl)⟩)
  have hunlink : ∀ renewed reached, isWithinRoot recordingsRoot path = true →
      Informed origin hold bound renewed reached →
        Heeds origin hold target bound (fsUnlinkFn path) (fun _ _ ↦ True) renewed reached := by
    intro renewed reached hroot hinformed later hlater outcome
    have hlater := hinformed.meanwhile hlater
    have hstep : Spares (fun other ↦ renewed ∧ other = target.filePath) later
        (answer (.unlink path) outcome later).2 := by
      rcases World.answerUnlink_cases later path outcome with ⟨-, hanswer⟩ | ⟨error, hanswer, -⟩
      · simp only [answer, hanswer]
        exact Spares.removeFile later fun hspared ↦
          hpath (hlater.bounded hspared.1) hroot hspared.2
      · simp only [answer, hanswer]
        exact Spares.of_same rfl rfl rfl rfl
    exact ⟨hstep, hlater.call hstep fun hasks ↦
      absurd hasks (Hold.not_asks_of_deletes rfl), trivial⟩
  unfold deleteSegmentInternal
  split_ifs with hroot
  · refine Heeds.bind (hmark _ _ _ _ hinformed) fun renewed _ marked hmarked _ ↦ ?_
    refine Heeds.bind (hunlink _ _ hroot hmarked) ?_
    rintro renewed (error | _) unlinked hunlinked _
    · dsimp only
      split_ifs
      · refine Heeds.bind (Heeds.bind (hdelete _ _ hunlinked) fun _ _ _ hdeleted _ ↦
          Heeds.orThrow hdeleted fun _ _ ↦ trivial) fun _ (_ : Unit) _ hdeleted (_ : True) ↦ ?_
        exact Heeds.done hdeleted trivial
      · exact Heeds.bind (hmark _ _ _ _ hunlinked) fun _ _ _ hgarbage _ ↦
          Heeds.done hgarbage trivial
    · refine Heeds.bind (hdelete _ _ hunlinked) ?_
      rintro renewed (error | _) deleted hdeleted _
      · exact Heeds.bind (hmark _ _ _ _ hdeleted) fun _ _ _ hgarbage _ ↦
          Heeds.done hgarbage trivial
      · exact Heeds.done hdeleted trivial
  · exact hinformed

end Deletion

/-! ### Asking for holds -/

section Asking

variable {origin world : World} {hold : Hold} {target : Recording} {renewed : Prop}
  {bookmarkWindowMs : ℤ} {policy : RetentionPolicy} {segments : List Recording}

/-- A query for bookmarks finds the one that was committed, if it is near one of the segments. -/
def SeesBookmark (policy : RetentionPolicy) (hold : Hold) (segments : List Recording)
    (found : List Bookmark) : Prop :=
  ∀ placed, hold = .bookmark placed → ∀ segment ∈ segments,
    overlapsWindow segment (policy.bookmarkWindow placed) = true → placed ∈ found

/-- A query for exports finds the one that was committed. -/
def SeesExport (hold : Hold) (found : List ExportJob) : Prop :=
  ∀ job, hold = .queuedExport job → { job with status := .queued } ∈ found

/-- A query for bookmarks asks for a bookmark, and for no export. -/
theorem findBookmarks_heeds (hinformed : Informed origin hold True renewed world) :
    Heeds origin hold target True
      (call (.findBookmarks (policy.holdsFrom segments) (policy.holdsTo segments)))
      (fun renewed' reply ↦ (renewed' → renewed ∨ ∃ placed, hold = .bookmark placed) ∧
        ∀ found, reply = .ok found → renewed' → SeesBookmark policy hold segments found)
      renewed world := by
  refine Heeds.query rfl (fun _ ↦ trivial) (fun outcome later hlater ↦ ⟨?_, ?_⟩) hinformed
  · rintro (hrenewed | ⟨hasks, -⟩)
    · exact Or.inl hrenewed
    · cases hold with
      | bookmark placed => exact Or.inr ⟨placed, rfl⟩
      | queuedExport job => exact hasks.elim
  · rintro found hreply hrenewed placed rfl segment hsegment hoverlap
    have hcommitted := hrenewed.elim hlater.committed And.right
    rw [orFail_eq_ok hreply, List.mem_filter, Bool.and_eq_true, decide_eq_true_eq,
      decide_eq_true_eq]
    exact ⟨hcommitted, policy.bookmark_in_span hsegment hoverlap⟩

/-- A query for exports asks for an export, and for no bookmark. -/
theorem findActiveExports_heeds (hinformed : Informed origin hold True renewed world) :
    Heeds origin hold target True (call .findActiveExports)
      (fun renewed' reply ↦ (renewed' → renewed ∨ ∃ job, hold = .queuedExport job) ∧
        ∀ found, reply = .ok found → renewed' → SeesExport hold found) renewed world := by
  refine Heeds.query rfl (fun _ ↦ trivial) (fun outcome later hlater ↦ ⟨?_, ?_⟩) hinformed
  · rintro (hrenewed | ⟨hasks, -⟩)
    · exact Or.inl hrenewed
    · cases hold with
      | bookmark placed => exact hasks.elim
      | queuedExport job => exact Or.inr ⟨job, rfl⟩
  · rintro found hreply hrenewed job rfl
    have hcommitted := hrenewed.elim hlater.committed And.right
    rw [orFail_eq_ok hreply, List.mem_filter]
    exact ⟨hcommitted, rfl⟩

/-- The windows of what was found keep the segments in the window of the hold. -/
theorem overlapsAny_of_sees (hwindow : policy.bookmarkWindowMs = bookmarkWindowMs)
    {bookmarks : List Bookmark} {exportJobs : List ExportJob}
    (hbookmarks : SeesBookmark policy hold segments bookmarks)
    (hexports : SeesExport hold exportJobs) :
    ∀ segment ∈ segments, overlapsWindow segment (hold.window bookmarkWindowMs) = true →
      RetentionPolicy.overlapsAny segment (bookmarks.map policy.bookmarkWindow ++
        exportJobs.map RetentionPolicy.exportWindow) = true := by
  intro segment hsegment hoverlap
  rw [RetentionPolicy.overlapsAny, List.any_eq_true]
  cases hold with
  | bookmark placed =>
    have hsame : policy.bookmarkWindow placed =
        (Hold.bookmark placed).window bookmarkWindowMs := by
      rw [RetentionPolicy.bookmarkWindow, hwindow]
      rfl
    rw [← hsame] at hoverlap
    refine ⟨policy.bookmarkWindow placed, List.mem_append_left _ ?_, hoverlap⟩
    exact List.mem_map_of_mem (hbookmarks placed rfl segment hsegment hoverlap)
  | queuedExport job =>
    refine ⟨RetentionPolicy.exportWindow job, List.mem_append_right _ ?_, hoverlap⟩
    exact List.mem_map.mpr ⟨_, hexports job rfl, rfl⟩

/-- Once a purge has asked, the windows it finds say that the hold keeps what is in its window. -/
theorem holdWindows_heeds (hwindow : policy.bookmarkWindowMs = bookmarkWindowMs)
    (hinformed : Informed origin hold True renewed world) (segments : List Recording) :
    Heeds origin hold target True (policy.holdWindows segments)
      (fun renewed windows ↦ renewed → ∀ segment ∈ segments,
        overlapsWindow segment (hold.window bookmarkWindowMs) = true →
          RetentionPolicy.overlapsAny segment windows = true) renewed world := by
  unfold RetentionPolicy.holdWindows
  refine Heeds.bind (Heeds.of_harmless (Uses.request rfl) hinformed) ?_
  -- Whichever query is answered first, only the one for holds of this kind can be the asking one
  rintro renewed (_ | _) ordered hordered -
  · refine Heeds.bind_orThrow (findActiveExports_heeds hordered) ?_
    rintro first exportJobs listed hlisted ⟨-, hexports⟩
    refine Heeds.bind_orThrow (findBookmarks_heeds hlisted) ?_
    rintro second bookmarks found hfound ⟨hfirst, hbookmarks⟩
    refine Heeds.done hfound fun hsecond ↦ overlapsAny_of_sees hwindow
      (hbookmarks bookmarks rfl hsecond) fun job hjob ↦ ?_
    rcases hfirst hsecond with hrenewed | ⟨placed, hplaced⟩
    · exact hexports exportJobs rfl hrenewed job hjob
    · exact nomatch hplaced.symm.trans hjob
  · refine Heeds.bind_orThrow (findBookmarks_heeds hordered) ?_
    rintro first bookmarks found hfound ⟨-, hbookmarks⟩
    refine Heeds.bind_orThrow (findActiveExports_heeds hfound) ?_
    rintro second exportJobs listed hlisted ⟨hfirst, hexports⟩
    refine Heeds.done hlisted fun hsecond ↦ overlapsAny_of_sees hwindow
      (fun placed hplaced ↦ ?_) (hexports exportJobs rfl hsecond)
    rcases hfirst hsecond with hrenewed | ⟨job, hjob⟩
    · exact hbookmarks bookmarks rfl hrenewed placed hplaced
    · exact nomatch hjob.symm.trans hplaced

/-- Once a purge has asked, it lets go of nothing in the window of the hold. -/
theorem deletable_heeds (hwindow : policy.bookmarkWindowMs = bookmarkWindowMs)
    (hinformed : Informed origin hold True renewed world) (candidates : List Recording)
    (mode : PurgeMode) (overrideDays : Option ℤ) :
    Heeds origin hold target True (policy.deletable candidates mode overrideDays)
      (fun renewed deletable ↦ ∀ row ∈ deletable, row ∈ candidates ∧
        (renewed → overlapsWindow row (hold.window bookmarkWindowMs) = false)) renewed world := by
  unfold RetentionPolicy.deletable
  refine Heeds.bind (Heeds.of_harmless (Uses.request rfl) hinformed)
    fun _ now clocked hclocked _ ↦ ?_
  dsimp only
  split_ifs
  · exact Heeds.done hclocked fun row hrow ↦ absurd hrow List.not_mem_nil
  · refine Heeds.bind (holdWindows_heeds hwindow hclocked _) fun _ windows found hfound hkeeps ↦ ?_
    refine Heeds.done hfound fun row hrow ↦ ?_
    obtain ⟨hdue, hfree⟩ := List.mem_filter.mp hrow
    refine ⟨?_, fun hrenewed ↦ ?_⟩
    · rw [policy.due_eq_filter, List.mem_filter] at hdue
      exact hdue.1
    · by_contra hoverlap
      have hkept := hkeeps hrenewed row hdue (Bool.not_eq_false _ ▸ hoverlap)
      simp [hkept] at hfree

end Asking

/-! ### The purge -/

section Purge

variable {origin world : World} {hold : Hold} {target : Recording} {renewed : Prop}
  {bookmarkWindowMs : ℤ} {controller : StorageController}

/-- A row overlaps what the row it comes from overlaps. -/
theorem overlapsWindow_congr {old row : Recording} (hsame : SameSegment old row)
    (window : Window) : overlapsWindow row window = overlapsWindow old window := by
  unfold overlapsWindow
  rw [hsame.cameraId_eq, hsame.startTime_eq, hsame.endTime_eq]

/-- A segment that was let go under the id of a row is not the target, if the row is not in the
window. -/
theorem filePath_ne_target {window : Window} (htarget : target ∈ origin.recordings.rows)
    (hoverlap : overlapsWindow target window = true) {row segment : Recording}
    (hrow : ∃ old ∈ origin.recordings.rows, SameSegment old row)
    (hsegment : ∃ old ∈ origin.recordings.rows, SameSegment old segment)
    (hid : row.id = segment.id) (hfree : overlapsWindow row window = false) :
    segment.filePath ≠ target.filePath := by
  intro hpath
  obtain ⟨first, hfirst, hsame⟩ := hrow
  obtain ⟨second, hsecond, hsame'⟩ := hsegment
  have hfirst_eq : first = second := RecordingTable.eq_of_id_eq hfirst hsecond
    (hsame.id_eq.symm.trans (hid.trans hsame'.id_eq))
  have hsecond_eq : second = target := RecordingTable.eq_of_filePath_eq hsecond htarget
    (hsame'.filePath_eq.symm.trans hpath)
  rw [overlapsWindow_congr hsame, hfirst_eq, hsecond_eq, hoverlap] at hfree
  cases hfree

/-- A stretch that asks nothing is a stretch. -/
theorem Heeds.unbounded {bound : Prop} {α : Type} {program : Async α} {post : Prop → α → Prop}
    (hheeds : Heeds origin hold target bound program post renewed world) :
    Heeds origin hold target True program post renewed world :=
  Careful.mono hheeds (fun _ _ _ hpost ↦ ⟨{ hpost.1 with bounded := fun _ ↦ trivial }, hpost.2⟩)
    fun _ _ _ hthrown ↦ { hthrown with bounded := fun _ ↦ trivial }

/-- Deleting a batch of which nothing in the window was let go, if the purge had asked. -/
theorem deleteBatch_heeds (htarget : target ∈ origin.recordings.rows)
    (hoverlap : overlapsWindow target (hold.window bookmarkWindowMs) = true)
    {candidates deletable : List Recording}
    (hcandidates : ∀ row ∈ candidates, ∃ old ∈ origin.recordings.rows, SameSegment old row)
    (hdeletable : ∀ row ∈ deletable, row ∈ candidates ∧
      (renewed → overlapsWindow row (hold.window bookmarkWindowMs) = false))
    (progress : PurgeProgress) (hinformed : Informed origin hold True renewed world) :
    Heeds origin hold target True
      (candidates.foldlM (controller.deleteCandidate (deletable.map Recording.id)) progress)
      (fun _ _ ↦ True) renewed world := by
  have hbounded : Informed origin hold renewed renewed world :=
    { hinformed with bounded := id }
  refine Heeds.unbounded (Heeds.foldlM (fun _ progress segment hsegment reached hreached ↦ ?_)
    hbounded)
  unfold StorageController.deleteCandidate
  split_ifs with hids
  · obtain ⟨row, hrow, hid⟩ := List.mem_map.mp hids
    obtain ⟨hmem, hfree⟩ := hdeletable row hrow
    refine Heeds.catching (Heeds.bind (deleteSegmentInternal_heeds _ _ (fun hrenewed _ ↦ ?_)
      hreached) fun _ _ _ hend _ ↦ Heeds.done hend trivial)
        fun _ _ _ hend ↦ Heeds.done hend trivial
    exact filePath_ne_target htarget hoverlap (hcandidates row hmem)
      (hcandidates segment hsegment) hid (hfree hrenewed)
  · exact Heeds.done hreached trivial

/-- One pass of a purge heeds a hold. -/
theorem purgePass_heeds (hwindow : controller.retention.bookmarkWindowMs = bookmarkWindowMs)
    (htarget : target ∈ origin.recordings.rows)
    (hoverlap : overlapsWindow target (hold.window bookmarkWindowMs) = true) {opts : PurgeOptions}
    (hcontinue : (StorageController.continues opts).Uses (Call.harmless · = true))
    (statuses : Option (List SegmentStatus)) (iterations : ℕ) (progress : PurgeProgress)
    (hinformed : Informed origin hold True renewed world) :
    Heeds origin hold target True (controller.purgePass opts statuses iterations progress)
      (fun _ _ ↦ True) renewed world := by
  induction iterations generalizing progress renewed world with
  | zero => exact Heeds.done hinformed trivial
  | succ iterations ih =>
    have hanswer : Heeds origin hold target True
        (call (.findOldestRecordings controller.batchSize progress.skip statuses))
        (fun _ reply ↦ ∀ found, reply = .ok found → ∀ row ∈ found,
          ∃ old ∈ origin.recordings.rows, SameSegment old row) renewed world := by
      refine Heeds.query rfl (fun _ ↦ trivial) (fun outcome later hlater ↦ ?_) hinformed
      intro found hreply row hrow
      rw [orFail_eq_ok hreply, RecordingTable.findOldestRecordings] at hrow
      have hrow := List.mem_of_mem_drop (List.mem_of_mem_take hrow)
      rw [mem_oldestFirst, List.mem_filter] at hrow
      exact hlater.rows row hrow.1
    have hquery : Heeds origin hold target True
        (getOldestRecordings controller.batchSize progress.skip statuses)
        (fun _ found ↦ ∀ row ∈ found, ∃ old ∈ origin.recordings.rows, SameSegment old row) renewed
        world :=
      Heeds.bind hanswer fun _ reply listed hlisted hreply ↦ Heeds.orThrow hlisted hreply
    unfold StorageController.purgePass
    refine Heeds.bind hquery fun _ candidates listed hlisted hcandidates ↦ ?_
    split_ifs
    · exact Heeds.done hlisted trivial
    refine Heeds.bind (Heeds.of_harmless hcontinue hlisted) fun _ goesOn checked hchecked _ ↦ ?_
    split_ifs
    · refine Heeds.bind (deletable_heeds hwindow hchecked candidates _ _)
        fun _ deletable asked hasked hdeletable ↦ ?_
      refine Heeds.bind (deleteBatch_heeds htarget hoverlap hcandidates hdeletable _ hasked)
        fun _ progress deleted hdeleted _ ↦ ?_
      split_ifs
      · exact Heeds.done hdeleted trivial
      · exact ih progress hdeleted
    · exact Heeds.done hchecked trivial

/-- A purge heeds a hold. -/
theorem PurgeRun.heeds {purge : Async Unit} (hpurge : PurgeRun bookmarkWindowMs purge)
    (htarget : target ∈ origin.recordings.rows)
    (hoverlap : overlapsWindow target (hold.window bookmarkWindowMs) = true)
    (hinformed : Informed origin hold True renewed world) :
    Heeds origin hold target True purge (fun _ _ ↦ True) renewed world := by
  obtain ⟨controller, opts, hwindow, hcontinue, rfl⟩ := hpurge.eq_deleteOldestSegments
  refine Heeds.bind ?_ fun _ _ _ hend (_ : True) ↦ Heeds.done hend trivial
  unfold StorageController.deleteOldestSegments
  generalize StorageController.passes opts.mode = passes
  generalize ({} : PurgeProgress) = progress
  induction passes generalizing progress renewed world with
  | nil => exact Heeds.done hinformed trivial
  | cons statuses passes ih =>
    unfold StorageController.purgePasses
    refine Heeds.bind (purgePass_heeds hwindow htarget hoverlap hcontinue _ _ _ hinformed)
      fun _ passed reached hreached _ ↦ ?_
    dsimp only
    split_ifs
    · exact Heeds.done hreached trivial
    · exact ih hreached passed.2

end Purge

/-! ### Runs -/

section Runs

variable {bookmarkWindowMs : ℤ} {purge : Async Unit} {initial : World}
  {condition : Hold → Async Unit → World → Prop} {state : Turn Call Reply Failure World}

/-- A purge runs alone, with commits around it. -/
theorem raceTurns_alone : Alone machine CommittedMeanwhile (raceTurns condition) where
  rely_refl := CommittedMeanwhile.refl
  rely_trans := CommittedMeanwhile.trans
  not_start := id
  environment_rely := by
    rintro state event ⟨-, ⟨hold, rfl, -⟩ | ⟨ms, rfl⟩⟩
    · exact hold.meanwhile_react state.world
    · exact ⟨[], [], ms, fun _ hjob ↦ absurd hjob List.not_mem_nil, by simp [machine, react]⟩

/-- Every call of a purge reads, or marks or removes a row or its file. -/
theorem PurgeRun.uses (hpurge : PurgeRun bookmarkWindowMs purge) :
    purge.Uses fun call ↦ call.harmless = true ∨ call.deletes = true := by
  obtain ⟨controller, opts, -, hcontinue, rfl⟩ := hpurge.eq_deleteOldestSegments
  refine Uses.bind (controller.purgePasses_uses (fun _ ↦ Or.inl) (fun _ ↦ Or.inr)
    (fun shouldContinue hshould ↦ ?_) _ _) fun _ ↦ trivial
  rw [StorageController.continues, hshould] at hcontinue
  exact hcontinue.mono fun _ ↦ Or.inl

/-- Every row of a purge was there when it started. -/
theorem PurgeRun.descends (hpurge : PurgeRun bookmarkWindowMs purge)
    (hreached : Reaches machine.turn (raceTurns condition) { current := purge, world := initial }
      state) : Descends initial state.world := by
  refine (hreached.of_uses raceTurns_alone hpurge.uses (fun call outcome world huses hrows ↦ ?_)
    (fun before after hrely hrows ↦ ?_) (fun world hrows ↦ hrows) (Descends.refl initial)).2
  · have hstep : Spares (fun _ ↦ False) world (answer call outcome world).2 := by
      by_cases hunlink : ∃ path, call = .unlink path
      · obtain ⟨path, rfl⟩ := hunlink
        rcases World.answerUnlink_cases world path outcome with
          ⟨-, hanswer⟩ | ⟨error, hanswer, -⟩
        · simp only [answer, hanswer]
          exact Spares.removeFile world id
        · simp only [answer, hanswer]
          exact Spares.of_same rfl rfl rfl rfl
      · exact Spares.answer huses (fun path hpath ↦ hunlink ⟨path, hpath⟩) outcome world
    exact hrows.step hstep
  · obtain ⟨bookmarks, exportJobs, ms, -, rfl⟩ := hrely
    exact hrows

/-- Only an unlink of its path takes a file from the disk. -/
theorem onDisk_answer {request : Call} {path : Path} (hunlink : request ≠ .unlink path)
    {outcome : Outcome} {world : World} (hdisk : world.onDisk path = true) :
    (answer request outcome world).2.onDisk path = true := by
  cases request with
  | createRecording data =>
    rcases World.answerCreate_cases world data outcome with ⟨_, hanswer⟩ | ⟨error, hanswer⟩ <;>
    · simp only [answer, hanswer]
      exact hdisk
  | updateRecordingStatus id status errorReason =>
    rcases World.answerUpdate_cases world id
      { status := some status, errorReason := some errorReason } outcome with
      ⟨-, hanswer⟩ | ⟨-, hanswer⟩ <;>
    · simp only [answer, hanswer]
      exact hdisk
  | updateRecordingTier id tier =>
    rcases World.answerUpdate_cases world id { retentionTier := some tier } outcome with
      ⟨-, hanswer⟩ | ⟨-, hanswer⟩ <;>
    · simp only [answer, hanswer]
      exact hdisk
  | deleteRecording id =>
    rcases World.answerDelete_cases world id outcome with hanswer | ⟨error, hanswer⟩ <;>
    · simp only [answer, hanswer]
      exact hdisk
  | deleteCamera cameraId =>
    simp only [answer, World.answerDeleteCamera]
    split
    · exact hdisk
    · split_ifs <;> exact hdisk
  | unlink other =>
    rcases World.answerUnlink_cases world other outcome with ⟨-, hanswer⟩ | ⟨error, hanswer, -⟩
    · simp only [answer, hanswer]
      exact World.onDisk_removeFile.mpr ⟨fun hsame ↦ hunlink (hsame ▸ rfl), hdisk⟩
    · simp only [answer, hanswer]
      exact hdisk
  | _ => exact hdisk

/-- A hold protects the file of a segment in its window. -/
theorem Hold.protects (hold : Hold) (target : Recording) :
    Protects machine CommittedMeanwhile
      (fun renewed ↦ Spares fun path ↦ renewed ∧ path = target.filePath) hold.asks
      (· = .unlink target.filePath) hold.committed
      (fun world ↦ world.onDisk target.filePath = true) where
  asked_kept := fun hrenewed hstep hdisk ↦ hstep.files _ ⟨hrenewed, rfl⟩ hdisk
  call_kept := by
    intro call outcome world hcall hdisk
    refine onDisk_answer ?_ hdisk
    rintro rfl
    rcases hcall with hasks | hunlink
    · cases hold <;> exact hasks
    · exact hunlink rfl
  rely_kept := by
    rintro before after ⟨bookmarks, exportJobs, ms, -, rfl⟩ hdisk
    exact hdisk
  restart_kept := id
  step_committed := Hold.committed_spares
  rely_committed := Hold.committed_meanwhile
  restart_committed := by
    intro world hcommitted
    cases hold <;> exact hcommitted

/-- A hold that is committed while the purge asks again before it acts takes effect. -/
theorem holdsTakeEffect_of_asksAgain (bookmarkWindowMs : ℤ) (initial : World) :
    HoldsTakeEffect bookmarkWindowMs (AsksAgain bookmarkWindowMs) initial := by
  intro purge hpurge state hreached hold _ hasks row hkeep later hlater
  obtain ⟨hrow, -, hoverlap, hdisk⟩ := id hkeep
  obtain ⟨target, htarget, hsame⟩ := hpurge.descends hreached row hrow
  rw [overlapsWindow_congr hsame] at hoverlap
  have hinformed : Informed initial hold True False initial :=
    { rows := Descends.refl initial, committed := False.elim, bounded := False.elim }
  have hpurging : Turn.Careful machine CommittedMeanwhile
      (fun renewed ↦ Spares fun path ↦ renewed ∧ path = target.filePath)
      (fun call world ↦ hold.asks call ∧ hold.committed world)
      { current := purge, world := initial } :=
    ⟨False, Careful.mono (hpurge.heeds htarget hoverlap hinformed) (fun _ _ _ _ ↦ trivial)
      fun _ _ _ _ ↦ trivial⟩
  obtain ⟨renewed, hcareful⟩ := hreached.careful raceTurns_alone hpurging
  -- The commit changes nothing that the purge relies on
  have hcommit := hold.meanwhile_react state.world
  have hcareful := hcareful.later CommittedMeanwhile.trans hcommit
  have hasks := (hasks row hkeep).later CommittedMeanwhile.trans hcommit
  have hprotects := hold.protects target
  rw [hsame.filePath_eq] at hdisk hasks ⊢
  refine hlater.kept raceTurns_alone hprotects ?_ ?_ ?_ ?_
  · exact ⟨renewed, hcareful⟩
  · exact hasks
  · exact hold.committed_react state.world
  · exact hprotects.rely_kept hcommit hdisk

/-- The yard, a hundred days later. -/
def oldYardWorld : World := { yardWorld with now := 100 * dayMs }

/-- A purge of the old yard. -/
def oldYardPurge : Async Unit :=
  (StorageController.purgeRetention { recordingsRoot := ["rec"] } none).bind fun _ ↦ done ()

/-- The purge after it was told that the segment may go. -/
def decidedYard : Turn Call Reply Failure World :=
  runMoves machine.turn { current := oldYardPurge, world := oldYardWorld }
    [.advance .ok, .advance .ok, .advance .ok, .advance .ok, .advance .ok]

/-- The same, once a bookmark is committed in the middle of the segment. -/
def committedYard : Turn Call Reply Failure World :=
  machine.turn decidedYard (.environment (Hold.commit (.bookmark ⟨"cam", 5000⟩)))

/-- A bookmark that is committed after the batch was decided comes too late. -/
theorem not_holdsTakeEffect_late_bookmark :
    ¬ HoldsTakeEffect 120000 (fun _ _ _ ↦ True) oldYardWorld := by
  intro heffect
  have hreached : Reaches machine.turn (raceTurns fun _ _ _ ↦ True)
      { current := oldYardPurge, world := oldYardWorld } decidedYard :=
    Reaches.refl.run ⟨trivial, trivial, trivial, trivial, trivial, trivial⟩
  have hlater : Reaches machine.turn (raceTurns fun _ _ _ ↦ True) committedYard
      (runMoves machine.turn committedYard [.advance .ok, .advance .ok]) :=
    Reaches.refl.run ⟨trivial, trivial, trivial⟩
  have hfile := heffect oldYardPurge (PurgeRun.age _ none rfl) decidedYard hreached
    (.bookmark ⟨"cam", 5000⟩) (by decide) trivial yardSegment
    ⟨by decide, by decide, by decide, by decide⟩ _ hlater
  revert hfile
  decide

end Runs

end VmsLite.Recordings
