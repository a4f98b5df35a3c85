import VmsLite.Recordings.Evaluation

/-!
# Progress of a purge

Every run of `deleteOldestSegments` that finds something deletable should delete something, so that
repeated purges delete all of it. The run steps over the rows it may not delete, page by page, and
stops after `maxIterations` pages: its reach is the first `maxIterations * batchSize` rows of the
order it pages through. `purgeRows` is what a run does to the rows. A row with a whole reach of held
rows ahead of it is never deleted, however often the purge is repeated; `reachesAll_iff` says that
this is the only way to lose progress.
-/

set_option autoImplicit false

namespace VmsLite.Recordings

open VmsLite.Async VmsLite.Paging Program

/-! ### A purge as an operation on rows -/

/-- Whether a pass looks at a row. -/
def isInPass (statuses : Option (List SegmentStatus)) (row : Recording) : Bool :=
  match statuses with
  | none => true
  | some allowed => row.status ∈ allowed

/-- The rows a pass pages through, oldest first. -/
def passOrder (statuses : Option (List SegmentStatus)) (rows : List Recording) :
    List Recording :=
  oldestFirst (rows.filter (isInPass statuses))

/-- The rows after a pass of a reach. -/
def passRows (deletable : Recording → Bool) (reach : ℕ) (statuses : Option (List SegmentStatus))
    (rows : List Recording) : List Recording :=
  rows.filter fun row ↦ !(deletable row && row ∈ (passOrder statuses rows).take reach)

/-- The rows after the passes of a purge. -/
def purgeRows (deletable : Recording → Bool) (reach : ℕ)
    (passes : List (Option (List SegmentStatus))) (rows : List Recording) : List Recording :=
  passes.foldl (fun rows statuses ↦ passRows deletable reach statuses rows) rows

/-- A row is in reach of a purge when one of its passes has fewer than a reach of rows to step over
before it. -/
def InReach (deletable : Recording → Bool) (reach : ℕ)
    (passes : List (Option (List SegmentStatus))) (rows : List Recording) (row : Recording) :
    Prop :=
  ∃ statuses ∈ passes, row ∈ passOrder statuses rows ∧
    ahead deletable (passOrder statuses rows) row < reach

instance : IsTrans Recording fun first second ↦ first.startTime ≤ second.startTime :=
  ⟨fun _ _ _ hfirst hsecond ↦ le_trans hfirst hsecond⟩

instance : Std.Total fun first second : Recording ↦ first.startTime ≤ second.startTime :=
  ⟨fun first second ↦ le_total first.startTime second.startTime⟩

/-- A pass pages through the rows that are left in the order they were in. -/
theorem passOrder_filter (statuses : Option (List SegmentStatus)) (keep : Recording → Bool)
    (rows : List Recording) :
    passOrder statuses (rows.filter keep) = (passOrder statuses rows).filter keep := by
  unfold passOrder oldestFirst
  rw [filter_insertionSort, List.filter_filter, List.filter_filter]
  congr 1
  exact List.filter_congr fun row _ ↦ Bool.and_comm _ _

theorem passOrder_nodup (statuses : Option (List SegmentStatus)) {rows : List Recording}
    (hnodup : rows.Nodup) : (passOrder statuses rows).Nodup :=
  (List.perm_insertionSort _ _).nodup_iff.mpr (hnodup.filter _)

theorem mem_passOrder {statuses : Option (List SegmentStatus)} {rows : List Recording}
    {row : Recording} :
    row ∈ passOrder statuses rows ↔ row ∈ rows ∧ isInPass statuses row = true := by
  rw [passOrder, mem_oldestFirst, List.mem_filter]

/-- Looking at one more page. -/
theorem passRows_add (deletable : Recording → Bool) (seen size : ℕ)
    (statuses : Option (List SegmentStatus)) (rows : List Recording) :
    (passRows deletable seen statuses rows).filter (fun row ↦
        !(deletable row && row ∈ ((passOrder statuses rows).drop seen).take size)) =
      passRows deletable (seen + size) statuses rows := by
  unfold passRows
  rw [List.filter_filter]
  refine List.filter_congr fun row _ ↦ ?_
  rw [List.take_add]
  simp only [List.mem_append]
  cases deletable row <;> by_cases hold : row ∈ (passOrder statuses rows).take seen <;>
    by_cases hnew : row ∈ ((passOrder statuses rows).drop seen).take size <;> simp [hold, hnew]

/-- When a page is empty, looking further finds nothing. -/
theorem passRows_of_page_eq_nil {deletable : Recording → Bool} {seen size : ℕ}
    {statuses : Option (List SegmentStatus)} {rows : List Recording} (pages : ℕ)
    (hpage : ((passOrder statuses rows).drop seen).take size = []) :
    passRows deletable (seen + pages * size) statuses rows =
      passRows deletable seen statuses rows := by
  unfold passRows
  rw [List.take_add, take_pages_eq_nil pages hpage, List.append_nil]

/-- After a page that is not full, looking further finds nothing. -/
theorem passRows_of_short_page {deletable : Recording → Bool} {seen size : ℕ}
    {statuses : Option (List SegmentStatus)} {rows : List Recording} (pages : ℕ)
    (hpage : (((passOrder statuses rows).drop seen).take size).length < size) :
    passRows deletable (seen + size + pages * size) statuses rows =
      passRows deletable (seen + size) statuses rows := by
  refine passRows_of_page_eq_nil pages ?_
  rw [drop_of_short_page hpage, List.take_nil]

/-! ### Rows in reach -/

section Reach

variable {deletable : Recording → Bool} {reach : ℕ}
  {passes : List (Option (List SegmentStatus))} {rows : List Recording} {row : Recording}

theorem mem_passRows {statuses : Option (List SegmentStatus)} :
    row ∈ passRows deletable reach statuses rows ↔ row ∈ rows ∧
      ¬ (deletable row = true ∧ row ∈ (passOrder statuses rows).take reach) := by
  simp only [passRows, List.mem_filter, Bool.not_eq_true', Bool.and_eq_false_imp,
    decide_eq_false_iff_not, not_and]

theorem purgeRows_sublist : (purgeRows deletable reach passes rows).Sublist rows := by
  induction passes generalizing rows with
  | nil => exact List.Sublist.refl _
  | cons statuses passes ih => exact ih.trans List.filter_sublist

theorem mem_of_mem_purgeRows (hrow : row ∈ purgeRows deletable reach passes rows) :
    row ∈ rows := purgeRows_sublist.mem hrow

/-- A pass changes neither which of the rows it leaves are in an order nor how many rows are ahead
of them. -/
theorem ahead_passRows (statuses order : Option (List SegmentStatus))
    (hrow : row ∈ passRows deletable reach statuses rows) :
    ahead deletable (passOrder order (passRows deletable reach statuses rows)) row =
      ahead deletable (passOrder order rows) row := by
  rw [passRows, passOrder_filter]
  refine ahead_filter deletable (List.mem_filter.mp hrow).2 fun other _ hheld ↦ ?_
  simp [hheld]

theorem mem_passOrder_passRows (statuses order : Option (List SegmentStatus))
    (hrow : row ∈ passRows deletable reach statuses rows) :
    row ∈ passOrder order (passRows deletable reach statuses rows) ↔
      row ∈ passOrder order rows := by
  rw [mem_passOrder, mem_passOrder]
  exact and_congr_left fun _ ↦ ⟨fun hleft ↦ (mem_passRows.mp hleft).1, fun _ ↦ hrow⟩

/-- A purge leaves the rows it leaves as far out of reach as they were. -/
theorem inReach_purgeRows (others : List (Option (List SegmentStatus)))
    (hrow : row ∈ purgeRows deletable reach passes rows) :
    InReach deletable reach others (purgeRows deletable reach passes rows) row ↔
      InReach deletable reach others rows row := by
  induction passes generalizing rows with
  | nil => exact Iff.rfl
  | cons statuses passes ih =>
    have hpass : row ∈ passRows deletable reach statuses rows := mem_of_mem_purgeRows hrow
    refine (ih hrow).trans ?_
    unfold InReach
    simp only [ahead_passRows statuses _ hpass, mem_passOrder_passRows statuses _ hpass]

/-- A row out of reach survives a purge. -/
theorem mem_purgeRows_of_not_inReach (hrow : row ∈ rows)
    (hreach : ¬ InReach deletable reach passes rows row) :
    row ∈ purgeRows deletable reach passes rows := by
  induction passes generalizing rows with
  | nil => exact hrow
  | cons statuses passes ih =>
    have hpass : row ∈ passRows deletable reach statuses rows := by
      refine mem_passRows.mpr ⟨hrow, fun hgone ↦ hreach ?_⟩
      exact ⟨statuses, List.mem_cons_self, List.mem_of_mem_take hgone.2,
        ahead_lt_of_mem_take deletable hgone.2⟩
    refine ih hpass fun hlater ↦ hreach ?_
    obtain ⟨order, horder, hmem, hahead⟩ := hlater
    rw [ahead_passRows statuses order hpass] at hahead
    exact ⟨order, List.mem_cons_of_mem _ horder,
      (mem_passOrder_passRows statuses order hpass).mp hmem, hahead⟩

/-- A purge deletes only what may be deleted. -/
theorem deletable_of_not_mem_purgeRows (hrow : row ∈ rows)
    (hgone : row ∉ purgeRows deletable reach passes rows) : deletable row = true := by
  induction passes generalizing rows with
  | nil => exact absurd hrow hgone
  | cons statuses passes ih =>
    by_cases hpass : row ∈ passRows deletable reach statuses rows
    · exact ih hpass hgone
    · by_contra hheld
      exact hpass (mem_passRows.mpr ⟨hrow, fun hdeletable ↦ hheld hdeletable.1⟩)

/-- A purge that deletes nothing finds nothing to delete in any of its passes. -/
theorem held_of_purgeRows_eq (hsame : ∀ row ∈ rows, row ∈ purgeRows deletable reach passes rows)
    {statuses : Option (List SegmentStatus)} (hstatuses : statuses ∈ passes)
    (hrow : row ∈ (passOrder statuses rows).take reach) : deletable row = false := by
  induction passes with
  | nil => exact absurd hstatuses List.not_mem_nil
  | cons first passes ih =>
    have hfirst : passRows deletable reach first rows = rows :=
      List.filter_eq_self.mpr fun other hother ↦
        (List.mem_filter.mp (mem_of_mem_purgeRows (hsame other hother))).2
    have hpurge : purgeRows deletable reach (first :: passes) rows =
        purgeRows deletable reach passes rows := by
      simp only [purgeRows, List.foldl_cons, hfirst]
    rcases List.mem_cons.mp hstatuses with rfl | hlater
    · have hrows : row ∈ rows := (mem_passOrder.mp (List.mem_of_mem_take hrow)).1
      rw [← hfirst] at hrows
      by_contra hdeletable
      exact (mem_passRows.mp hrows).2 ⟨by simpa using hdeletable, hrow⟩
    · exact ih (fun other hother ↦ hpurge ▸ hsame other hother) hlater

theorem filter_isInPass_none (rows : List Recording) : rows.filter (isInPass none) = rows :=
  List.filter_eq_self.mpr fun _ _ ↦ rfl

/-- Every order is that of all rows, filtered. -/
theorem passOrder_eq_filter (statuses : Option (List SegmentStatus)) :
    passOrder statuses rows = (passOrder none rows).filter (isInPass statuses) := by
  rw [← passOrder_filter, passOrder, passOrder, filter_isInPass_none]

/-- When everything deletable is in reach, a purge that has something to delete deletes
something. -/
theorem exists_not_mem_purgeRows (hexists : ∃ row ∈ rows, deletable row = true)
    (hreach : ∀ row ∈ rows, deletable row = true → InReach deletable reach passes rows row) :
    ∃ row ∈ rows, row ∉ purgeRows deletable reach passes rows := by
  by_contra hnone
  have hsame : ∀ row ∈ rows, row ∈ purgeRows deletable reach passes rows := by
    intro row hrow
    by_contra hgone
    exact hnone ⟨row, hrow, hgone⟩
  have hany : ∃ row ∈ passOrder none rows, deletable row = true := by
    obtain ⟨row, hrow, hdeletable⟩ := hexists
    exact ⟨row, mem_passOrder.mpr ⟨hrow, rfl⟩, hdeletable⟩
  obtain ⟨first, hfirst, hdeletable, hbefore⟩ := exists_first_taken deletable hany
  obtain ⟨statuses, hstatuses, hmem, hahead⟩ :=
    hreach first (mem_passOrder.mp hfirst).1 hdeletable
  have htake : first ∈ (passOrder statuses rows).take reach := by
    refine mem_take_of_ahead_lt deletable hmem (fun other hother ↦ hbefore other ?_) hahead
    rw [passOrder_eq_filter] at hother hmem
    exact takeWhile_filter_subset (List.mem_filter.mp hmem).2 other hother
  rw [held_of_purgeRows_eq hsame hstatuses htake] at hdeletable
  exact absurd hdeletable (by decide)

end Reach

/-! ### What a run does -/

section Evaluate

variable (controller : StorageController)

/-- One batch deletes what may be deleted and steps over the rest. -/
theorem eval_deleteCandidates {deletable : Recording → Bool} {ids : List RecordingId}
    {candidates : List Recording} (hnodup : candidates.Nodup)
    (hroot : ∀ row ∈ candidates, isWithinRoot controller.recordingsRoot row.filePath = true)
    (hids : ∀ row ∈ candidates, row.id ∈ ids ↔ deletable row = true) (progress : PurgeProgress)
    {world : World} (hrows : ∀ row ∈ candidates, row ∈ world.recordings.rows) :
    ∃ progress' reached,
      eval answer calm (candidates.foldlM (controller.deleteCandidate ids) progress) world =
        (.ok progress', reached) ∧ Purged world reached ∧
      reached.recordings.rows =
        (world.recordings.rows.filter fun row ↦ !(deletable row && row ∈ candidates)) ∧
      progress'.skip = progress.skip + (candidates.filter fun row ↦ !deletable row).length ∧
      progress'.batchDeleted = progress.batchDeleted + (candidates.filter deletable).length := by
  induction candidates generalizing progress world with
  | nil =>
    refine ⟨progress, world, rfl, Purged.of_undisturbed (Undisturbed.refl world), ?_, rfl, rfl⟩
    simp
  | cons segment rest ih =>
    obtain ⟨hsegment, hnodup⟩ := List.nodup_cons.mp hnodup
    have hihRoot := fun row hrow ↦ hroot row (List.mem_cons_of_mem segment hrow)
    have hihIds := fun row hrow ↦ hids row (List.mem_cons_of_mem segment hrow)
    have hworld := hrows segment List.mem_cons_self
    rw [List.foldlM_cons, bind_eq]
    by_cases hdeletable : deletable segment = true
    · obtain ⟨result, deleted, heval, hsuccess, hpurged, hleft⟩ :=
        eval_deleteSegmentInternal hworld (hroot segment List.mem_cons_self) segment.sizeBytes
      have hstep : eval answer calm (controller.deleteCandidate ids progress segment) world =
          (.ok { progress with
            deletedSegmentsCount := progress.deletedSegmentsCount + 1
            freedBytes := progress.freedBytes + result.freedBytes
            batchDeleted := progress.batchDeleted + 1 }, deleted) := by
        unfold StorageController.deleteCandidate
        rw [if_pos ((hids segment List.mem_cons_self).mpr hdeletable), eval_catching, bind_eq,
          eval_bind_of_ok answer calm heval, hsuccess]
        rfl
      rw [RecordingTable.filter_id_ne hworld] at hleft
      have hkept : ∀ row ∈ rest, row ∈ deleted.recordings.rows := by
        intro row hrow
        rw [hleft, List.mem_filter]
        refine ⟨hrows row (List.mem_cons_of_mem segment hrow), ?_⟩
        simpa using fun hsame : row = segment ↦ hsegment (hsame ▸ hrow)
      obtain ⟨progress', reached, hrest, hpurged', hrows', hskip, hbatch⟩ :=
        ih hnodup hihRoot hihIds { progress with
            deletedSegmentsCount := progress.deletedSegmentsCount + 1
            freedBytes := progress.freedBytes + result.freedBytes
            batchDeleted := progress.batchDeleted + 1 } hkept
      refine ⟨progress', reached, ?_, hpurged.trans hpurged', ?_, ?_, ?_⟩
      · rw [eval_bind_of_ok answer calm hstep, hrest]
      · rw [hrows', hleft, List.filter_filter]
        refine List.filter_congr fun row _ ↦ ?_
        by_cases hsame : row = segment
        · simp [hsame, hdeletable]
        · simp [hsame]
      · rw [hskip, List.filter_cons]
        simp [hdeletable]
      · rw [hbatch, List.filter_cons, if_pos hdeletable, List.length_cons]
        simp only
        omega
    · have hstep : eval answer calm (controller.deleteCandidate ids progress segment) world =
          (.ok { progress with skip := progress.skip + 1 }, world) := by
        unfold StorageController.deleteCandidate
        rw [if_neg (fun hmem ↦ hdeletable ((hids segment List.mem_cons_self).mp hmem))]
        rfl
      obtain ⟨progress', reached, hrest, hpurged, hrows', hskip, hbatch⟩ :=
        ih hnodup hihRoot hihIds { progress with skip := progress.skip + 1 }
          fun row hrow ↦ hrows row (List.mem_cons_of_mem segment hrow)
      refine ⟨progress', reached, ?_, hpurged, ?_, ?_, ?_⟩
      · rw [eval_bind_of_ok answer calm hstep, hrest]
      · rw [hrows']
        refine List.filter_congr fun row _ ↦ ?_
        by_cases hsame : row = segment
        · simp [hsame, hdeletable]
        · simp [hsame]
      · rw [hskip, List.filter_cons]
        simp only [hdeletable, Bool.not_false, if_true, List.length_cons]
        omega
      · rw [hbatch, List.filter_cons, if_neg hdeletable]

/-- Whatever the run asks before a batch, it is told to go on. -/
def GoesOn (opts : PurgeOptions) (volume : Volume) : Prop :=
  ∀ world : World, world.volume = volume → ∃ reached,
    eval answer calm (StorageController.continues opts) world = (.ok true, reached) ∧
      Undisturbed world reached

/-- The rows a pass asks for next are the next page of its order. -/
theorem eval_getOldestRecordings {policy : Call → World → Outcome} (hpolicy : Unhindered policy)
    (limit skip : ℕ) (statuses : Option (List SegmentStatus)) (world : World) :
    eval answer policy (getOldestRecordings limit skip statuses) world =
      (.ok (((passOrder statuses world.recordings.rows).drop skip).take limit), world) := by
  unfold getOldestRecordings
  simp only [call, bind_eq, request_bind]
  rw [hpolicy.eval_await (by simp)]
  rfl

/-- The rows of a batch that may be deleted, by their ids. -/
theorem mem_deletable_ids {table : RecordingTable} {candidates : List Recording}
    {deletable : Recording → Bool} (hrows : ∀ row ∈ candidates, row ∈ table.rows)
    {row : Recording} (hrow : row ∈ candidates) :
    row.id ∈ (candidates.filter deletable).map Recording.id ↔ deletable row = true := by
  rw [List.mem_map]
  constructor
  · rintro ⟨other, hother, hid⟩
    obtain ⟨hcandidate, hdeletable⟩ := List.mem_filter.mp hother
    rw [← RecordingTable.eq_of_id_eq (hrows other hcandidate) (hrows row hrow) hid]
    exact hdeletable
  · exact fun hdeletable ↦ ⟨row, List.mem_filter.mpr ⟨hrow, hdeletable⟩, rfl⟩

/-- After `seen` rows of its order, a pass goes on to delete what may be deleted among the next
`iterations` pages. -/
theorem eval_purgePass {opts : PurgeOptions} {origin : World} {rows : List Recording}
    (statuses : Option (List SegmentStatus)) (hgoesOn : GoesOn opts origin.volume)
    (hnodup : rows.Nodup)
    (hroot : ∀ row ∈ rows, isWithinRoot controller.recordingsRoot row.filePath = true)
    (iterations seen : ℕ) (progress : PurgeProgress) {world : World}
    (hworld : Purged origin world)
    (hrows : world.recordings.rows = passRows
      (controller.retention.mayDelete origin opts.mode opts.overrideDays) seen statuses rows)
    (hskip : progress.skip = steppedOver
      (controller.retention.mayDelete origin opts.mode opts.overrideDays) seen
      (passOrder statuses rows)) :
    ∃ progress' reached,
      eval answer calm (controller.purgePass opts statuses iterations progress) world =
        (.ok (false, progress'), reached) ∧ Purged origin reached ∧
      reached.recordings.rows = passRows
        (controller.retention.mayDelete origin opts.mode opts.overrideDays)
        (seen + iterations * controller.batchSize) statuses rows := by
  induction iterations generalizing seen progress world with
  | zero => exact ⟨progress, world, rfl, hworld, by simpa using hrows⟩
  | succ iterations ih =>
    let deletable := controller.retention.mayDelete origin opts.mode opts.overrideDays
    let page := ((passOrder statuses rows).drop seen).take controller.batchSize
    have hpage : ((passOrder statuses world.recordings.rows).drop progress.skip).take
        controller.batchSize = page := by
      rw [hrows, passRows, passOrder_filter, filter_eq_swept _ _ (passOrder_nodup statuses hnodup),
        hskip, page_swept]
    have hall : seen + (iterations + 1) * controller.batchSize =
        seen + controller.batchSize + iterations * controller.batchSize := by
      rw [Nat.succ_mul, Nat.add_assoc, Nat.add_comm controller.batchSize]
    have hpageNodup : page.Nodup :=
      (passOrder_nodup statuses hnodup).sublist
        ((List.take_sublist _ _).trans (List.drop_sublist _ _))
    have hpageRows : ∀ row ∈ page, row ∈ rows := fun row hrow ↦
      (mem_passOrder.mp (List.mem_of_mem_drop (List.mem_of_mem_take hrow))).1
    unfold StorageController.purgePass
    rw [bind_eq, eval_bind_of_ok answer calm (eval_getOldestRecordings calm_unhindered _ _ _ world),
      hpage]
    by_cases hempty : page.isEmpty = true
    · rw [if_pos hempty]
      refine ⟨_, world, rfl, hworld, ?_⟩
      rw [hrows, passRows_of_page_eq_nil (iterations + 1) (List.isEmpty_iff.mp hempty)]
    · rw [if_neg hempty]
      obtain ⟨asked, hasked, hundisturbed⟩ := hgoesOn world hworld.volume
      have haskedPurged := hworld.trans (Purged.of_undisturbed hundisturbed)
      have hmay : controller.retention.mayDelete asked opts.mode opts.overrideDays = deletable :=
        funext fun row ↦ haskedPurged.mayDelete controller.retention opts.mode
          opts.overrideDays row
      have haskedRows : ∀ row ∈ page, row ∈ asked.recordings.rows := by
        intro row hrow
        rw [hundisturbed.recordings]
        exact (mem_passOrder.mp (List.mem_of_mem_drop (List.mem_of_mem_take (hpage ▸ hrow)))).1
      have hids : ∀ row ∈ page,
          row.id ∈ (page.filter deletable).map Recording.id ↔ deletable row = true :=
        fun row hrow ↦ mem_deletable_ids haskedRows hrow
      rw [bind_eq, eval_bind_of_ok answer calm hasked]
      simp only [if_true, bind_eq]
      rw [eval_bind_of_ok answer calm (controller.retention.eval_deletable calm_unhindered page
        opts.mode opts.overrideDays asked), hmay]
      obtain ⟨batch, deleted, heval, hpurged, hleft, hskip', hbatch⟩ :=
        eval_deleteCandidates controller hpageNodup (fun row hrow ↦ hroot row (hpageRows row hrow))
          hids { progress with batchDeleted := 0 } haskedRows
      rw [eval_bind_of_ok answer calm heval]
      have hdeletedRows : deleted.recordings.rows =
          passRows deletable (seen + controller.batchSize) statuses rows := by
        rw [hleft, hundisturbed.recordings, hrows]
        exact passRows_add deletable seen controller.batchSize statuses rows
      rw [hall]
      split_ifs with hlast
      · refine ⟨_, deleted, rfl, haskedPurged.trans hpurged, ?_⟩
        have hshort : page.length < controller.batchSize := by
          simp only [Bool.and_eq_true, decide_eq_true_eq] at hlast
          exact hlast.2
        rw [hdeletedRows, passRows_of_short_page iterations hshort]
      · refine ih (seen + controller.batchSize) batch (haskedPurged.trans hpurged) hdeletedRows ?_
        rw [hskip', steppedOver_add, ← hskip]

/-- A purge does to the rows what its passes do. -/
theorem eval_purgePasses {opts : PurgeOptions} {origin : World}
    (hgoesOn : GoesOn opts origin.volume) (passes : List (Option (List SegmentStatus)))
    (progress : PurgeProgress) {world : World} (hworld : Purged origin world)
    (hroot : ∀ row ∈ world.recordings.rows,
      isWithinRoot controller.recordingsRoot row.filePath = true) :
    ∃ purged reached, eval answer calm (controller.purgePasses opts passes progress) world =
        (.ok purged, reached) ∧ Purged origin reached ∧
      reached.recordings.rows = purgeRows
        (controller.retention.mayDelete origin opts.mode opts.overrideDays)
        (controller.maxIterations * controller.batchSize) passes world.recordings.rows := by
  induction passes generalizing progress world with
  | nil => exact ⟨progress, world, rfl, hworld, rfl⟩
  | cons statuses passes ih =>
    have hstart : world.recordings.rows = passRows
        (controller.retention.mayDelete origin opts.mode opts.overrideDays) 0 statuses
        world.recordings.rows := by
      simp [passRows]
    obtain ⟨passed, reached, heval, hpurged, hrows⟩ :=
      eval_purgePass controller statuses hgoesOn world.recordings.ids_nodup.of_map hroot
        controller.maxIterations 0 { progress with skip := 0 } hworld hstart (by simp)
    rw [Nat.zero_add] at hrows
    obtain ⟨purged, last, hrest, hpurged', hrows'⟩ := ih passed hpurged fun row hrow ↦
      hroot row (mem_passRows.mp (hrows ▸ hrow)).1
    refine ⟨purged, last, ?_, hpurged', ?_⟩
    · unfold StorageController.purgePasses
      rw [bind_eq, eval_bind_of_ok answer calm heval]
      exact hrest
    · rw [hrows', hrows]
      rfl

end Evaluate

/-! ### The two purges of the engine -/

/-- The purge by age, and the purge by capacity of a rollover. -/
inductive Purge
  | age (overrideDays : Option ℤ)
  | capacity

namespace Purge

variable (purge : Purge) (controller : StorageController)

def mode : Purge → PurgeMode
  | age _ => .age
  | capacity => .capacity

def run : Async PurgeProgress :=
  match purge with
  | age overrideDays => controller.purgeRetention overrideDays
  | capacity => controller.purgeCapacity

/-- Whether the policy lets the purge delete a row. -/
def deletable (world : World) (row : Recording) : Bool :=
  match purge with
  | age overrideDays => controller.retention.mayDelete world .age overrideDays row
  | capacity => controller.retention.mayDelete world .capacity none row

/-- How many rows of an order a pass looks at. -/
def reach : ℕ := controller.maxIterations * controller.batchSize

/-- The world after the purge has been run so many times. -/
def repeated (world : World) : ℕ → World
  | 0 => world
  | times + 1 => repeated (eval answer calm (purge.run controller) world).2 times

/-- A run that finds something deletable deletes a segment, row and file. -/
def MakesProgress (world : World) : Prop :=
  (∃ row ∈ world.recordings.rows, purge.deletable controller world row = true) →
    ∃ purged reached, eval answer calm (purge.run controller) world = (.ok purged, reached) ∧
      ∃ row ∈ world.recordings.rows, row ∉ reached.recordings.rows ∧
        reached.onDisk row.filePath = false

/-- Some number of runs deletes everything deletable. -/
def DeletesAll (world : World) : Prop :=
  ∃ times, ∀ row ∈ (purge.repeated controller world times).recordings.rows,
    purge.deletable controller (purge.repeated controller world times) row = false

/-- Usage stays above the target, if the purge asks. -/
def StaysAbove (world : World) : Prop :=
  purge.mode = .capacity →
    controller.targetThresholdPercent < controller.usedPercentOf world.volume

/-- Every catalogued file lies under the recordings root, so no deletion is refused. -/
def WithinRoot (world : World) : Prop :=
  ∀ row ∈ world.recordings.rows, isWithinRoot controller.recordingsRoot row.filePath = true

/-- Everything deletable has, in some pass, fewer than a reach of held rows ahead of it. -/
def ReachesAll (world : World) : Prop :=
  ∀ row ∈ world.recordings.rows, purge.deletable controller world row = true →
    InReach (purge.deletable controller world) (reach controller)
      (StorageController.passes purge.mode) world.recordings.rows row

variable {purge controller} {world : World}

theorem eval_run (hroot : WithinRoot controller world)
    (habove : purge.StaysAbove controller world) :
    ∃ purged reached, eval answer calm (purge.run controller) world = (.ok purged, reached) ∧
      Purged world reached ∧
      reached.recordings.rows = purgeRows (purge.deletable controller world) (reach controller)
        (StorageController.passes purge.mode) world.recordings.rows := by
  have hstart := Purged.of_undisturbed (Undisturbed.refl world)
  cases purge with
  | age overrideDays =>
    have hgoesOn : GoesOn { mode := .age, overrideDays } world.volume :=
      fun asked _ ↦ ⟨asked, rfl, Undisturbed.refl asked⟩
    exact eval_purgePasses controller hgoesOn _ {} hstart hroot
  | capacity =>
    have hgoesOn : GoesOn { mode := .capacity, shouldContinue := some controller.aboveTarget }
        world.volume := by
      intro asked hvolume
      obtain ⟨reached, heval, hundisturbed⟩ := controller.eval_aboveTarget calm_unhindered asked
      rw [hvolume, decide_eq_true (habove rfl)] at heval
      exact ⟨reached, heval, hundisturbed⟩
    exact eval_purgePasses controller hgoesOn _ {} hstart hroot

/-- What decides whether a row may be deleted does not change in a purge. -/
theorem deletable_purged {reached : World} (hpurged : Purged world reached) :
    purge.deletable controller reached = purge.deletable controller world := by
  funext row
  cases purge with
  | age overrideDays => exact hpurged.mayDelete controller.retention .age overrideDays row
  | capacity => exact hpurged.mayDelete controller.retention .capacity none row

/-- One run keeps the conditions of the next. -/
theorem run_preserves (hroot : WithinRoot controller world)
    (habove : purge.StaysAbove controller world) {purged : PurgeProgress} {reached : World}
    (heval : eval answer calm (purge.run controller) world = (.ok purged, reached)) :
    WithinRoot controller reached ∧ purge.StaysAbove controller reached ∧
      purge.deletable controller reached = purge.deletable controller world ∧
      reached.recordings.rows = purgeRows (purge.deletable controller world) (reach controller)
        (StorageController.passes purge.mode) world.recordings.rows := by
  obtain ⟨purged', reached', heval', hpurged, hrows⟩ := eval_run hroot habove
  obtain ⟨-, rfl⟩ := Prod.mk.inj (heval.symm.trans heval')
  refine ⟨fun row hrow ↦ hroot row (mem_of_mem_purgeRows (hrows ▸ hrow)), fun hmode ↦ ?_,
    deletable_purged hpurged, hrows⟩
  rw [hpurged.volume]
  exact habove hmode

/-- When everything deletable is in reach, a run makes progress. -/
theorem makesProgress (hroot : WithinRoot controller world)
    (habove : purge.StaysAbove controller world)
    (hreach : purge.ReachesAll controller world) : purge.MakesProgress controller world := by
  intro hexists
  obtain ⟨purged, reached, heval, hpurged, hrows⟩ := eval_run hroot habove
  obtain ⟨row, hrow, hgone⟩ := exists_not_mem_purgeRows hexists hreach
  rw [← hrows] at hgone
  exact ⟨purged, reached, heval, row, hrow, hgone, hpurged.file_gone row hrow hgone⟩

/-- A run leaves everything deletable in reach, if it was. -/
theorem reachesAll_run (hroot : WithinRoot controller world)
    (habove : purge.StaysAbove controller world) (hreach : purge.ReachesAll controller world) :
    purge.ReachesAll controller (eval answer calm (purge.run controller) world).2 := by
  obtain ⟨purged, reached, heval, -, -⟩ := eval_run hroot habove
  obtain ⟨-, -, hdeletable, hrows⟩ := run_preserves hroot habove heval
  rw [heval]
  intro row hrow hrowDeletable
  simp only [hdeletable, hrows] at hrow hrowDeletable ⊢
  exact (inReach_purgeRows _ hrow).mpr (hreach row (mem_of_mem_purgeRows hrow) hrowDeletable)

/-- When everything deletable is in reach, repeated runs delete it all: every run that finds
something leaves fewer rows. -/
theorem deletesAll (hroot : WithinRoot controller world)
    (habove : purge.StaysAbove controller world)
    (hreach : purge.ReachesAll controller world) : purge.DeletesAll controller world := by
  induction hlength : world.recordings.rows.length using Nat.strong_induction_on
    generalizing world with
  | _ length ih =>
    by_cases hexists : ∃ row ∈ world.recordings.rows, purge.deletable controller world row = true
    · obtain ⟨purged, reached, heval, hpurged, hrows⟩ := eval_run hroot habove
      obtain ⟨hroot', habove', -, -⟩ := run_preserves hroot habove heval
      have hreach' := reachesAll_run hroot habove hreach
      rw [heval] at hreach'
      have hfewer : reached.recordings.rows.length < length := by
        obtain ⟨row, hrow, hgone⟩ := exists_not_mem_purgeRows hexists hreach
        rw [hrows, ← hlength]
        refine purgeRows_sublist.length_le.lt_of_ne fun hsame ↦ hgone ?_
        rw [purgeRows_sublist.eq_of_length hsame]
        exact hrow
      obtain ⟨times, hall⟩ := ih _ hfewer hroot' habove' hreach' rfl
      refine ⟨times + 1, ?_⟩
      unfold repeated
      rw [heval]
      exact hall
    · refine ⟨0, fun row hrow ↦ ?_⟩
      show purge.deletable controller world row = false
      by_contra hdeletable
      exact hexists ⟨row, hrow, by simpa using hdeletable⟩

/-- A deletable row out of reach is still there, and still out of reach, after any number of
runs. -/
theorem mem_repeated_of_not_inReach (hroot : WithinRoot controller world)
    (habove : purge.StaysAbove controller world) {row : Recording}
    (hrow : row ∈ world.recordings.rows)
    (hdeletable : purge.deletable controller world row = true)
    (hreach : ¬ InReach (purge.deletable controller world) (reach controller)
      (StorageController.passes purge.mode) world.recordings.rows row) (times : ℕ) :
    row ∈ (purge.repeated controller world times).recordings.rows ∧
      purge.deletable controller (purge.repeated controller world times) row = true := by
  induction times generalizing world with
  | zero => exact ⟨hrow, hdeletable⟩
  | succ times ih =>
    obtain ⟨purged, reached, heval, -, -⟩ := eval_run hroot habove
    obtain ⟨hroot', habove', hsame, hrows⟩ := run_preserves hroot habove heval
    have hstill : row ∈ reached.recordings.rows := by
      rw [hrows]
      exact mem_purgeRows_of_not_inReach hrow hreach
    unfold repeated
    rw [heval]
    refine ih hroot' habove' hstill (by rw [hsame]; exact hdeletable) ?_
    rw [hsame, hrows]
    rw [hrows] at hstill
    exact fun hreached ↦ hreach ((inReach_purgeRows _ hstill).mp hreached)

/-- A purge keeps making progress, and so deletes everything deletable, exactly when everything
deletable is in reach. -/
theorem progress_iff_reachesAll (purge : Purge) (controller : StorageController) (world : World)
    (hroot : WithinRoot controller world) (habove : purge.StaysAbove controller world) :
    purge.MakesProgress controller world ∧ purge.DeletesAll controller world ↔
      purge.ReachesAll controller world := by
  constructor
  · rintro ⟨-, times, hall⟩ row hrow hdeletable
    by_contra hreach
    obtain ⟨hstill, hstillDeletable⟩ :=
      mem_repeated_of_not_inReach hroot habove hrow hdeletable hreach times
    rw [hall row hstill] at hstillDeletable
    exact absurd hstillDeletable (by decide)
  · exact fun hreach ↦ ⟨makesProgress hroot habove hreach, deletesAll hroot habove hreach⟩

/-- A full volume with one segment that is past its lifetime. -/
def fullYardWorld : World :=
  { yardWorld with
    volume := { statfs := [(["rec"], { bsize := 1, blocks := 100, bfree := 5 })] }
    now := 700000000 }

theorem progress_iff_reachesAll_fullYard :
    Purge.capacity.MakesProgress { recordingsRoot := ["rec"] } fullYardWorld ∧
      Purge.capacity.DeletesAll { recordingsRoot := ["rec"] } fullYardWorld := by
  refine (progress_iff_reachesAll Purge.capacity { recordingsRoot := ["rec"] } fullYardWorld
    (by unfold WithinRoot; decide) (by unfold StaysAbove; decide)).mpr ?_
  unfold ReachesAll InReach
  decide

/-! ### Starvation by held footage -/

/-- A protected segment. -/
def heldSegment (number : ℕ) : Recording := { numberedSegment number with isProtected := true }

/-- A segment after them that nothing protects. -/
def oldSegment : Recording where
  id := 500
  cameraId := "cam"
  mediaMtxPath := "yard"
  filePath := ["rec", "old.mp4"]
  fileName := "old.mp4"
  startTime := 500
  endTime := 501
  durationMs := 1
  sizeBytes := 100

/-- Five hundred protected segments and then one that is past its lifetime. -/
def starvedWorld : World where
  recordings :=
    { rows := (List.range 500).map heldSegment ++ [oldSegment]
      nextId := 501
      ids_nodup := by
        have hids : ((List.range 500).map heldSegment ++ [oldSegment]).map Recording.id =
            List.range 500 ++ [500] := by
          rw [List.map_append, List.map_map]
          exact congrArg (· ++ [500]) (List.map_id _)
        rw [hids, ← List.range_succ]
        exact List.nodup_range
      paths_nodup := by
        rw [List.map_append, List.nodup_append, List.map_map]
        refine ⟨List.nodup_range.map fun _ _ hsame ↦ numberedSegment_filePath_inj hsame,
          List.nodup_singleton _, ?_⟩
        intro path hpath other hother
        obtain ⟨number, -, rfl⟩ := List.mem_map.mp hpath
        have hother : other = ["rec", "old.mp4"] := by simpa [oldSegment] using hother
        simp [hother, heldSegment, numberedSegment]
      ids_lt := by
        intro row hrow
        rcases List.mem_append.mp hrow with hheld | hold
        · obtain ⟨number, hnumber, rfl⟩ := List.mem_map.mp hheld
          exact (List.mem_range.mp hnumber).trans (by decide)
        · rw [List.mem_singleton.mp hold]
          decide }
  now := 700000000

theorem passOrder_starved :
    passOrder none starvedWorld.recordings.rows = starvedWorld.recordings.rows := by
  rw [passOrder, filter_isInPass_none]
  refine List.Pairwise.insertionSort_eq (List.pairwise_append.mpr ⟨?_, ?_, ?_⟩)
  · rw [List.pairwise_map]
    refine List.pairwise_lt_range.imp fun {first second} hlt ↦ ?_
    show (first : ℤ) ≤ second
    omega
  · exact List.pairwise_singleton _ _
  · intro row hrow last hlast
    obtain ⟨number, hnumber, rfl⟩ := List.mem_map.mp hrow
    rw [List.mem_singleton.mp hlast]
    have hlt := List.mem_range.mp hnumber
    show (number : ℤ) ≤ 500
    omega

theorem deletable_starved {controller : StorageController} {row : Recording}
    (hrow : row ∈ starvedWorld.recordings.rows)
    (hdeletable : (Purge.age none).deletable controller starvedWorld row = true) :
    row = oldSegment := by
  rcases List.mem_append.mp hrow with hheld | hold
  · obtain ⟨number, -, rfl⟩ := List.mem_map.mp hheld
    simp [deletable, RetentionPolicy.mayDelete, RetentionPolicy.isDue, RetentionPolicy.isLegalHold,
      heldSegment] at hdeletable
  · exact List.mem_singleton.mp hold

theorem oldSegment_not_inReach :
    ¬ InReach ((Purge.age none).deletable { recordingsRoot := ["rec"] } starvedWorld) 500 [none]
      starvedWorld.recordings.rows oldSegment := by
  rintro ⟨statuses, hstatuses, -, hahead⟩
  rw [List.mem_singleton.mp hstatuses, passOrder_starved] at hahead
  have hne : ∀ row ∈ (List.range 500).map heldSegment, row ≠ oldSegment := by
    intro row hrow
    obtain ⟨number, -, rfl⟩ := List.mem_map.mp hrow
    simp [heldSegment, numberedSegment, oldSegment]
  have hbefore : starvedWorld.recordings.rows.takeWhile (· ≠ oldSegment) =
      (List.range 500).map heldSegment := by
    show ((List.range 500).map heldSegment ++ [oldSegment]).takeWhile (· ≠ oldSegment) = _
    rw [List.takeWhile_append_of_pos fun row hrow ↦ by simpa using hne row hrow]
    simp
  rw [ahead, hbefore, List.filter_eq_self.mpr ?_, List.length_map, List.length_range] at hahead
  · exact absurd hahead (by decide)
  · intro row hrow
    rw [Bool.not_eq_true', ← Bool.not_eq_true]
    exact fun hdeletable ↦
      hne row hrow (deletable_starved (List.mem_append_left _ hrow) hdeletable)

/-- Five hundred protected segments, ten full batches, starve every purge by age. -/
theorem not_makesProgress_starved :
    ¬ (Purge.age none).MakesProgress { recordingsRoot := ["rec"] } starvedWorld := by
  intro hprogress
  have hold : oldSegment ∈ starvedWorld.recordings.rows :=
    List.mem_append_right _ (List.mem_singleton_self _)
  have hroot : WithinRoot { recordingsRoot := ["rec"] } starvedWorld := by
    intro row hrow
    rcases List.mem_append.mp hrow with hheld | hlast
    · obtain ⟨number, -, rfl⟩ := List.mem_map.mp hheld
      rfl
    · rw [List.mem_singleton.mp hlast]
      rfl
  obtain ⟨purged, reached, heval, row, hrow, hgone, -⟩ :=
    hprogress ⟨oldSegment, hold, by decide⟩
  obtain ⟨-, -, -, hrows⟩ := run_preserves hroot (fun hmode ↦ absurd hmode (by decide)) heval
  rw [hrows] at hgone
  have hsame := deletable_starved hrow (deletable_of_not_mem_purgeRows hrow hgone)
  exact hgone (hsame ▸ mem_purgeRows_of_not_inReach hold oldSegment_not_inReach)

end Purge

end VmsLite.Recordings
