import VmsLite.Recordings.Evaluation
import VmsLite.Recordings.StorageInvariants

/-!
# Completeness of the audit

`auditAndReconcile` finishes the deletions that a crash left half done and marks rows without a file
MISSING, so that a second audit finds nothing to do. It works on pages: the oldest two hundred
DELETE_PENDING rows, and the newest five hundred AVAILABLE ones. `Audited` is what it does to the
store when nothing fails, and `auditComplete_iff` says exactly which catalogues it repairs: those
whose half-done deletions and whose missing files lie on these pages.
-/

set_option autoImplicit false

namespace VmsLite.Recordings

open VmsLite.Async Program

/-! ### The sweep of pending deletions -/

theorem eval_fsAccessFn (path : Path) (world : World) :
    (world.onDisk path = true ∧
        eval answer calm (fsAccessFn path) world = (.ok (.ok ()), world)) ∨
      world.onDisk path = false ∧
        ∃ error, eval answer calm (fsAccessFn path) world = (.ok (.error error), world) := by
  have heval : eval answer calm (fsAccessFn path) world =
      (.ok (world.answerFile "access" path (fun _ ↦ ()) .ok), world) := rfl
  rcases World.answerFile_cases world "access" path (fun _ ↦ ()) .ok with
    ⟨file, hfile, hpath, hanswer⟩ | ⟨error, hanswer, hfail | ⟨-, hgone⟩⟩
  · exact Or.inl ⟨World.onDisk_iff.mpr ⟨file, hfile, hpath⟩, by rw [heval, hanswer]⟩
  · exact absurd hfail (by simp)
  · exact Or.inr ⟨hgone, error, by rw [heval, hanswer]⟩

/-- Without failures, a round of the sweep removes the row and the file. -/
theorem eval_reconcileSegment {world : World} {seg : Recording} (counts : ReconcileResult)
    (hseg : seg ∈ world.recordings.rows) :
    ∃ counts' reached, eval answer calm (reconcileSegment counts seg) world =
        (.ok counts', reached) ∧
      reached.recordings.rows = world.recordings.rows.filter (fun row ↦ row ≠ seg) ∧
      reached.files = world.files.filter (fun file ↦ file.path ≠ seg.filePath) ∧
      reached.cameras = world.cameras := by
  have hfind : (world.recordings.find seg.id).isSome = true := by
    rw [RecordingTable.find_eq_some_iff.mpr ⟨hseg, rfl⟩]
    rfl
  have hrows : (world.recordings.remove fun row ↦ row.id = seg.id).rows =
      world.recordings.rows.filter (fun row ↦ row ≠ seg) := by
    rw [← RecordingTable.filter_id_ne hseg]
    exact List.filter_congr fun row _ ↦ by simp
  unfold reconcileSegment
  rcases eval_fsAccessFn seg.filePath world with ⟨hdisk, haccess⟩ | ⟨hgone, error, haccess⟩
  · have hunlink : eval answer calm (fsUnlinkFn seg.filePath) world =
        (.ok (.ok ()), world.removeFile seg.filePath) := by
      have hanswer : world.answerUnlink seg.filePath .ok =
          (.ok (), world.removeFile seg.filePath) := if_pos hdisk
      show (Except.ok (world.answerUnlink seg.filePath .ok).1,
        (world.answerUnlink seg.filePath .ok).2) = _
      rw [hanswer]
    rw [bind_eq, eval_bind_of_ok answer calm haccess]
    simp only [bind_eq]
    rw [eval_catching, eval_bind_of_ok answer calm hunlink]
    simp only [orThrow_ok, done_bind]
    have hremoved : ((world.removeFile seg.filePath).recordings.find seg.id).isSome = true := hfind
    rw [eval_bind_of_ok answer calm (eval_deleteRecording calm_unhindered hremoved)]
    exact ⟨_, _, rfl, hrows, rfl, rfl⟩
  · rw [bind_eq, eval_bind_of_ok answer calm haccess]
    simp only [bind_eq]
    rw [eval_bind_of_ok answer calm (eval_deleteRecording calm_unhindered hfind)]
    refine ⟨_, _, rfl, hrows, (List.filter_eq_self.mpr fun file hfile ↦ ?_).symm, rfl⟩
    have hnone : ¬ ∃ file ∈ world.files, file.path = seg.filePath := by
      rw [← World.onDisk_iff, hgone]
      decide
    simpa using fun hpath ↦ hnone ⟨file, hfile, hpath⟩

/-- Without failures, the sweep removes the rows it reads, and their files. -/
theorem eval_reconcileSegments {pending : List Recording} (hnodup : pending.Nodup)
    (counts : ReconcileResult) {world : World}
    (hpending : ∀ seg ∈ pending, seg ∈ world.recordings.rows) :
    ∃ counts' reached, eval answer calm (pending.foldlM reconcileSegment counts) world =
        (.ok counts', reached) ∧
      reached.recordings.rows = world.recordings.rows.filter (fun row ↦ row ∉ pending) ∧
      reached.files = world.files.filter
        (fun file ↦ file.path ∉ pending.map Recording.filePath) ∧
      reached.cameras = world.cameras := by
  induction pending generalizing counts world with
  | nil => exact ⟨counts, world, rfl, by simp, by simp, rfl⟩
  | cons seg rest ih =>
    obtain ⟨hseg, hrest⟩ := List.nodup_cons.mp hnodup
    obtain ⟨counted, swept, heval, hrows, hfiles, hcameras⟩ :=
      eval_reconcileSegment counts (hpending seg List.mem_cons_self)
    have hkept : ∀ other ∈ rest, other ∈ swept.recordings.rows := by
      intro other hother
      rw [hrows, List.mem_filter]
      refine ⟨hpending other (List.mem_cons_of_mem _ hother), ?_⟩
      simpa using fun hsame : other = seg ↦ hseg (hsame ▸ hother)
    obtain ⟨counts', reached, heval', hrows', hfiles', hcameras'⟩ := ih hrest counted hkept
    refine ⟨counts', reached, ?_, ?_, ?_, hcameras'.trans hcameras⟩
    · rw [List.foldlM_cons, bind_eq, eval_bind_of_ok answer calm heval, heval']
    · rw [hrows', hrows, List.filter_filter]
      exact List.filter_congr fun row _ ↦ by simp [Bool.and_comm]
    · rw [hfiles', hfiles, List.filter_filter]
      exact List.filter_congr fun file _ ↦ by simp [Bool.and_comm]

/-! ### The check of the files -/

/-- What the audit writes into a row without a file. -/
def missingPatch : RowPatch where
  status := some .missing
  errorReason := some (some "File missing on disk during audit")

/-- A row after the audit has checked some rows against the disk. -/
def markMissing (checked : List Recording) (world : World) (row : Recording) : Recording :=
  if row ∈ checked ∧ row.status = .available ∧ world.onDisk row.filePath = false then
    missingPatch.apply row
  else row

@[simp] theorem markMissing_id (checked : List Recording) (world : World) (row : Recording) :
    (markMissing checked world row).id = row.id := by
  unfold markMissing
  split_ifs <;> rfl

/-- Without failures, a round of the audit marks the row when its file is missing. -/
theorem eval_auditRecording (validPaths : List String)
    (progress : List Path × InvariantAuditReport) {world : World} {row : Recording}
    (hrow : row ∈ world.recordings.rows) :
    ∃ progress' reached, eval answer calm (auditRecording validPaths progress row) world =
        (.ok progress', reached) ∧
      reached.recordings.rows = world.recordings.rows.map (markMissing [row] world) ∧
      reached.files = world.files := by
  obtain ⟨seenPaths, report⟩ := progress
  have hother : ¬ (row.status = .available ∧ world.onDisk row.filePath = false) →
      world.recordings.rows = world.recordings.rows.map (markMissing [row] world) := by
    intro hkept
    refine ((List.map_congr_left fun other _ ↦ ?_).trans (List.map_id _)).symm
    unfold markMissing
    refine if_neg fun hmark ↦ hkept ?_
    rw [← List.mem_singleton.mp hmark.1]
    exact hmark.2
  unfold auditRecording checkFile
  simp only [bind_eq]
  split_ifs with hstatus
  · rcases eval_fsAccessFn row.filePath world with ⟨hdisk, haccess⟩ | ⟨hgone, error, haccess⟩
    · rw [bind_assoc, eval_bind_of_ok answer calm haccess]
      refine ⟨_, _, rfl, hother fun hmark ↦ ?_, rfl⟩
      rw [hdisk] at hmark
      exact absurd hmark.2 (by decide)
    · rw [bind_assoc, eval_bind_of_ok answer calm haccess]
      refine ⟨_, _, rfl, ?_, rfl⟩
      refine List.map_congr_left fun other hmem ↦ ?_
      have hiff : other.id = row.id ↔ other = row :=
        ⟨RecordingTable.eq_of_id_eq hmem hrow, congrArg Recording.id⟩
      by_cases hsame : other = row
      · rw [if_pos (hiff.mpr hsame), markMissing, hsame,
          if_pos ⟨List.mem_singleton_self _, hstatus, hgone⟩]
        rfl
      · rw [if_neg (fun hid ↦ hsame (hiff.mp hid)), markMissing,
          if_neg fun hmark ↦ hsame (List.mem_singleton.mp hmark.1)]
  · exact ⟨_, _, rfl, hother fun hmark ↦ hstatus hmark.1, rfl⟩

/-- Without failures, the audit marks the rows it reads whose file is missing. -/
theorem eval_auditRecordings (validPaths : List String) {checked : List Recording}
    (hnodup : checked.Nodup) (progress : List Path × InvariantAuditReport) {world : World}
    (hchecked : ∀ row ∈ checked, row ∈ world.recordings.rows) :
    ∃ progress' reached,
      eval answer calm (checked.foldlM (auditRecording validPaths) progress) world =
        (.ok progress', reached) ∧
      reached.recordings.rows = world.recordings.rows.map (markMissing checked world) ∧
      reached.files = world.files := by
  induction checked generalizing progress world with
  | nil =>
    refine ⟨progress, world, rfl, ?_, rfl⟩
    refine ((List.map_congr_left fun row _ ↦ ?_).trans (List.map_id _)).symm
    exact if_neg fun hmark ↦ absurd hmark.1 List.not_mem_nil
  | cons row rest ih =>
    obtain ⟨hrow, hrest⟩ := List.nodup_cons.mp hnodup
    obtain ⟨audited, marked, heval, hrows, hfiles⟩ :=
      eval_auditRecording validPaths progress (hchecked row List.mem_cons_self)
    have hsame : ∀ other ∈ world.recordings.rows, other ≠ row →
        markMissing [row] world other = other := fun other _ hne ↦
      if_neg fun hmark ↦ hne (List.mem_singleton.mp hmark.1)
    have hkept : ∀ other ∈ rest, other ∈ marked.recordings.rows := by
      intro other hother
      have hmem := hchecked other (List.mem_cons_of_mem _ hother)
      rw [hrows, List.mem_map]
      exact ⟨other, hmem, hsame other hmem fun heq ↦ hrow (heq ▸ hother)⟩
    obtain ⟨progress', reached, heval', hrows', hfiles'⟩ := ih hrest audited hkept
    refine ⟨progress', reached, ?_, ?_, hfiles'.trans hfiles⟩
    · rw [List.foldlM_cons, bind_eq, eval_bind_of_ok answer calm heval, heval']
    · rw [hrows', hrows, List.map_map]
      refine List.map_congr_left fun other hother ↦ ?_
      have hdisk : marked.onDisk = world.onDisk := by
        funext path
        rw [World.onDisk, hfiles]
        rfl
      by_cases hfirst : other = row
      · rw [Function.comp_apply, hfirst]
        by_cases hmark : row.status = .available ∧ world.onDisk row.filePath = false
        · rw [show markMissing [row] world row = missingPatch.apply row from
            if_pos ⟨List.mem_singleton_self _, hmark⟩,
            show markMissing (row :: rest) world row = missingPatch.apply row from
              if_pos ⟨List.mem_cons_self, hmark⟩]
          exact if_neg fun hagain ↦ absurd hagain.2.1 (by simp [missingPatch])
        · rw [show markMissing [row] world row = row from if_neg fun hagain ↦ hmark hagain.2,
            show markMissing (row :: rest) world row = row from
              if_neg fun hagain ↦ hmark hagain.2]
          exact if_neg fun hagain ↦ hrow hagain.1
      · rw [Function.comp_apply, hsame other hother hfirst]
        unfold markMissing
        rw [hdisk]
        simp [hfirst]

/-! ### The audit -/

/-- The half-done deletions that an audit finishes. -/
def pendingPage (world : World) : List Recording :=
  world.recordings.findRecordingsByStatus .deletePending pendingSweepLimit

/-- The rows that an audit checks against the disk. -/
def auditPage (world : World) : List Recording := world.recordings.queryRecordings auditLimit

/-- What an audit without failures does to the store. -/
structure Audited (before after : World) : Prop where
  rows : after.recordings.rows =
    (before.recordings.rows.filter fun row ↦ row ∉ pendingPage before).map
      (markMissing (auditPage before) before)
  files : after.files =
    before.files.filter fun file ↦ file.path ∉ (pendingPage before).map Recording.filePath

theorem mem_pendingPage {world : World} {row : Recording} (hrow : row ∈ pendingPage world) :
    row ∈ world.recordings.rows ∧ row.status = .deletePending := by
  have hmem := mem_oldestFirst.mp (List.mem_of_mem_take hrow)
  simpa using List.mem_filter.mp hmem

theorem mem_auditPage {world : World} {row : Recording} (hrow : row ∈ auditPage world) :
    row ∈ world.recordings.rows ∧ row.status = .available := by
  have hmem := mem_newestFirst.mp (List.mem_of_mem_take hrow)
  simpa using List.mem_filter.mp hmem

/-- A row that the sweep leaves has its file if it had it before. -/
theorem onDisk_of_filter_files {before after : World} {row : Recording}
    (hfiles : after.files =
      before.files.filter fun file ↦ file.path ∉ (pendingPage before).map Recording.filePath)
    (hrow : row ∈ before.recordings.rows) (hkept : row ∉ pendingPage before) :
    after.onDisk row.filePath = before.onDisk row.filePath := by
  have hpath : row.filePath ∉ (pendingPage before).map Recording.filePath := by
    intro hmem
    obtain ⟨seg, hseg, hsame⟩ := List.mem_map.mp hmem
    exact hkept (RecordingTable.eq_of_filePath_eq (mem_pendingPage hseg).1 hrow hsame ▸ hseg)
  rw [Bool.eq_iff_iff, World.onDisk_iff, World.onDisk_iff, hfiles]
  constructor
  · rintro ⟨file, hfile, hsame⟩
    exact ⟨file, (List.mem_filter.mp hfile).1, hsame⟩
  · rintro ⟨file, hfile, hsame⟩
    refine ⟨file, List.mem_filter.mpr ⟨hfile, ?_⟩, hsame⟩
    simpa [hsame] using hpath

/-- The directories are only read. -/
theorem eval_auditDirectories (recordingsRoot : Path) (validPaths : List String)
    (report : InvariantAuditReport) (world : World) :
    ∃ report', eval answer calm (auditDirectories recordingsRoot validPaths report) world =
      (.ok report', world) := by
  unfold auditDirectories
  simp only [call, bind_eq, request_bind, eval_await, calm, answer]
  split_ifs <;> exact ⟨_, rfl⟩

/-- Without failures, the sweep of an audit finishes the deletions on its page. -/
theorem eval_reconcilePendingDeletions (world : World) :
    ∃ counts reached, eval answer calm reconcilePendingDeletions world = (.ok counts, reached) ∧
      reached.recordings.rows =
        world.recordings.rows.filter (fun row ↦ row ∉ pendingPage world) ∧
      reached.files = world.files.filter
        (fun file ↦ file.path ∉ (pendingPage world).map Recording.filePath) := by
  have hquery : eval answer calm (findRecordingsByStatus .deletePending pendingSweepLimit) world =
      (.ok (pendingPage world), world) := rfl
  have hnodup : (pendingPage world).Nodup :=
    ((List.perm_insertionSort _ _).nodup_iff.mpr
      (world.recordings.ids_nodup.of_map.filter _)).sublist (List.take_sublist _ _)
  obtain ⟨counts, reached, heval, hrows, hfiles, -⟩ :=
    eval_reconcileSegments hnodup {} fun seg hseg ↦ (mem_pendingPage hseg).1
  refine ⟨counts, reached, ?_, hrows, hfiles⟩
  unfold reconcilePendingDeletions
  rw [bind_eq, eval_bind_of_ok answer calm hquery, heval]

/-- Without failures, an audit finishes the deletions on one page and checks the rows on another. -/
theorem eval_auditAndReconcile (recordingsRoot : Path) (world : World) :
    ∃ report reached, eval answer calm (auditAndReconcile recordingsRoot) world =
        (.ok report, reached) ∧ Audited world reached := by
  obtain ⟨counts, swept, hsweep, hrows, hfiles⟩ := eval_reconcilePendingDeletions world
  have hpage : auditPage swept = auditPage world := by
    have havailable : swept.recordings.rows.filter (fun row ↦ row.status = .available) =
        world.recordings.rows.filter fun row ↦ row.status = .available := by
      rw [hrows, List.filter_filter]
      refine List.filter_congr fun row _ ↦ ?_
      by_cases hstatus : row.status = .available
      · have hkept : row ∉ pendingPage world := fun hmem ↦ by
          rw [(mem_pendingPage hmem).2] at hstatus
          exact absurd hstatus (by decide)
        simp [hstatus, hkept]
      · simp [hstatus]
    unfold auditPage RecordingTable.queryRecordings
    rw [havailable]
  have hnodup : (auditPage swept).Nodup :=
    ((List.perm_insertionSort _ _).nodup_iff.mpr
      (swept.recordings.ids_nodup.of_map.filter _)).sublist (List.take_sublist _ _)
  have hquery : eval answer calm (request (.queryRecordings auditLimit) : Async _) swept =
      (.ok (.ok (auditPage swept)), swept) := rfl
  obtain ⟨⟨seenPaths, report⟩, audited, haudit, hmarked, hkept⟩ :=
    eval_auditRecordings (validMediaPaths swept.cameras) hnodup
      ([],
        { totalCatalogued := (auditPage swept).length
          reconciledCount := counts.recoveredCount })
      fun row hrow ↦ (mem_auditPage hrow).1
  obtain ⟨reported, hdirectories⟩ := eval_auditDirectories recordingsRoot
    (validMediaPaths swept.cameras) report audited
  have heval : ∃ report reached, eval answer calm (auditAndReconcile recordingsRoot) world =
      (.ok report, reached) ∧ KeepsStore audited reached := by
    unfold auditAndReconcile
    rw [bind_eq, eval_bind_of_ok answer calm hsweep, bind_eq, call,
      eval_bind_of_ok answer calm hquery]
    simp only [call, bind_eq, request_bind, orThrow_ok, done_bind, eval_await, calm, answer,
      Outcome.orFail]
    rw [eval_bind_of_ok answer _ haudit, eval_bind_of_ok answer _ hdirectories]
    exact ⟨_, _, rfl, rfl, rfl⟩
  obtain ⟨report', reached, heval, hstore⟩ := heval
  refine ⟨report', reached, heval, ?_, ?_⟩
  · rw [hstore.1, hmarked, hrows, hpage]
    refine List.map_congr_left fun row hrow ↦ ?_
    obtain ⟨hmem, hpending⟩ := List.mem_filter.mp hrow
    unfold markMissing
    rw [onDisk_of_filter_files hfiles hmem (by simpa using hpending)]
  · rw [hstore.2, hkept, hfiles]

/-! ### Completeness -/

/-- An audit leaves no AVAILABLE row without a file and no DELETE_PENDING row, and a second one
changes nothing. -/
def AuditComplete (recordingsRoot : Path) (world : World) : Prop :=
  ∃ report reached, eval answer calm (auditAndReconcile recordingsRoot) world =
      (.ok report, reached) ∧
    (∀ row ∈ reached.recordings.rows, row.status = .available →
      reached.onDisk row.filePath = true) ∧
    (∀ row ∈ reached.recordings.rows, row.status ≠ .deletePending) ∧
    ∃ again second, eval answer calm (auditAndReconcile recordingsRoot) reached =
      (.ok again, second) ∧ KeepsStore reached second

/-- Half-done deletions fit on the page of the sweep, and the AVAILABLE rows without a file are on
that of the audit. -/
def FitsPages (world : World) : Prop :=
  (world.recordings.rows.filter fun row ↦ row.status = .deletePending).length ≤
      pendingSweepLimit ∧
    ∀ row ∈ world.recordings.rows, row.status = .available →
      world.onDisk row.filePath = false → row ∈ auditPage world

section Complete

variable {before after : World}

/-- A row that is off the pages stays as it is. -/
theorem Audited.mem_of_off_pages (haudited : Audited before after) {row : Recording}
    (hrow : row ∈ before.recordings.rows) (hpending : row ∉ pendingPage before)
    (hchecked : row ∉ auditPage before) : row ∈ after.recordings.rows := by
  rw [haudited.rows, List.mem_map]
  exact ⟨row, List.mem_filter.mpr ⟨hrow, by simpa using hpending⟩,
    if_neg fun hmark ↦ hchecked hmark.1⟩

/-- An audit that leaves no row to repair had all of them on its pages. -/
theorem Audited.fitsPages (haudited : Audited before after)
    (havailable : ∀ row ∈ after.recordings.rows, row.status = .available →
      after.onDisk row.filePath = true)
    (hdone : ∀ row ∈ after.recordings.rows, row.status ≠ .deletePending) :
    FitsPages before := by
  constructor
  · have hsubset : (before.recordings.rows.filter fun row ↦ row.status = .deletePending) ⊆
        pendingPage before := by
      intro row hrow
      obtain ⟨hmem, hstatus⟩ := List.mem_filter.mp hrow
      rw [decide_eq_true_eq] at hstatus
      by_contra hpending
      refine hdone row (haudited.mem_of_off_pages hmem hpending fun hchecked ↦ ?_) hstatus
      rw [(mem_auditPage hchecked).2] at hstatus
      exact absurd hstatus (by decide)
    have hnodup := before.recordings.ids_nodup.of_map.filter
      fun row : Recording ↦ row.status = .deletePending
    exact (List.subperm_of_subset hnodup hsubset).length_le.trans (List.length_take_le _ _)
  · intro row hrow hstatus hgone
    by_contra hchecked
    have hpending : row ∉ pendingPage before := fun hmem ↦ by
      rw [(mem_pendingPage hmem).2] at hstatus
      exact absurd hstatus (by decide)
    have hdisk := havailable row (haudited.mem_of_off_pages hrow hpending hchecked) hstatus
    rw [onDisk_of_filter_files haudited.files hrow hpending, hgone] at hdisk
    exact absurd hdisk (by decide)

/-- The pages of a catalogue that fits them hold every half-done deletion. -/
theorem FitsPages.mem_pendingPage (hfits : FitsPages before) {row : Recording}
    (hrow : row ∈ before.recordings.rows) (hstatus : row.status = .deletePending) :
    row ∈ pendingPage before := by
  unfold pendingPage RecordingTable.findRecordingsByStatus
  rw [List.take_of_length_le (by rw [length_oldestFirst]; exact hfits.1), mem_oldestFirst,
    List.mem_filter]
  exact ⟨hrow, by simpa using hstatus⟩

/-- What the rows are that an audit leaves of a catalogue that fits its pages. -/
theorem Audited.row_cases (haudited : Audited before after) (hfits : FitsPages before)
    {row : Recording} (hrow : row ∈ after.recordings.rows) :
    row.status ≠ .deletePending ∧
      (row.status = .available → after.onDisk row.filePath = true) := by
  rw [haudited.rows, List.mem_map] at hrow
  obtain ⟨old, hold, rfl⟩ := hrow
  obtain ⟨hmem, hpending⟩ := List.mem_filter.mp hold
  have hpending : old ∉ pendingPage before := by simpa using hpending
  unfold markMissing
  split_ifs with hmark
  · exact ⟨by simp [missingPatch], fun hstatus ↦ absurd hstatus (by simp [missingPatch])⟩
  · refine ⟨fun hstatus ↦ hpending (hfits.mem_pendingPage hmem hstatus), fun hstatus ↦ ?_⟩
    rw [onDisk_of_filter_files haudited.files hmem hpending]
    by_contra hgone
    have hgone : before.onDisk old.filePath = false := by simpa using hgone
    exact hmark ⟨hfits.2 old hmem hstatus hgone, hstatus, hgone⟩

/-- An audit of a catalogue with nothing to repair changes nothing. -/
theorem Audited.keepsStore (haudited : Audited before after)
    (hdone : ∀ row ∈ before.recordings.rows, row.status ≠ .deletePending)
    (havailable : ∀ row ∈ before.recordings.rows, row.status = .available →
      before.onDisk row.filePath = true) : KeepsStore before after := by
  have hpage : pendingPage before = [] := List.eq_nil_iff_forall_not_mem.mpr fun row hrow ↦
    hdone row (VmsLite.Recordings.mem_pendingPage hrow).1
      (VmsLite.Recordings.mem_pendingPage hrow).2
  constructor
  · rw [haudited.rows, hpage]
    have hall : before.recordings.rows.filter (fun row ↦ row ∉ ([] : List Recording)) =
        before.recordings.rows := List.filter_eq_self.mpr fun _ _ ↦ by simp
    rw [hall]
    refine (List.map_congr_left fun row hrow ↦ ?_).trans (List.map_id _)
    refine if_neg fun hmark ↦ ?_
    rw [havailable row hrow hmark.2.1] at hmark
    exact absurd hmark.2.2 (by decide)
  · rw [haudited.files, hpage]
    exact List.filter_eq_self.mpr fun _ _ ↦ by simp

end Complete

/-- The audit repairs exactly the catalogues that fit its pages. -/
theorem auditComplete_iff (recordingsRoot : Path) (world : World) :
    AuditComplete recordingsRoot world ↔ FitsPages world := by
  constructor
  · rintro ⟨report, reached, heval, havailable, hdone, -⟩
    obtain ⟨report', reached', heval', haudited⟩ := eval_auditAndReconcile recordingsRoot world
    obtain ⟨-, rfl⟩ := Prod.mk.inj (heval.symm.trans heval')
    exact haudited.fitsPages havailable hdone
  · intro hfits
    obtain ⟨report, reached, heval, haudited⟩ := eval_auditAndReconcile recordingsRoot world
    obtain ⟨again, second, heval', hsecond⟩ := eval_auditAndReconcile recordingsRoot reached
    have hrows : ∀ row ∈ reached.recordings.rows, row.status ≠ .deletePending ∧
        (row.status = .available → reached.onDisk row.filePath = true) :=
      fun row hrow ↦ haudited.row_cases hfits hrow
    have hdone := fun row hrow ↦ (hrows row hrow).1
    have havailable := fun row hrow ↦ (hrows row hrow).2
    exact ⟨report, reached, heval, havailable, hdone, again, second, heval',
      hsecond.keepsStore hdone havailable⟩

/-- Five hundred and one AVAILABLE segments, none of them on the disk. -/
def lostDiskWorld : World where
  recordings :=
    { rows := (List.range 501).map numberedSegment
      nextId := 501
      ids_nodup := by
        rw [List.map_map]
        exact (List.map_id (List.range 501)).symm ▸ List.nodup_range
      paths_nodup := by
        rw [List.map_map]
        exact List.nodup_range.map fun _ _ hsame ↦ numberedSegment_filePath_inj hsame
      ids_lt := by
        intro row hrow
        obtain ⟨number, hnumber, rfl⟩ := List.mem_map.mp hrow
        exact List.mem_range.mp hnumber }

theorem lostDiskWorld_rows :
    lostDiskWorld.recordings.rows = (List.range 501).map numberedSegment := by
  rw [lostDiskWorld]

/-- The audit reads five hundred of them, and the oldest stays AVAILABLE without a file. -/
theorem not_auditComplete_lostDisk : ¬ AuditComplete ["rec"] lostDiskWorld := by
  rintro ⟨report, reached, heval, havailable, hdone, -⟩
  obtain ⟨report', reached', heval', haudited⟩ := eval_auditAndReconcile ["rec"] lostDiskWorld
  obtain ⟨-, rfl⟩ := Prod.mk.inj (heval.symm.trans heval')
  have hfits := haudited.fitsPages havailable hdone
  have hsubset : lostDiskWorld.recordings.rows ⊆ auditPage lostDiskWorld := by
    intro row hrow
    have hstatus : row.status = .available := by
      rw [lostDiskWorld_rows] at hrow
      obtain ⟨number, -, rfl⟩ := List.mem_map.mp hrow
      rfl
    exact hfits.2 row hrow hstatus List.any_nil
  have hpage : (auditPage lostDiskWorld).length ≤ 500 := List.length_take_le _ _
  have hlength := (List.subperm_of_subset lostDiskWorld.recordings.ids_nodup.of_map
    hsubset).length_le.trans hpage
  rw [lostDiskWorld_rows, List.length_map, List.length_range] at hlength
  omega

end VmsLite.Recordings
