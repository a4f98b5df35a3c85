import VmsLite.Recordings.PurgePages

/-!
# How a pass ends

`examinedPass` is a pass that also returns the batches which it hands to `retention.deletable`;
without them it is `purgePass` (`examinedPass_bind`). How such a pass ends, over any refusals and
any readings, is an invariant of its iterations (`PassEnds`): the batches are the pages of its order
as far as the readings let it go, and the flag says that it came to the end and left something
behind.
-/

set_option autoImplicit false

namespace VmsLite.Recordings

open VmsLite.Async Program Paging

namespace StorageController

variable (controller : StorageController)

/-- `purgePass`, with the batches that it hands to `retention.deletable`. -/
def examinedPass (opts : PurgeOptions) (statuses : Option (List SegmentStatus)) :
    ℕ → PurgeProgress → Async ((Bool × PurgeProgress) × List (List Recording))
  | 0, progress => pure ((false, progress), [])
  | iterations + 1, progress => do
    let candidates ← getOldestRecordings controller.batchSize progress.skip statuses
    if candidates.isEmpty then
      pure ((false,
        { progress with allRemainingProtected := statuses.isNone && 0 < progress.skip }), [])
    else if ← continues opts then do
      let deletable ← controller.retention.deletable candidates opts.mode opts.overrideDays
      let progress ← candidates.foldlM
        (controller.deleteCandidate (deletable.map Recording.id))
        { progress with batchDeleted := 0 }
      if progress.batchDeleted = 0 && candidates.length < controller.batchSize then
        pure ((false, { progress with allRemainingProtected := statuses.isNone }), [candidates])
      else do
        let (ended, later) ← examinedPass opts statuses iterations progress
        pure (ended, candidates :: later)
    else pure ((true, { progress with allRemainingProtected := false }), [])

/-- Without the batches it is the pass. -/
theorem examinedPass_bind (opts : PurgeOptions) (statuses : Option (List SegmentStatus))
    (iterations : ℕ) (progress : PurgeProgress) :
    (controller.examinedPass opts statuses iterations progress).bind (fun result ↦ done result.1) =
      controller.purgePass opts statuses iterations progress := by
  induction iterations generalizing progress with
  | zero => rfl
  | succ iterations ih =>
    unfold examinedPass purgePass
    simp only [bind_eq, bind_assoc]
    congr 1
    funext candidates
    split_ifs
    · rfl
    simp only [bind_assoc]
    congr 1
    funext goesOn
    split_ifs
    · simp only [bind_assoc]
      congr 1
      funext deletable
      congr 1
      funext counted
      split_ifs
      · rfl
      · rw [bind_assoc]
        exact ih counted
    · rfl

end StorageController

/-! ### What is asked before a page -/

/-- How many readings a purge takes before a page. -/
def Purge.cost : Purge → ℕ
  | age _ => 0
  | capacity => 1

namespace PurgePass

variable (pass : PurgePass)

/-- Whether the pass goes on, when it has taken so many readings. -/
def goesOn (taken : ℕ) : Bool :=
  match pass.purge with
  | .age _ => true
  | .capacity => pass.controller.targetThresholdPercent < usedPercentBy (pass.readings taken)

variable {pass}

theorem Looked.undisturbed {looked : List RecordingId} {world reached : World}
    (hlooked : pass.Looked looked world) (hundisturbed : Undisturbed world reached)
    (hrisk : Recordings.riskCount reached = Recordings.riskCount world) :
        pass.Looked looked reached where
  rows := (congrArg RecordingTable.rows hundisturbed.recordings).trans hlooked.rows
  bookmarks := hundisturbed.bookmarks.trans hlooked.bookmarks
  exportJobs := hundisturbed.exportJobs.trans hlooked.exportJobs
  now := hundisturbed.now.trans hlooked.now
  onDisk := fun path ↦ by
    rw [World.onDisk, hundisturbed.files]
    exact hlooked.onDisk path
  riskCount := hrisk.trans hlooked.riskCount

variable (pass) in
/-- What a pass is told before a page. -/
theorem eval_continues (world : World) (ledger : PurgeLedger) :
    ∃ reached, eval (withLedger answer notePurge) (rolling pass.refusals pass.readings)
        (StorageController.continues (pass.purge.opts pass.controller)) (world, ledger) =
          (.ok (pass.goesOn ledger.taken), reached,
            { ledger with taken := ledger.taken + pass.purge.cost }) ∧
      Undisturbed world reached ∧ riskCount reached = riskCount world := by
  cases hpurge : pass.purge with
  | age overrideDays =>
    refine ⟨world, ?_, Undisturbed.refl world, rfl⟩
    simp only [goesOn, hpurge]
    rfl
  | capacity =>
    obtain ⟨metrics, reached, heval, hused, hundisturbed, hrisk⟩ :=
      eval_getStorageMetrics_rolling pass.refusals pass.readings pass.controller world ledger
    refine ⟨reached, ?_, hundisturbed, hrisk⟩
    simp only [goesOn, hpurge, ← hused]
    exact eval_bind_of_ok _ _ heval

/-- The page that a pass asks for. -/
theorem eval_getOldestRecordings_rolling (limit skip : ℕ) (statuses : Option (List SegmentStatus))
    (world : World) (ledger : PurgeLedger) :
    eval (withLedger answer notePurge) (rolling pass.refusals pass.readings)
        (getOldestRecordings limit skip statuses) (world, ledger) =
      (.ok (((passOrder statuses world.recordings.rows).drop skip).take limit), world,
        { ledger with statuses }) := rfl

/-- What may be deleted does not change while a pass looks at rows. -/
theorem Looked.deletable_eq {looked : List RecordingId} {world : World}
    (hlooked : pass.Looked looked world) :
    pass.purge.deletable pass.controller world =
        pass.purge.deletable pass.controller pass.origin := by
  funext row
  cases hpurge : pass.purge <;>
    simp only [Purge.deletable, RetentionPolicy.mayDelete, RetentionPolicy.holds, hlooked.bookmarks,
      hlooked.exportJobs, hlooked.now]

section Batch

variable {looked : List RecordingId} {gap : ℕ} {seen rest : List Recording}
  {progress : PurgeProgress}

/-- A batch that the pass goes on with: what may be deleted of it, and the deletion. -/
theorem At.eval_batch (hat : pass.At looked gap seen rest progress.skip) {world : World}
    (hlooked : pass.Looked looked world) (ledger : PurgeLedger)
    (hledger : ledger.statuses = pass.statuses) {page : List Recording}
    (hpage : page.Sublist rest) :
    ∃ deletable reached, eval (withLedger answer notePurge) (rolling pass.refusals pass.readings)
        (pass.controller.retention.deletable page (pass.purge.opts pass.controller).mode
          (pass.purge.opts pass.controller).overrideDays) (world, ledger) =
            (.ok deletable, world, ledger) ∧
      eval (withLedger answer notePurge) (rolling pass.refusals pass.readings)
        (page.foldlM (pass.controller.deleteCandidate (deletable.map Recording.id))
          { progress with batchDeleted := 0 }) (world, ledger) =
            (.ok (pass.counted { progress with batchDeleted := 0 } page), reached, ledger) ∧
      pass.Looked (looked ++ page.map Recording.id) reached := by
  have hrows : ∀ row ∈ page, row ∈ pass.origin.recordings.rows := fun row hrow ↦
    hat.mem_rows (hpage.subset hrow)
  have hasks : (pass.controller.retention.deletable page (pass.purge.opts pass.controller).mode
      (pass.purge.opts pass.controller).overrideDays).Uses (Call.isNoted · = false) :=
    (pass.controller.retention.deletable_asks _ _ _).mono fun _ ↦ Call.not_isNoted_of_asksHolds
  have hdeletable := pass.controller.retention.eval_deletable
    (refusing_unhindered pass.refusal) page
    (pass.purge.opts pass.controller).mode (pass.purge.opts pass.controller).overrideDays world
  rw [Purge.mayDelete_eq, hlooked.deletable_eq] at hdeletable
  obtain ⟨reached, hbatch, hreached⟩ := hlooked.eval_deleteCandidates hrows
    (fun row hrow ↦ hat.fresh row (hpage.subset hrow)) (hat.ids_nodup.2.1.sublist (hpage.map _))
    (fun row hrow ↦ mem_deletable_ids hrows hrow) { progress with batchDeleted := 0 }
  refine ⟨page.filter (pass.purge.deletable pass.controller pass.origin), reached, ?_, ?_, hreached⟩
  · rw [eval_rolling hasks, hledger]
    exact congrArg (fun result ↦ (result.1, result.2, ledger)) hdeletable
  · rw [eval_rolling (Uses.foldlM fun progress segment _ ↦
      pass.controller.deleteCandidate_uses (fun _ ↦ Call.not_isNoted_of_deletes) _ _ _), hledger]
    exact congrArg (fun result ↦ (result.1, result.2, ledger)) hbatch

end Batch

variable (pass) in
/-- How a pass ends that goes on with `rest`, `gap` rows further on: the batches it looks at, what
it has freed, whether it was told to stop, and its flag. -/
structure PassEnds (looked : List RecordingId) (iterations gap : ℕ) (rest : List Recording)
    (progress : PurgeProgress) (taken : ℕ)
    (ended : (Bool × PurgeProgress) × List (List Recording)) (reached : World × PurgeLedger) :
        Prop where
  batches : ended.2 = heeded pass.goesOn pass.purge.cost taken
    (pages pass.controller.batchSize pass.loses iterations gap rest)
  looked : pass.Looked (looked ++ ended.2.flatten.map Recording.id) reached.1
  freedBytes : ended.1.2.freedBytes =
    progress.freedBytes + totalBytes (ended.2.flatten.filter pass.unlinks)
  told : ended.1.1 = decide (ended.2.length <
    (pages pass.controller.batchSize pass.loses iterations gap rest).length)
  asked : reached.2.taken = taken + pass.purge.cost * (ended.2.length + if ended.1.1 then 1 else 0)
  notHeld : pass.statuses ≠ none → ended.1.2.allRemainingProtected = false
  held : pass.statuses = none → (ended.1.2.allRemainingProtected = true ↔ ended.1.1 = false ∧
    ComesToEnd pass.controller.batchSize pass.deletes iterations rest ∧
      (0 < progress.skip ∨ ∃ row ∈ rest, pass.deletes row = false))

section Ends

variable {looked : List RecordingId} {gap : ℕ} {rest : List Recording} {progress : PurgeProgress}
  {iterations taken : ℕ} {world : World} {ledger : PurgeLedger}

/-- A pass whose iterations are used up. -/
theorem PassEnds.zero (hlooked : pass.Looked looked world)
    (hflag : progress.allRemainingProtected = false) :
    pass.PassEnds looked 0 gap rest progress ledger.taken ((false, progress), [])
        (world, ledger) where
  batches := rfl
  looked := by rwa [List.flatten_nil, List.map_nil, List.append_nil]
  freedBytes := rfl
  told := by simp [pages]
  asked := by simp
  notHeld := fun _ ↦ hflag
  held := fun _ ↦ by simp [hflag, ComesToEnd]

/-- A pass that finds no page. -/
theorem PassEnds.empty (hlooked : pass.Looked looked world) (hgap : pass.statuses = none → gap = 0)
    (hskip : 0 < pass.controller.batchSize ∨ progress.skip = 0)
    (hpage : (rest.drop gap).take pass.controller.batchSize = []) (htaken : ledger.taken = taken) :
    pass.PassEnds looked (iterations + 1) gap rest progress taken
      ((false, { progress with
          allRemainingProtected := pass.statuses.isNone && 0 < progress.skip }), [])
      (world, ledger) where
  batches := by rw [pages_of_page_eq_nil _ hpage, heeded]
  looked := by rwa [List.flatten_nil, List.map_nil, List.append_nil]
  freedBytes := rfl
  told := by simp [pages_of_page_eq_nil _ hpage]
  asked := by simp [htaken]
  notHeld := fun hstatuses ↦ by simp [hstatuses]
  held := fun hstatuses ↦ by
    rw [hgap hstatuses, List.drop_zero] at hpage
    rcases List.take_eq_nil_iff.mp hpage with hzero | rfl
    · -- No page has any rows, so none was left behind
      have hnone : progress.skip = 0 := hskip.resolve_left (by omega)
      have hend : ComesToEnd pass.controller.batchSize pass.deletes (iterations + 1) rest →
          rest = [] := by
        rw [hzero]
        simp [ComesToEnd]
      simp only [hstatuses, hnone]
      constructor
      · simp
      · rintro ⟨-, hcomes, hbehind⟩
        simp [hend hcomes] at hbehind
    · simp [hstatuses, ComesToEnd]

/-- A pass that is told to stop. -/
theorem PassEnds.stopped (hlooked : pass.Looked looked world) (hstop : pass.goesOn taken = false)
    (hpage : (rest.drop gap).take pass.controller.batchSize ≠ [])
    (htaken : ledger.taken = taken + pass.purge.cost) :
    pass.PassEnds looked (iterations + 1) gap rest progress taken
      ((true, { progress with allRemainingProtected := false }), []) (world, ledger) where
  batches := by rw [pages_of_page_ne_nil _ hpage, heeded, hstop, if_neg Bool.false_ne_true]
  looked := by rwa [List.flatten_nil, List.map_nil, List.append_nil]
  freedBytes := rfl
  told := by simp [pages_of_page_ne_nil _ hpage]
  asked := by simp [htaken]
  notHeld := fun _ ↦ rfl
  held := fun _ ↦ by simp

section Page

variable (hgoesOn : pass.goesOn taken = true)
  (hpage : (rest.drop gap).take pass.controller.batchSize ≠ [])
include hgoesOn hpage

/-- A pass that has found the last page and deleted nothing of it. -/
theorem PassEnds.lastPage
    (hlooked : pass.Looked
      (looked ++ ((rest.drop gap).take pass.controller.batchSize).map Recording.id) world)
    (hgap : pass.statuses = none → gap = 0)
    (hnone : ((rest.drop gap).take pass.controller.batchSize).countP pass.deletes = 0)
    (hshort : ((rest.drop gap).take pass.controller.batchSize).length < pass.controller.batchSize)
    (htaken : ledger.taken = taken + pass.purge.cost) :
    pass.PassEnds looked (iterations + 1) gap rest progress taken
      ((false, { pass.counted { progress with batchDeleted := 0 }
          ((rest.drop gap).take pass.controller.batchSize) with
        allRemainingProtected := pass.statuses.isNone }),
        [(rest.drop gap).take pass.controller.batchSize]) (world, ledger) where
  batches := by
    rw [pages_of_page_ne_nil _ hpage, heeded, hgoesOn, if_pos rfl, pages_of_short hshort, heeded]
  looked := by rwa [List.flatten_singleton]
  freedBytes := by rw [List.flatten_singleton]; rfl
  told := by simp [pages_of_page_ne_nil _ hpage, pages_of_short hshort]
  asked := by simp [htaken]
  notHeld := fun hstatuses ↦ by simpa using Option.isSome_iff_ne_none.mpr hstatuses
  held := fun hstatuses ↦ by
    rw [hgap hstatuses, List.drop_zero] at hnone hshort hpage
    have hall : rest.take pass.controller.batchSize = rest := by
      rw [List.length_take] at hshort
      exact List.take_of_length_le (by omega)
    have hkept : ∀ row ∈ rest, pass.deletes row = false := by
      rw [hall, List.countP_eq_zero] at hnone
      simpa using hnone
    obtain ⟨row, hrow⟩ := List.exists_mem_of_ne_nil _ hpage
    simp only [hstatuses, Option.isNone_none, true_iff]
    exact ⟨trivial, comesToEnd_of_short hshort hkept iterations,
      Or.inr ⟨row, List.mem_of_mem_take hrow, hkept row (List.mem_of_mem_take hrow)⟩⟩

/-- A pass that goes on after a page. -/
theorem PassEnds.step
    (hgap : pass.statuses = none → gap = 0)
    (hmore : ¬ (((rest.drop gap).take pass.controller.batchSize).countP pass.deletes = 0 ∧
      ((rest.drop gap).take pass.controller.batchSize).length < pass.controller.batchSize))
    {ended : (Bool × PurgeProgress) × List (List Recording)} {reached : World × PurgeLedger}
    (hends : pass.PassEnds
      (looked ++ ((rest.drop gap).take pass.controller.batchSize).map Recording.id) iterations
      (((rest.drop gap).take pass.controller.batchSize).countP pass.loses)
      (rest.drop (gap + pass.controller.batchSize))
      (pass.counted { progress with batchDeleted := 0 }
        ((rest.drop gap).take pass.controller.batchSize)) (taken + pass.purge.cost) ended reached) :
    pass.PassEnds looked (iterations + 1) gap rest progress taken
      (ended.1, (rest.drop gap).take pass.controller.batchSize :: ended.2) reached where
  batches := by
    rw [pages_of_page_ne_nil _ hpage, heeded, hgoesOn, if_pos rfl, hends.batches]
  looked := by
    rw [List.flatten_cons, List.map_append, ← List.append_assoc]
    exact hends.looked
  freedBytes := by
    rw [hends.freedBytes, List.flatten_cons]
    simp [counted, Nat.add_assoc]
  told := by
    simp [hends.told, pages_of_page_ne_nil _ hpage]
  asked := by
    rw [hends.asked, List.length_cons]
    simp only [Nat.add_right_comm ended.2.length 1, Nat.mul_succ]
    omega
  notHeld := hends.notHeld
  held := fun hstatuses ↦ by
    have hheld := hends.held hstatuses
    rw [hgap hstatuses, List.drop_zero, Nat.zero_add] at hheld
    rw [hgap hstatuses, List.drop_zero] at hmore hpage
    have hbehind : (0 < progress.skip ∨ ∃ row ∈ rest, pass.deletes row = false) ↔
        0 < progress.skip + (rest.take pass.controller.batchSize).countP
          (fun row ↦ !pass.deletes row) ∨
          ∃ row ∈ rest.drop pass.controller.batchSize, pass.deletes row = false := by
      have hpageBehind : 0 <
        (rest.take pass.controller.batchSize).countP (fun row ↦ !pass.deletes row) ↔
          ∃ row ∈ rest.take pass.controller.batchSize, pass.deletes row = false := by
        simp [List.countP_pos_iff]
      rw [Nat.add_pos_iff_pos_or_pos, hpageBehind, or_assoc, ← exists_or]
      simp only [← or_and_right, ← List.mem_append, List.take_append_drop]
    rw [hbehind, comesToEnd_succ hpage hmore]
    exact hheld

end Page

end Ends

/-- How a pass ends, from any place in its order. -/
theorem At.eval_examinedPass {looked : List RecordingId} {gap : ℕ} {seen rest : List Recording}
    {progress : PurgeProgress} (hat : pass.At looked gap seen rest progress.skip) {world : World}
    (hlooked : pass.Looked looked world) (hflag : progress.allRemainingProtected = false)
    (hgap : pass.statuses = none → gap = 0)
    (hskip : 0 < pass.controller.batchSize ∨ progress.skip = 0) (ledger : PurgeLedger)
    (iterations : ℕ) :
    ∃ ended reached, eval (withLedger answer notePurge) (rolling pass.refusals pass.readings)
        (pass.controller.examinedPass (pass.purge.opts pass.controller) pass.statuses
          iterations progress)
          (world, ledger) = (.ok ended, reached) ∧
      pass.PassEnds looked iterations gap rest progress ledger.taken ended reached := by
  induction iterations generalizing looked gap seen rest progress world ledger with
  | zero => exact ⟨_, _, rfl, PassEnds.zero hlooked hflag⟩
  | succ iterations ih =>
    unfold StorageController.examinedPass
    rw [bind_eq, eval_bind_of_ok _ _ (eval_getOldestRecordings_rolling _ _ _ world ledger),
      hat.page hlooked]
    by_cases hpage : (rest.drop gap).take pass.controller.batchSize = []
    · rw [if_pos (List.isEmpty_iff.mpr hpage)]
      exact ⟨_, _, rfl, PassEnds.empty hlooked hgap hskip hpage rfl⟩
    rw [if_neg (mt List.isEmpty_iff.mp hpage)]
    obtain ⟨asked, hasked, hundisturbed, hrisk⟩ :=
      eval_continues pass world { ledger with statuses := pass.statuses }
    rw [bind_eq, eval_bind_of_ok _ _ hasked]
    have hlookedAsked := hlooked.undisturbed hundisturbed hrisk
    cases hgoesOn : pass.goesOn ledger.taken with
    | false => exact ⟨_, _, rfl, PassEnds.stopped hlookedAsked hgoesOn hpage rfl⟩
    | true =>
      obtain ⟨deletable, reached, hdeletable, hbatch, hreached⟩ := hat.eval_batch hlookedAsked
        { ledger with statuses := pass.statuses, taken := ledger.taken + pass.purge.cost } rfl
        ((List.take_sublist _ _).trans (List.drop_sublist _ _))
      simp only [if_true, bind_eq]
      rw [eval_bind_of_ok _ _ hdeletable, eval_bind_of_ok _ _ hbatch]
      have hsize : 0 < pass.controller.batchSize :=
        Nat.pos_of_ne_zero fun hzero ↦ hpage (by rw [hzero, List.take_zero])
      by_cases hlast : ((rest.drop gap).take pass.controller.batchSize).countP pass.deletes = 0 ∧
          ((rest.drop gap).take pass.controller.batchSize).length < pass.controller.batchSize
      · rw [if_pos (by simpa [counted] using hlast)]
        exact ⟨_, _, rfl, PassEnds.lastPage hgoesOn hpage hreached hgap hlast.1 hlast.2 rfl⟩
      · rw [if_neg (by simpa [counted] using hlast)]
        have hgapLater : pass.statuses = none →
            ((rest.drop gap).take pass.controller.batchSize).countP pass.loses = 0 := by
          intro hstatuses
          simp [List.countP_eq_zero, loses_eq_false hstatuses]
        have hnext : pass.At _ _ _ _ (pass.counted { progress with batchDeleted := 0 }
            ((rest.drop gap).take pass.controller.batchSize)).skip := hat.next hpage
        obtain ⟨ended, last, heval, hends⟩ := ih hnext hreached hflag hgapLater (Or.inl hsize)
          { ledger with statuses := pass.statuses, taken := ledger.taken + pass.purge.cost }
        rw [eval_bind_of_ok _ _ heval]
        exact ⟨_, _, rfl, hends.step hgoesOn hpage hgap hlast⟩

variable (pass) in
/-- How a whole pass ends. -/
theorem eval_examinedPass {progress : PurgeProgress}
    (hflag : progress.allRemainingProtected = false)
    (ledger : PurgeLedger) :
    ∃ ended reached, eval (withLedger answer notePurge) (rolling pass.refusals pass.readings)
        (pass.controller.examinedPass (pass.purge.opts pass.controller) pass.statuses
          pass.controller.maxIterations { progress with skip := 0 }) (pass.origin, ledger) =
            (.ok ended, reached) ∧
      pass.PassEnds [] pass.controller.maxIterations 0 pass.order { progress with skip := 0 }
        ledger.taken ended reached := by
  have hat : pass.At [] 0 [] pass.order { progress with skip := 0 }.skip := at_start
  exact hat.eval_examinedPass looked_nil hflag (fun _ ↦ rfl) (Or.inr rfl) ledger
    pass.controller.maxIterations

/-- The pass without its batches. -/
theorem eval_purgePass_of_examined {iterations : ℕ} {progress : PurgeProgress}
    {state : World × PurgeLedger} {ended : (Bool × PurgeProgress) × List (List Recording)}
    {reached : World × PurgeLedger}
    (heval : eval (withLedger answer notePurge) (rolling pass.refusals pass.readings)
      (pass.controller.examinedPass (pass.purge.opts pass.controller) pass.statuses
        iterations progress)
        state = (.ok ended, reached)) :
    eval (withLedger answer notePurge) (rolling pass.refusals pass.readings)
      (pass.controller.purgePass (pass.purge.opts pass.controller) pass.statuses
        iterations progress)
        state = (.ok ended.1, reached) := by
  rw [← StorageController.examinedPass_bind, eval_bind_of_ok _ _ heval]
  rfl

end PurgePass

end VmsLite.Recordings
