import VmsLite.Backups.BackupService
import VmsLite.Data.Except

/-!
# What a restore leaves behind

An error of a record is collected, and the loops go on. So a restore that throws may leave something
behind: what is left is what a restore of only a part of the records leaves, one that reports no
errors (`restoreBackup_leaves`). The part is all of the records unless the restore throws. And a
restore without errors is the sequence of what is tried with each record (`returns_iff`).
-/

set_option autoImplicit false

namespace VmsLite.Backups.Service

open Data

variable {Tables : Type} {client : Client Tables} {platform : Platform} {mode : RestoreMode}

/-! ### Rounds -/

/-- What one round of a loop does to a restore. -/
inductive Round (client : Client Tables) (platform : Platform) (mode : RestoreMode) (model : Model)
    (progress : Progress Tables) (record : Json) : Progress Tables → Prop
  | restored (after : Tables) (hlive : progress.aborted = false)
    (hattempt : attempt client platform mode model record progress.tables = .ok (some after)) :
    Round client platform mode model progress record
      { progress with
        tables := after
        summary.restored :=
          Function.update progress.summary.restored model (progress.summary.restored model + 1) }
  | skipped (hlive : progress.aborted = false)
    (hattempt : attempt client platform mode model record progress.tables = .ok none) :
    Round client platform mode model progress record
      { progress with
        summary.skipped :=
          Function.update progress.summary.skipped model (progress.summary.skipped model + 1) }
  | failed (failure : Failure) (line : Text)
    (hattempt : progress.aborted = false →
      attempt client platform mode model record progress.tables = .error failure) :
    Round client platform mode model progress record
      { progress with
        aborted := progress.aborted || failure.aborts
        summary.errors := progress.summary.errors ++ [line] }

variable {model : Model} {record : Json} {progress next : Progress Tables}

theorem live_of_outcome {outcome : Except Failure (Option Tables)} {result : Option Tables}
    (houtcome : (if progress.aborted then .error abortedFailure else outcome) = .ok result) :
    progress.aborted = false ∧ outcome = .ok result := by
  split_ifs at houtcome with haborted
  exact ⟨Bool.eq_false_of_not_eq_true haborted, houtcome⟩

theorem round_of_restoreRecord
    (hround : restoreRecord client platform mode model progress record = some next) :
    Round client platform mode model progress record next := by
  unfold restoreRecord at hround
  dsimp only at hround
  split at hround
  next after houtcome =>
    obtain ⟨hlive, hattempt⟩ := live_of_outcome houtcome
    obtain rfl := Option.some.inj hround
    exact Round.restored after hlive hattempt
  next houtcome =>
    obtain ⟨hlive, hattempt⟩ := live_of_outcome houtcome
    obtain rfl := Option.some.inj hround
    exact Round.skipped hlive hattempt
  next failure houtcome =>
    obtain ⟨line, -, hnext⟩ := Option.bind_eq_some_iff.mp hround
    obtain rfl := Option.some.inj hnext
    refine Round.failed failure line fun hlive ↦ ?_
    rwa [hlive, if_neg Bool.false_ne_true] at houtcome

theorem restoreRecord_of_restored {after : Tables} (hlive : progress.aborted = false)
    (hattempt : attempt client platform mode model record progress.tables = .ok (some after)) :
    restoreRecord client platform mode model progress record = some
      { progress with
        tables := after
        summary.restored := Function.update progress.summary.restored model
          (progress.summary.restored model + 1) } := by
  unfold restoreRecord
  rw [hlive, if_neg Bool.false_ne_true, hattempt]

theorem restoreRecord_of_skipped (hlive : progress.aborted = false)
    (hattempt : attempt client platform mode model record progress.tables = .ok none) :
    restoreRecord client platform mode model progress record = some
      { progress with
        summary.skipped := Function.update progress.summary.skipped model
          (progress.summary.skipped model + 1) } := by
  unfold restoreRecord
  rw [hlive, if_neg Bool.false_ne_true, hattempt]

/-! ### The part without errors -/

/-- A restore that has met no errors. -/
def Progress.clean (progress : Progress Tables) : Progress Tables :=
  { progress with summary.errors := [] }

/-- A round of a transaction that goes on did something without an error, or left everything but
the errors as it was. -/
theorem Round.clean (hround : Round client platform mode model progress record next)
    (hlive : next.aborted = false) : progress.aborted = false ∧
      (restoreRecord client platform mode model progress.clean record = some next.clean ∧
          next.summary.errors = progress.summary.errors ∨
        next.clean = progress.clean ∧
          next.summary.errors.length = progress.summary.errors.length + 1) := by
  cases hround with
  | restored after hbefore hattempt =>
    exact ⟨hbefore, Or.inl ⟨restoreRecord_of_restored hbefore hattempt, rfl⟩⟩
  | skipped hbefore hattempt =>
    exact ⟨hbefore, Or.inl ⟨restoreRecord_of_skipped hbefore hattempt, rfl⟩⟩
  | failed failure line hattempt =>
    obtain ⟨hbefore, haborts⟩ := Bool.or_eq_false_iff.mp hlive
    refine ⟨hbefore, Or.inr ⟨?_, List.length_append⟩⟩
    unfold Progress.clean
    rw [hbefore, haborts]
    rfl

theorem clean_foldlM {records : List Json}
    (hrun : records.foldlM (restoreRecord client platform mode model) progress = some next)
    (hlive : next.aborted = false) : progress.aborted = false ∧ ∃ kept : List Json, kept.Sublist records ∧
      kept.foldlM (restoreRecord client platform mode model) progress.clean = some next.clean ∧
      next.summary.errors.length + kept.length =
        progress.summary.errors.length + records.length := by
  induction records generalizing progress with
  | nil =>
    obtain rfl := Option.some.inj hrun
    exact ⟨hlive, [], List.Sublist.refl _, rfl, rfl⟩
  | cons record records ih =>
    obtain ⟨middle, hround, hrest⟩ := Option.bind_eq_some_iff.mp hrun
    obtain ⟨hmiddle, kept, hkept, hclean, hcount⟩ := ih hrest
    obtain ⟨hbefore, hdone | hfailed⟩ := (round_of_restoreRecord hround).clean hmiddle
    · refine ⟨hbefore, record :: kept, hkept.cons_cons record, ?_, ?_⟩
      · rw [List.foldlM_cons, hdone.1]
        exact hclean
      · rw [List.length_cons, List.length_cons, ← hdone.2]
        omega
    · refine ⟨hbefore, kept, hkept.cons record, hfailed.1 ▸ hclean, ?_⟩
      rw [List.length_cons]
      omega

/-! ### All models -/

/-- A part of the records of some models of a config. -/
def IsPart (config : Json) (models : List Model) (kept : Model → List Json) : Prop :=
  ∀ model ∈ models, ∃ records, recordsOf config model = some records ∧
    (kept model).Sublist records

theorem restoreModel_configOf {records : Model → List Json} :
    restoreModel client platform mode (configOf records) progress model =
      (records model).foldlM (restoreRecord client platform mode model) progress := by
  unfold restoreModel
  rw [recordsOf_configOf]
  rfl

/-- Models that are not restored may hold anything. -/
theorem foldlM_restoreModel_congr {models : List Model} {first second : Model → List Json}
    (hsame : ∀ model ∈ models, first model = second model) :
    models.foldlM (restoreModel client platform mode (configOf first)) progress =
      models.foldlM (restoreModel client platform mode (configOf second)) progress := by
  induction models generalizing progress with
  | nil => rfl
  | cons model models ih =>
    rw [List.foldlM_cons, List.foldlM_cons, restoreModel_configOf, restoreModel_configOf,
      hsame model List.mem_cons_self]
    exact bind_congr fun middle ↦ ih fun other hother ↦ hsame other (List.mem_cons_of_mem _ hother)

theorem clean_models {config : Json} {models : List Model} (hnodup : models.Nodup)
    (hrun : models.foldlM (restoreModel client platform mode config) progress = some next)
    (hlive : next.aborted = false) : progress.aborted = false ∧ ∃ kept : Model → List Json,
      IsPart config models kept ∧
      models.foldlM (restoreModel client platform mode (configOf kept)) progress.clean =
        some next.clean ∧
      progress.summary.errors.length ≤ next.summary.errors.length ∧
      (next.summary.errors.length = progress.summary.errors.length ↔
        ∀ model ∈ models, recordsOf config model = some (kept model)) := by
  induction models generalizing progress with
  | nil =>
    obtain rfl := Option.some.inj hrun
    exact ⟨hlive, fun _ ↦ [], nofun, rfl, Nat.le_refl _, iff_of_true rfl nofun⟩
  | cons model models ih =>
    obtain ⟨hnew, hnodup⟩ := List.nodup_cons.mp hnodup
    obtain ⟨middle, hmodel, hrest⟩ := Option.bind_eq_some_iff.mp hrun
    obtain ⟨records, hrecords, hloop⟩ := Option.bind_eq_some_iff.mp hmodel
    obtain ⟨hmiddle, later, hlater, hclean, hmore, hall⟩ := ih hnodup hrest
    obtain ⟨hbefore, kept, hkept, hkeptClean, hcount⟩ := clean_foldlM hloop hmiddle
    have hlength := hkept.length_le
    have hother : ∀ other ∈ models, Function.update later model kept other = later other :=
      fun other hother ↦ Function.update_of_ne (ne_of_mem_of_not_mem hother hnew) _ _
    refine ⟨hbefore, Function.update later model kept, ?_, ?_, by omega, ?_⟩
    · rw [IsPart, List.forall_mem_cons, Function.update_self]
      refine ⟨⟨records, hrecords, hkept⟩, fun other hmem ↦ ?_⟩
      rw [hother other hmem]
      exact hlater other hmem
    · rw [List.foldlM_cons, restoreModel_configOf, Function.update_self, hkeptClean,
        Option.bind_eq_bind, Option.bind_some, foldlM_restoreModel_congr hother]
      exact hclean
    · have hwhole : recordsOf config model = some kept ↔ kept.length = records.length := by
        rw [hrecords, Option.some.injEq, eq_comm]
        exact ⟨congrArg List.length, hkept.eq_of_length⟩
      have hrest : (∀ other ∈ models, recordsOf config other =
          some (Function.update later model kept other)) ↔
            next.summary.errors.length = middle.summary.errors.length := by
        rw [hall]
        exact forall₂_congr fun other hmem ↦ by rw [hother other hmem]
      rw [List.forall_mem_cons, Function.update_self, hwhole, hrest]
      omega

/-- A transaction that is aborted has met an error. -/
def Progress.IsTold (progress : Progress Tables) : Prop :=
  progress.aborted = true → progress.summary.errors ≠ []

theorem isTold_of_restoreModels {config : Json} {tables : Tables}
    (hrun : restoreModels client platform mode config tables = some progress) :
    progress.IsTold := by
  refine invariant_of_foldlM (motive := Progress.IsTold)
    (fun state model _ reached hstate hmodel ↦ ?_) hrun nofun
  obtain ⟨records, -, hloop⟩ := Option.bind_eq_some_iff.mp hmodel
  refine invariant_of_foldlM (motive := Progress.IsTold) (fun state record _ reached hstate hround ↦ ?_) hloop hstate
  cases round_of_restoreRecord hround with
  | restored => exact hstate
  | skipped => exact hstate
  | failed => exact fun _ ↦ List.concat_ne_nil _ _

theorem nodup_restoreOrder : restoreOrder.Nodup := by decide

theorem mem_restoreOrder (model : Model) : model ∈ restoreOrder := by cases model <;> decide

/-- A restore whose callback returns. -/
theorem restoreBackup_of_run {config : Json} {archive : Bytes} {tables : Tables}
    (hconfig : readConfig platform archive = .ok config)
    (hrun : restoreModels client platform mode config tables = some progress) :
    restoreBackup client platform mode archive tables =
      (if progress.summary.errors = [] then .ok progress.summary
        else .error (.withErrors progress.summary.errors),
      if progress.aborted then tables else progress.tables) := by
  unfold restoreBackup
  rw [hconfig]
  dsimp only
  rw [hrun]
  dsimp only
  by_cases herrors : progress.summary.errors = []
  · rw [if_pos herrors, if_neg (by rw [herrors]; exact Nat.lt_irrefl 0)]
  · rw [if_neg herrors, if_pos (List.length_pos_iff.mpr herrors)]

/-- What is tried with the records of a model, up to the first failure. -/
def attemptModel (client : Client Tables) (platform : Platform) (mode : RestoreMode)
    (records : Model → List Json) (tables : Tables) (model : Model) : Except Failure Tables :=
  (records model).foldlM (fun reached record ↦ do
    return (← attempt client platform mode model record reached).getD reached) tables

def attemptModels (client : Client Tables) (platform : Platform) (mode : RestoreMode)
    (records : Model → List Json) (tables : Tables) : Except Failure Tables :=
  restoreOrder.foldlM (attemptModel client platform mode records) tables

/-- A restore that goes on without having met an error. -/
structure Progress.GoesWell (progress : Progress Tables) : Prop where
  live : progress.aborted = false
  errors : progress.summary.errors = []

theorem Round.goesWell (hround : Round client platform mode model progress record next)
    (hnext : next.GoesWell) : progress.GoesWell ∧ ∃ result,
      attempt client platform mode model record progress.tables = .ok result ∧
        next.tables = result.getD progress.tables := by
  cases hround with
  | restored after hlive hattempt => exact ⟨⟨hlive, hnext.errors⟩, some after, hattempt, rfl⟩
  | skipped hlive hattempt => exact ⟨⟨hlive, hnext.errors⟩, none, hattempt, rfl⟩
  | failed failure line hattempt => exact absurd hnext.errors (List.concat_ne_nil _ _)

/-- A round goes well when what is tried with its record succeeds. -/
theorem simulated_round (client : Client Tables) (platform : Platform) (mode : RestoreMode)
    (model : Model) : Simulated Progress.GoesWell Progress.tables
      (restoreRecord client platform mode model) fun reached record ↦ do
        return (← attempt client platform mode model record reached).getD reached where
  forth progress record next hround hnext := by
    obtain ⟨hwell, result, hattempt, htables⟩ := (round_of_restoreRecord hround).goesWell hnext
    refine ⟨hwell, ?_⟩
    rw [hattempt, ok_bind, htables]
    rfl
  back progress record reached hwell hplain := by
    obtain ⟨result, hattempt, hreached⟩ := exists_of_bind_ok hplain
    obtain rfl := Except.ok.inj hreached
    cases result with
    | none =>
      exact ⟨_, restoreRecord_of_skipped hwell.live hattempt, ⟨hwell.live, hwell.errors⟩, rfl⟩
    | some after =>
      exact ⟨_, restoreRecord_of_restored hwell.live hattempt, ⟨hwell.live, hwell.errors⟩, rfl⟩

theorem simulated_models (client : Client Tables) (platform : Platform) (mode : RestoreMode)
    (records : Model → List Json) : Simulated Progress.GoesWell Progress.tables
      (fun progress models ↦
        List.foldlM (restoreModel client platform mode (configOf records)) progress models)
      fun reached models ↦ List.foldlM (attemptModel client platform mode records) reached models := by
  refine Simulated.foldlM ⟨fun progress model next hmodel hnext ↦ ?_,
    fun progress model reached hwell hplain ↦ ?_⟩
  · rw [restoreModel_configOf] at hmodel
    exact (simulated_round client platform mode model).foldlM.forth _ _ _ hmodel hnext
  · rw [restoreModel_configOf]
    exact (simulated_round client platform mode model).foldlM.back _ _ _ hwell hplain

/-- A restore returns when what is tried with each record succeeds, and leaves what this leaves. -/
theorem returns_iff {archive : Bytes} {records : Model → List Json} {tables after : Tables}
    (hconfig : readConfig platform archive = .ok (configOf records)) :
    (∃ summary, restoreBackup client platform mode archive tables = (.ok summary, after)) ↔
      attemptModels client platform mode records tables = .ok after := by
  constructor
  · rintro ⟨summary, houtcome⟩
    cases hrun : restoreModels client platform mode (configOf records) tables with
    | none =>
      unfold restoreBackup at houtcome
      rw [hconfig] at houtcome
      dsimp only at houtcome
      rw [hrun] at houtcome
      cases houtcome
    | some progress =>
      rw [restoreBackup_of_run hconfig hrun] at houtcome
      obtain ⟨hresult, hafter⟩ := Prod.mk.inj houtcome
      have herrors : progress.summary.errors = [] := by
        by_contra herrors
        rw [if_neg herrors] at hresult
        cases hresult
      have hlive : progress.aborted = false :=
        Bool.eq_false_of_not_eq_true fun haborted ↦ isTold_of_restoreModels hrun haborted herrors
      rw [hlive, if_neg Bool.false_ne_true] at hafter
      exact hafter ▸ ((simulated_models client platform mode records).forth _ _ _ hrun
        ⟨hlive, herrors⟩).2
  · intro hplain
    obtain ⟨progress, hrun, hwell, hafter⟩ :=
      (simulated_models client platform mode records).back
        { tables, aborted := false, summary := ⟨fun _ ↦ 0, fun _ ↦ 0, []⟩ } _ _ ⟨rfl, rfl⟩ hplain
    refine ⟨progress.summary, ?_⟩
    rw [restoreBackup_of_run hconfig hrun, if_pos hwell.errors, hwell.live,
      if_neg Bool.false_ne_true, hafter]

end VmsLite.Backups.Service
