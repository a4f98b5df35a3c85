import VmsLite.Backups.RoundTrip

/-!
# Restores that skip what is there

A restore that skips existing rows leaves the rows of the target alone, and appends those of the
backup that it does not find. It succeeds with all of them just when each of these survives, shares
no unique key with the target, and refers to rows of the target or to rows that are appended with it
(`merges_iff`). The same restore finds nothing to do afterwards (`merges_again`).
-/

set_option autoImplicit false

namespace VmsLite.Backups.Service

open Data

/-- Whether a restore finds a row in some tables. -/
def isFound (tables : Database) (model : Model) (row : Row) : Bool :=
  (tables model).any fun other ↦
    model.lookupColumns.any fun column ↦ other.text column = row.text column

/-- The tables of a target with the rows of a backup that it does not have. -/
def merged (target source : Database) : Database :=
  fun model ↦ target model ++ (source model).filter fun row ↦ !isFound target model row

/-- A row of a backup that can be appended to a target. -/
structure Prisma.CanJoin (prisma : Prisma) (platform : Platform) (target source : Database)
    (model : Model) (row : Row) : Prop where
  survives : ∀ entry ∈ row, prisma.Survives platform model entry
  free : ∀ other ∈ target model, ¬ schema.Clash model row other
  resolved : schema.Resolved (merged target source) model row

section Merge

variable {prisma : Prisma} {platform : Platform} {target source reached : Database}
  {model : Model} {row other : Row}

/-- Rows with the same text in a column by which they are found clash. -/
theorem clash_of_text {column text : Text} (hcolumn : column ∈ model.lookupColumns)
    (hrow : row.text column = some text) (hother : other.text column = some text) :
    schema.Clash model row other := by
  have hid (hid : column = "id".toList) : schema.Clash model row other := by
    subst hid
    exact Or.inl ((id_of_text hrow).trans (id_of_text hother).symm)
  have hkey (hkey : [column] ∈ model.uniqueColumns) : schema.Clash model row other := by
    refine Or.inr ⟨_, List.mem_map_of_mem hkey, ?_, ?_⟩
    · simp [hrow]
    · simp [hrow, hother]
  cases model with
  | user =>
    rcases List.mem_cons.mp hcolumn with hfirst | hsecond
    · exact hid hfirst
    · exact hkey (List.mem_singleton.mp hsecond ▸ List.mem_cons_self)
  | camera =>
    rcases List.mem_cons.mp hcolumn with hfirst | hsecond
    · exact hid hfirst
    · exact hkey (List.mem_singleton.mp hsecond ▸ List.mem_cons_self)
  | _ => exact hid (List.mem_singleton.mp hcolumn)

/-- Rows that have what the lookups compare. -/
def HasTexts (model : Model) (row : Row) : Prop :=
  ∀ column ∈ model.lookupColumns, ∃ text, row.text column = some text

theorem findFirst_pair {first second firstText secondText : Text} :
    prisma.findFirst model [(first, some (.string firstText)), (second, some (.string secondText))]
      reached = .ok ((reached model).any fun other ↦
        decide (other.text first = some firstText) || decide (other.text second = some secondText)) := by
  unfold Prisma.findFirst
  rw [List.mapM_cons, List.mapM_cons, List.mapM_nil]
  change Except.ok _ = _
  simp only [List.any_cons, List.any_nil, Bool.or_false]

theorem isExisting_rowJson (hrow : HasTexts model row)
    (hreached : ∀ other ∈ reached model, HasTexts model other) :
    isExisting prisma.client model (rowJson platform row) reached =
      .ok (isFound reached model row) := by
  have hsingle (hcolumns : model.lookupColumns = ["id".toList]) :
      prisma.findUnique model ((rowJson platform row).property "id".toList) reached =
        .ok (isFound reached model row) := by
    obtain ⟨id, hid⟩ := hrow _ (id_mem_lookupColumns model)
    unfold Prisma.findUnique isFound
    rw [property_of_text hid, hcolumns]
    refine congrArg Except.ok (Bool.eq_iff_iff.mpr ?_)
    simp only [List.any_eq_true, List.any_cons, List.any_nil, Bool.or_false, decide_eq_true_eq, hid]
    refine exists_congr fun other ↦ and_congr_right fun hother ↦ ?_
    obtain ⟨otherId, hotherId⟩ := hreached other hother _ (id_mem_lookupColumns model)
    rw [id_of_text hotherId, hotherId, Option.some.injEq]
  have hpair {column : Text} (hcolumns : model.lookupColumns = ["id".toList, column]) :
      prisma.findFirst model [("id".toList, (rowJson platform row).property "id".toList),
        (column, (rowJson platform row).property column)] reached =
          .ok (isFound reached model row) := by
    obtain ⟨id, hid⟩ := hrow _ (id_mem_lookupColumns model)
    obtain ⟨text, htext⟩ := hrow column (hcolumns ▸ List.mem_cons_of_mem _ List.mem_cons_self)
    rw [property_of_text hid, property_of_text htext]
    refine findFirst_pair.trans ?_
    unfold isFound
    rw [hcolumns]
    simp only [List.any_cons, List.any_nil, Bool.or_false, hid, htext]
  cases model with
  | user => exact hpair rfl
  | camera => exact hpair rfl
  | _ => exact hsingle rfl

/-! ### One row -/

/-- What a restore does with a row of a backup. -/
def joinRow (prisma : Prisma) (platform : Platform) (model : Model) (reached : Database)
    (row : Row) : Except Failure Database := do
  return (← attempt prisma.client platform .skipExisting model (rowJson platform row) reached).getD
    reached

theorem attemptModel_skipExisting (source reached : Database) :
    attemptModel prisma.client platform .skipExisting
      (fun model ↦ (source model).map (rowJson platform)) reached model =
        (source model).foldlM (joinRow prisma platform model) reached := by
  unfold attemptModel
  rw [List.foldlM_map]
  rfl

theorem joinRow_eq (prisma : Prisma) (platform : Platform) (model : Model) (reached : Database)
    (row : Row) : joinRow prisma platform model reached row = (do
      if ← isExisting prisma.client model (rowJson platform row) reached then return reached
      prisma.create model (createData platform model (rowJson platform row)) reached) := by
  change (do
    let result ← (do
      if ← isExisting prisma.client model (rowJson platform row) reached then return none
      let after ← prisma.create model (createData platform model (rowJson platform row)) reached
      return some after)
    return result.getD reached) = _
  cases isExisting prisma.client model (rowJson platform row) reached with
  | error failure => rfl
  | ok found =>
    cases found with
    | true => rfl
    | false =>
      cases prisma.create model (createData platform model (rowJson platform row)) reached <;> rfl

/-- A row is left out, or a row that is made of it is appended. -/
theorem joinRow_ok {after : Database} (hjoin : joinRow prisma platform model reached row = .ok after) :
    after = reached ∨ ∃ made, prisma.rowOf model (createData platform model (rowJson platform row))
      none = some made ∧ schema.insert reached model made = some after := by
  rw [joinRow_eq] at hjoin
  obtain ⟨found, -, hjoin⟩ := exists_of_bind_ok hjoin
  cases found with
  | true => exact Or.inl (Except.ok.inj hjoin).symm
  | false => exact Or.inr (create_ok hjoin)

theorem joinRow_of_texts (hrow : HasTexts model row)
    (hreached : ∀ other ∈ reached model, HasTexts model other) :
    joinRow prisma platform model reached row =
      if isFound reached model row then .ok reached
      else prisma.create model (createData platform model (rowJson platform row)) reached := by
  rw [joinRow_eq, isExisting_rowJson hrow hreached, ok_bind]
  rfl

/-- Rows are only appended, to the table of the model. -/
theorem joinRows_ok {rows : List Row} {after : Database}
    (hrun : rows.foldlM (joinRow prisma platform model) reached = .ok after) :
    (∀ other, other ≠ model → after other = reached other) ∧ reached model <+: after model := by
  induction rows generalizing reached with
  | nil =>
    obtain rfl := Except.ok.inj hrun
    exact ⟨fun _ _ ↦ rfl, List.prefix_refl _⟩
  | cons row rows ih =>
    obtain ⟨middle, hjoin, hrest⟩ := exists_of_bind_ok hrun
    obtain ⟨hothers, hprefix⟩ := ih hrest
    rcases joinRow_ok hjoin with rfl | ⟨made, -, hinsert⟩
    · exact ⟨hothers, hprefix⟩
    · obtain ⟨-, -, rfl⟩ := Schema.insert_eq_some_iff.mp hinsert
      rw [Function.update_self] at hprefix
      refine ⟨fun other hother ↦ ?_, (List.prefix_append _ _).trans hprefix⟩
      rw [hothers other hother, Function.update_of_ne hother]

/-! ### The rows of a model -/

/-- The rows of a model, as far as they have been joined. -/
def joined (target : Database) (reached : Database) (model : Model) (before : List Row) :
    Database :=
  Function.update reached model
    (target model ++ before.filter fun row ↦ !isFound target model row)

/-- The rows before a row do not make it found. -/
theorem isFound_joined {before rest : List Row} (hkeys : schema.Valid source)
    (hsource : source model = before ++ row :: rest)
    (htexts : ∀ other ∈ source model, HasTexts model other) :
    isFound (joined target reached model before) model row = isFound target model row := by
  unfold isFound joined
  rw [Function.update_self, List.any_append]
  suffices hnone : ((before.filter fun row ↦ !isFound target model row).any fun other ↦
      model.lookupColumns.any fun column ↦ other.text column = row.text column) = false by
    rw [hnone, Bool.or_false]
  rw [List.any_eq_false]
  intro other hother hfound
  obtain ⟨column, hcolumn, hsame⟩ := List.any_eq_true.mp hfound
  have hbefore : other ∈ before := List.mem_of_mem_filter hother
  have hrow : row ∈ source model := hsource ▸ List.mem_append_right _ List.mem_cons_self
  obtain ⟨text, htext⟩ := htexts row hrow column hcolumn
  have hunique := hkeys.unique model
  rw [hsource, List.pairwise_append] at hunique
  exact hunique.2.2 other hbefore row List.mem_cons_self
    (clash_of_text hcolumn ((of_decide_eq_true hsame).trans htext) htext)

/-- A row that can join is appended; it is found after that. -/
theorem insert_joined {before rest : List Row} (hkeys : schema.Valid source)
    (hsource : source model = before ++ row :: rest)
    (hfree : ∀ other ∈ target model, ¬ schema.Clash model row other)
    (hresolved : schema.Resolved (joined target reached model before) model row)
    (hnew : isFound target model row = false) :
    schema.insert (joined target reached model before) model row =
      some (joined target reached model (before ++ [row])) := by
  have hunique := hkeys.unique model
  rw [hsource, List.pairwise_append] at hunique
  refine Schema.insert_eq_some_iff.mpr ⟨fun other hother hclash ↦ ?_, hresolved, ?_⟩
  · unfold joined at hother
    rw [Function.update_self] at hother
    rcases List.mem_append.mp hother with hold | hjoined
    · exact hfree other hold hclash
    · exact hunique.2.2 other (List.mem_of_mem_filter hjoined) row List.mem_cons_self hclash.symm
  · unfold joined
    rw [Function.update_self, Function.update_idem, List.filter_append, ← List.append_assoc,
      List.filter_cons_of_pos (by rw [hnew]; rfl), List.filter_nil]

theorem joined_of_found (before : List Row) (hfound : isFound target model row = true) :
    joined target reached model (before ++ [row]) = joined target reached model before := by
  unfold joined
  rw [List.filter_append, List.filter_cons_of_neg (by rw [hfound]; exact Bool.false_ne_true),
    List.filter_nil, List.append_nil]

/-- Tables as a restore finds them when it comes to a model. -/
structure Awaits (target source : Database) (model : Model) (reached : Database) : Prop where
  own : reached model = target model
  apart : ∀ key ∈ model.foreignKeys, key.2 ≠ model
  earlier : ∀ key ∈ model.foreignKeys, reached key.2 = merged target source key.2

theorem Awaits.resolved_iff (hawaits : Awaits target source model reached) {before : List Row} :
    schema.Resolved (joined target reached model before) model row ↔
      schema.Resolved (merged target source) model row := by
  have hsame : ∀ reference ∈ schema.references model,
      joined target reached model before reference.2 = merged target source reference.2 := by
    intro reference hreference
    obtain ⟨key, hkey, rfl⟩ := List.mem_map.mp hreference
    unfold joined
    rw [Function.update_of_ne (hawaits.apart key hkey), hawaits.earlier key hkey]
  exact forall₂_congr fun reference hreference ↦ by rw [hsame reference hreference]

theorem texts_joined (htarget : prisma.Holds target) (hsource : prisma.Holds source)
    {before rest : List Row} (hrows : source model = before ++ rest) :
    ∀ other ∈ joined target reached model before model, HasTexts model other := by
  intro other hother
  unfold joined at hother
  rw [Function.update_self] at hother
  rcases List.mem_append.mp hother with hold | hjoined
  · exact htarget.required model other hold
  · exact hsource.required model other
      (hrows ▸ List.mem_append_left _ (List.mem_of_mem_filter hjoined))

theorem joinRows_of_canJoin (htarget : prisma.Holds target) (hsource : prisma.Holds source)
    (hawaits : Awaits target source model reached)
    (hjoin : ∀ row ∈ source model, isFound target model row = false →
      prisma.CanJoin platform target source model row) {rest : List Row} :
    ∀ before, source model = before ++ rest →
      rest.foldlM (joinRow prisma platform model) (joined target reached model before) =
        .ok (joined target reached model (source model)) := by
  induction rest with
  | nil =>
    intro before hrows
    rw [hrows, List.append_nil]
    rfl
  | cons row rest ih =>
    intro before hrows
    have hmem : row ∈ source model := hrows ▸ List.mem_append_right _ List.mem_cons_self
    have hnext := ih (before ++ [row]) (hrows.trans (List.append_cons before row rest))
    have hcolumns := hsource.columns model row hmem
    rw [List.foldlM_cons, joinRow_of_texts (hsource.required model row hmem)
      (texts_joined htarget hsource hrows), isFound_joined hsource.keys hrows (hsource.required model)]
    cases hfound : isFound target model row with
    | true =>
      rw [joined_of_found before hfound] at hnext
      rw [if_pos rfl, ok_bind]
      exact hnext
    | false =>
      have hcan := hjoin row hmem hfound
      have hinsert := insert_joined hsource.keys hrows hcan.free
        (hawaits.resolved_iff.mpr hcan.resolved) hfound
      rw [if_neg Bool.false_ne_true, createData_rowJson hcolumns, create_eq_ok
        ((rowOf_recordOf_self hcolumns).mpr hcan.survives) (hsource.admitted model row hmem) hinsert,
        ok_bind]
      exact hnext

/-- Where the rows came to stand as they are in the backup, they could join. -/
theorem canJoin_of_joinRows (htarget : prisma.Holds target) (hsource : prisma.Holds source)
    (hawaits : Awaits target source model reached) {rest : List Row} :
    ∀ before, source model = before ++ rest → ∀ after,
      rest.foldlM (joinRow prisma platform model) (joined target reached model before) = .ok after →
      after model = merged target source model →
        after = joined target reached model (source model) ∧
          ∀ row ∈ rest, isFound target model row = false →
            prisma.CanJoin platform target source model row := by
  induction rest with
  | nil =>
    intro before hrows after hrun hafter
    obtain rfl := Except.ok.inj hrun
    rw [hrows, List.append_nil]
    exact ⟨rfl, nofun⟩
  | cons row rest ih =>
    intro before hrows after hrun hafter
    have hmem : row ∈ source model := hrows ▸ List.mem_append_right _ List.mem_cons_self
    have hnext := ih (before ++ [row]) (hrows.trans (List.append_cons before row rest)) after
    have hcolumns := hsource.columns model row hmem
    rw [List.foldlM_cons, joinRow_of_texts (hsource.required model row hmem)
      (texts_joined htarget hsource hrows), isFound_joined hsource.keys hrows
      (hsource.required model)] at hrun
    cases hfound : isFound target model row with
    | true =>
      rw [hfound, if_pos rfl, ok_bind, ← joined_of_found before hfound] at hrun
      obtain ⟨hsame, hcan⟩ := hnext hrun hafter
      refine ⟨hsame, fun other hother hnew ↦ ?_⟩
      rcases List.mem_cons.mp hother with rfl | hother
      · exact absurd (hfound.symm.trans hnew) Bool.noConfusion
      · exact hcan other hother hnew
    | false =>
      rw [hfound, if_neg Bool.false_ne_true] at hrun
      obtain ⟨middle, hcreate, hrest⟩ := exists_of_bind_ok hrun
      obtain ⟨made, hmade, hinsert⟩ := create_ok hcreate
      have hprefix := (joinRows_ok hrest).2
      obtain ⟨hfree, hresolved, hmiddle⟩ := Schema.insert_eq_some_iff.mp hinsert
      -- The row that was appended stands where the row of the backup stands in the end
      obtain rfl : made = row := by
        rw [hmiddle, Function.update_self, hafter, merged, hrows, List.filter_append,
          ← List.append_assoc, joined, Function.update_self, List.prefix_append_right_inj,
          List.filter_cons_of_pos (by rw [hfound]; rfl), List.cons_prefix_cons] at hprefix
        exact hprefix.1
      rw [createData_rowJson hcolumns] at hmade
      have hcan : prisma.CanJoin platform target source model made :=
        { survives := (rowOf_recordOf_self hcolumns).mp hmade
          free := fun other hother ↦ hfree other (by
            rw [joined, Function.update_self]
            exact List.mem_append_left _ hother)
          resolved := hawaits.resolved_iff.mp hresolved }
      have hsame := insert_joined hsource.keys hrows hcan.free hresolved hfound
      rw [Option.some.inj (hinsert.symm.trans hsame)] at hrest
      obtain ⟨hall, hothers⟩ := hnext hrest hafter
      refine ⟨hall, fun other hother hnew ↦ ?_⟩
      rcases List.mem_cons.mp hother with rfl | hother
      · exact hcan
      · exact hothers other hother hnew

/-! ### All models -/

/-- The tables whose models have been merged. -/
def mergedTo (target source : Database) (models : List Model) : Database :=
  fun model ↦ if model ∈ models then merged target source model else target model

theorem joined_mergedTo {earlier : List Model} (hnew : model ∉ earlier) :
    joined target (mergedTo target source earlier) model [] = mergedTo target source earlier ∧
      joined target (mergedTo target source earlier) model (source model) =
        mergedTo target source (model :: earlier) := by
  constructor
  · have hown : mergedTo target source earlier model = target model := if_neg hnew
    unfold joined
    rw [List.filter_nil, List.append_nil, ← hown, Function.update_eq_self]
  · funext other
    unfold joined
    by_cases hsame : other = model
    · subst hsame
      rw [Function.update_self]
      exact (if_pos List.mem_cons_self).symm
    · rw [Function.update_of_ne hsame]
      unfold mergedTo
      simp only [List.mem_cons, hsame, false_or]

theorem awaits_mergedTo {earlier : List Model} (hnew : model ∉ earlier)
    (htargets : ∀ key ∈ model.foreignKeys, key.2 ∈ earlier) :
    Awaits target source model (mergedTo target source earlier) where
  own := if_neg hnew
  apart key hkey := ne_of_mem_of_not_mem (htargets key hkey) hnew
  earlier key hkey := if_pos (htargets key hkey)

theorem joinModels_of_canJoin (htarget : prisma.Holds target) (hsource : prisma.Holds source)
    (hjoin : ∀ model, ∀ row ∈ source model, isFound target model row = false →
      prisma.CanJoin platform target source model row) {models earlier : List Model}
    (hordered : isOrdered earlier models = true) (hnodup : models.Nodup)
    (hnew : ∀ model ∈ models, model ∉ earlier) :
    models.foldlM (attemptModel prisma.client platform .skipExisting
      (fun model ↦ (source model).map (rowJson platform))) (mergedTo target source earlier) =
        .ok (mergedTo target source (models.reverse ++ earlier)) := by
  induction models generalizing earlier with
  | nil => rfl
  | cons model models ih =>
    obtain ⟨hlater, hnodup⟩ := List.nodup_cons.mp hnodup
    obtain ⟨htargets, hordered⟩ := Bool.and_eq_true_iff.mp hordered
    have hmodel := hnew model List.mem_cons_self
    have hawaits := @awaits_mergedTo target source model earlier hmodel fun key hkey ↦
      List.contains_iff_mem.mp (List.all_eq_true.mp htargets key hkey)
    obtain ⟨hfirst, hlast⟩ := @joined_mergedTo target source model earlier hmodel
    have hrows := joinRows_of_canJoin htarget hsource hawaits (hjoin model) [] rfl
    rw [hfirst, hlast] at hrows
    rw [List.foldlM_cons, attemptModel_skipExisting, hrows, ok_bind, List.reverse_cons,
      List.append_assoc]
    refine ih hordered hnodup fun other hother ↦ ?_
    rw [List.mem_cons, not_or]
    exact ⟨ne_of_mem_of_not_mem hother hlater, hnew other (List.mem_cons_of_mem _ hother)⟩

theorem joinModels_others {models : List Model} {after : Database}
    (hrun : models.foldlM (attemptModel prisma.client platform .skipExisting
      (fun model ↦ (source model).map (rowJson platform))) reached = .ok after) :
    ∀ other ∉ models, after other = reached other := by
  induction models generalizing reached with
  | nil =>
    obtain rfl := Except.ok.inj hrun
    exact fun _ _ ↦ rfl
  | cons model models ih =>
    obtain ⟨middle, hmodel, hrest⟩ := exists_of_bind_ok hrun
    rw [attemptModel_skipExisting] at hmodel
    intro other hother
    obtain ⟨hne, hother⟩ := not_or.mp (List.mem_cons.not.mp hother)
    exact (ih hrest other hother).trans ((joinRows_ok hmodel).1 other hne)

theorem canJoin_of_joinModels (htarget : prisma.Holds target) (hsource : prisma.Holds source)
    {models earlier : List Model} (hordered : isOrdered earlier models = true)
    (hnodup : models.Nodup) (hnew : ∀ model ∈ models, model ∉ earlier)
    (hrun : models.foldlM (attemptModel prisma.client platform .skipExisting
      (fun model ↦ (source model).map (rowJson platform))) (mergedTo target source earlier) =
        .ok (merged target source)) :
    ∀ model ∈ models, ∀ row ∈ source model, isFound target model row = false →
      prisma.CanJoin platform target source model row := by
  induction models generalizing earlier with
  | nil => exact nofun
  | cons model models ih =>
    obtain ⟨hlater, hnodup⟩ := List.nodup_cons.mp hnodup
    obtain ⟨htargets, hordered⟩ := Bool.and_eq_true_iff.mp hordered
    have hmodel := hnew model List.mem_cons_self
    have hawaits := @awaits_mergedTo target source model earlier hmodel fun key hkey ↦
      List.contains_iff_mem.mp (List.all_eq_true.mp htargets key hkey)
    obtain ⟨hfirst, hlast⟩ := @joined_mergedTo target source model earlier hmodel
    obtain ⟨middle, hrows, hrest⟩ := exists_of_bind_ok hrun
    rw [attemptModel_skipExisting, ← hfirst] at hrows
    obtain ⟨hmiddle, hcan⟩ := canJoin_of_joinRows htarget hsource hawaits [] rfl middle hrows
      (joinModels_others hrest model hlater).symm
    rw [hmiddle, hlast] at hrest
    rw [List.forall_mem_cons]
    refine ⟨hcan, ih hordered hnodup (fun other hother ↦ ?_) hrest⟩
    rw [List.mem_cons, not_or]
    exact ⟨ne_of_mem_of_not_mem hother hlater, hnew other (List.mem_cons_of_mem _ hother)⟩

/-- A restore that skips existing rows succeeds and appends all that are not found if and only if
each of these can join the target. -/
theorem merges_iff {createdAt : ℤ} {seconds : ℕ} (htarget : prisma.Holds target)
    (hsource : prisma.Holds source) (hplatform : platform.Handles createdAt source) :
    (∃ summary, restoreBackup prisma.client platform .skipExisting
        (createBackup platform createdAt seconds source) target =
          (.ok summary, merged target source)) ↔
      ∀ model, ∀ row ∈ source model, isFound target model row = false →
        prisma.CanJoin platform target source model row := by
  have hnone : mergedTo target source [] = target := rfl
  have hall : mergedTo target source (restoreOrder.reverse ++ []) = merged target source := by
    funext model
    unfold mergedTo
    rw [List.append_nil, if_pos (List.mem_reverse.mpr (mem_restoreOrder model))]
  rw [returns_iff (readConfig_createBackup hplatform seconds)]
  unfold attemptModels
  constructor
  · intro hrun model
    rw [← hnone] at hrun
    exact canJoin_of_joinModels htarget hsource isOrdered_restoreOrder nodup_restoreOrder
      (fun _ _ ↦ List.not_mem_nil) hrun model (mem_restoreOrder model)
  · intro hjoin
    have hrun := joinModels_of_canJoin htarget hsource hjoin isOrdered_restoreOrder
      nodup_restoreOrder fun _ _ ↦ List.not_mem_nil
    rwa [hnone, hall] at hrun

/-! ### The same restore again -/

/-- Each row of a backup is found in the tables that were merged with it. -/
theorem isFound_merged (hrow : row ∈ source model) :
    isFound (merged target source) model row = true := by
  cases hfound : isFound target model row with
  | true =>
    unfold isFound merged at *
    rw [List.any_append, hfound, Bool.true_or]
  | false =>
    refine List.any_eq_true.mpr ⟨row, List.mem_append_right _ (List.mem_filter.mpr ⟨hrow, ?_⟩), ?_⟩
    · rw [hfound]
      rfl
    · exact List.any_eq_true.mpr ⟨_, id_mem_lookupColumns model, decide_eq_true rfl⟩

theorem texts_merged (htarget : prisma.Holds target) (hsource : prisma.Holds source) :
    ∀ other ∈ merged target source model, HasTexts model other := by
  intro other hother
  rcases List.mem_append.mp hother with hold | hjoined
  · exact htarget.required model other hold
  · exact hsource.required model other (List.mem_of_mem_filter hjoined)

/-- A restore that has only skipped rows. -/
structure OnlySkips (tables : Database) (progress : Progress Database) : Prop where
  tables_eq : progress.tables = tables
  goesWell : progress.GoesWell
  restored : progress.summary.restored = fun _ ↦ 0

theorem onlySkips_of_found {records : Model → List Json} {tables : Database}
    {progress : Progress Database}
    (hskip : ∀ model, ∀ record ∈ records model,
      attempt prisma.client platform .skipExisting model record tables = .ok none)
    (hrun : restoreModels prisma.client platform .skipExisting (configOf records) tables =
      some progress) : OnlySkips tables progress := by
  refine invariant_of_foldlM (motive := OnlySkips tables)
    (fun state model _ reached hstate hmodel ↦ ?_) hrun ⟨rfl, ⟨rfl, rfl⟩, rfl⟩
  rw [restoreModel_configOf] at hmodel
  refine invariant_of_foldlM (motive := OnlySkips tables)
    (fun state record hrecord next hstate hround ↦ ?_) hmodel hstate
  have hattempt := hskip model record hrecord
  rw [← hstate.tables_eq] at hattempt
  cases round_of_restoreRecord hround with
  | restored after _ hother => exact absurd (hattempt.symm.trans hother) (by simp)
  | skipped => exact ⟨hstate.tables_eq, ⟨hstate.goesWell.live, hstate.goesWell.errors⟩,
      hstate.restored⟩
  | failed failure line hother =>
    exact absurd (hattempt.symm.trans (hother hstate.goesWell.live)) (by simp)

/-- The same restore, once it has merged, succeeds again, restores nothing and changes nothing. -/
theorem merges_again {createdAt : ℤ} {seconds : ℕ} (htarget : prisma.Holds target)
    (hsource : prisma.Holds source) (hplatform : platform.Handles createdAt source) :
    ∃ summary, restoreBackup prisma.client platform .skipExisting
        (createBackup platform createdAt seconds source) (merged target source) =
          (.ok summary, merged target source) ∧ summary.restored = fun _ ↦ 0 := by
  have hskip : ∀ model, ∀ record ∈ (source model).map (rowJson platform),
      attempt prisma.client platform .skipExisting model record (merged target source) =
        .ok none := by
    intro model record hrecord
    obtain ⟨row, hrow, rfl⟩ := List.mem_map.mp hrecord
    change (do
      if ← isExisting prisma.client model (rowJson platform row) (merged target source) then
        return none
      let after ← prisma.create model (createData platform model (rowJson platform row))
        (merged target source)
      return some after) = _
    rw [isExisting_rowJson (hsource.required model row hrow) (texts_merged htarget hsource),
      isFound_merged hrow, ok_bind]
    rfl
  have hplain : attemptModels prisma.client platform .skipExisting
      (fun model ↦ (source model).map (rowJson platform)) (merged target source) =
        .ok (merged target source) := by
    refine foldlM_fixed fun model _ ↦ foldlM_fixed fun record hrecord ↦ ?_
    rw [hskip model record hrecord]
    rfl
  obtain ⟨progress, hrun, -⟩ := (simulated_models prisma.client platform .skipExisting
    fun model ↦ (source model).map (rowJson platform)).back
      { tables := merged target source, aborted := false, summary := ⟨fun _ ↦ 0, fun _ ↦ 0, []⟩ }
      _ _ ⟨rfl, rfl⟩ hplain
  have honly := onlySkips_of_found hskip hrun
  refine ⟨progress.summary, ?_, honly.restored⟩
  rw [restoreBackup_of_run (readConfig_createBackup hplatform seconds) hrun,
    if_pos honly.goesWell.errors, honly.goesWell.live, if_neg Bool.false_ne_true, honly.tables_eq]

end Merge

/-! ### The backup of a webhook endpoint, merged -/

/-- A database with another endpoint. -/
def doorDatabase : Database :=
  endpointDatabase (("id".toList, .text "w2".toList) :: webhookRow.tail)

theorem holds_doorDatabase : typedPrisma.Holds doorDatabase :=
  holds_endpointDatabase rfl ⟨_, rfl⟩

theorem canJoin_webhookRow : typedPrisma.CanJoin recordedPlatform doorDatabase webhookDatabase
    .webhookEndpoint webhookRow where
  survives := by
    unfold webhookRow
    simp only [List.forall_mem_cons]
    exact ⟨rfl, rfl, rfl, rfl, rfl, rfl, rfl, rfl, nofun⟩
  free := List.forall_mem_singleton.mpr (by decide)
  resolved := nofun

theorem merges_doorDatabase : ∃ summary,
    restoreBackup typedPrisma.client recordedPlatform .skipExisting
      (createBackup recordedPlatform 1709232310000 1709232310 webhookDatabase) doorDatabase =
        (.ok summary, merged doorDatabase webhookDatabase) :=
  (merges_iff holds_doorDatabase holds_webhookDatabase handles_webhookDatabase).mpr
    (forall_endpointDatabase fun _ ↦ canJoin_webhookRow)

theorem merges_again_doorDatabase : ∃ summary,
    restoreBackup typedPrisma.client recordedPlatform .skipExisting
      (createBackup recordedPlatform 1709232310000 1709232310 webhookDatabase)
        (merged doorDatabase webhookDatabase) =
          (.ok summary, merged doorDatabase webhookDatabase) ∧ summary.restored = fun _ ↦ 0 :=
  merges_again holds_doorDatabase holds_webhookDatabase handles_webhookDatabase

end VmsLite.Backups.Service
