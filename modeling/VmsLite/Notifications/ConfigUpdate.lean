import Mathlib.Data.Int.Order.Basic
import Mathlib.Data.List.Nodup
import VmsLite.Webhooks.EndpointUpdate

/-!
# Editing the notification settings

`NotificationService.getConfig` and `updateConfig`. The first reads the newest row and masks its
credentials; the second merges a partial update into what the first returned, and writes the result
to whatever row the database lists first. The parser and the printer of JSON are those of the
platform.

An update keeps the stored credentials and can be read back, whatever order the database chooses,
exactly when there is one row at most or nothing to change, and masked and new credentials are told
apart (`configUpdate_iff`).
-/

set_option autoImplicit false

namespace VmsLite.Notifications

open Webhooks (CodeUnits units includes lastFour placeholder)

/-! ### Rows -/

structure Settings where
  provider : String
  sender : Option String
  recipientPhones : List String
  cooldownSeconds : ℤ
  events : List String
  enabled : Bool
  deriving DecidableEq

structure NotificationConfig where
  id : String
  settings : Settings
  credentialsJson : Option CodeUnits
  createdAt : ℤ

/-- Whether a row is among the newest of a table. -/
def IsNewest (rows : List NotificationConfig) (row : NotificationConfig) : Prop :=
  row ∈ rows ∧ ∀ other ∈ rows, other.createdAt ≤ row.createdAt

/-- The order in which a database lists rows where a query leaves it open. -/
structure Database where
  /-- The first row, the newest first. -/
  newest : List NotificationConfig → Option NotificationConfig
  newest_eq_none : ∀ {rows}, newest rows = none → rows = []
  isNewest : ∀ {rows row}, newest rows = some row → IsNewest rows row
  /-- The first row, in any order. -/
  first : List NotificationConfig → Option NotificationConfig
  first_eq_none : ∀ {rows}, first rows = none → rows = []
  first_mem : ∀ {rows row}, first rows = some row → row ∈ rows

/-- The rows of the table, with distinct identifiers. -/
structure ConfigTable where
  rows : List NotificationConfig
  nodup : (rows.map (·.id)).Nodup

/-! ### The operations -/

/-- The parser and the printer of JSON, as far as the credentials go: the parser gives the entries
of an object, with the values that are strings, or fails. -/
structure JsonText where
  parse : CodeUnits → Option (List (CodeUnits × Option CodeUnits))
  stringify : List (CodeUnits × CodeUnits) → CodeUnits

/-- A credential as it is shown. -/
def maskValue : Option CodeUnits → CodeUnits
  | some value => if 6 < value.length then units "whsec_" ++ lastFour value else placeholder
  | none => placeholder

/-- Credentials that are stored, the empty text standing for none. -/
def present (credentialsJson : Option CodeUnits) : Option CodeUnits :=
  credentialsJson.filter (· ≠ [])

variable (json : JsonText)

def maskCredentials (rawJson : Option CodeUnits) : Option CodeUnits :=
  (present rawJson).map fun raw ↦
    match json.parse raw with
    | some entries => json.stringify (entries.map fun entry ↦ (entry.1, maskValue entry.2))
    | none => placeholder

def defaultConfig : NotificationConfig where
  id := "default-notification-config"
  settings := {
    provider := "mock"
    sender := none
    recipientPhones := []
    cooldownSeconds := 60
    events := ["motion.detected", "camera.offline"]
    enabled := true }
  credentialsJson := none
  createdAt := 0

/-- The row that `getConfig` reads, which it also keeps in memory. -/
def activeConfig (database : Database) (rows : List NotificationConfig) : NotificationConfig :=
  (database.newest rows).getD defaultConfig

/-- What `getConfig` returns. -/
def getConfig (database : Database) (rows : List NotificationConfig) : NotificationConfig :=
  let record := activeConfig database rows
  { record with credentialsJson := maskCredentials json record.credentialsJson }

structure UpdateNotificationConfigInput where
  provider : Option String := none
  /-- Left out, `null`, or a text. -/
  credentialsJson : Option (Option CodeUnits) := none
  sender : Option (Option String) := none
  recipientPhones : Option (List String) := none
  cooldownSeconds : Option ℤ := none
  events : Option (List String) := none
  enabled : Option Bool := none

def UpdateNotificationConfigInput.merge (input : UpdateNotificationConfigInput)
    (existing : Settings) : Settings where
  provider := input.provider.getD existing.provider
  sender := input.sender.getD existing.sender
  recipientPhones := input.recipientPhones.getD existing.recipientPhones
  cooldownSeconds := input.cooldownSeconds.getD existing.cooldownSeconds
  events := input.events.getD existing.events
  enabled := input.enabled.getD existing.enabled

/-- The credentials that an update saves; `stored` are those of the row that was read. -/
def newCredentials (stored : Option CodeUnits) : Option (Option CodeUnits) → Option CodeUnits
  | none => maskCredentials json stored
  | some none => none
  | some (some submitted) =>
    if includes submitted (units "whsec_") then present stored else some submitted

/-- The rows after an update; a row that it creates takes the identifier `id` at the time `now`. -/
def updateConfig (database : Database) (input : UpdateNotificationConfigInput)
    (id : String) (now : ℤ)
    (rows : List NotificationConfig) : List NotificationConfig :=
  let read := activeConfig database rows
  let settings := input.merge (getConfig json database rows).settings
  let credentialsJson := newCredentials json read.credentialsJson input.credentialsJson
  match database.first rows with
  | some first => rows.map fun row ↦
      if row.id = first.id then { row with settings, credentialsJson } else row
  | none => rows ++ [{ id, settings, credentialsJson, createdAt := now }]

/-! ### What an update must keep -/

/-- New credentials, which are not masked ones. -/
def IsUnmasked (credentials : CodeUnits) : Prop :=
  credentials ≠ [] ∧ ∀ stored, maskCredentials json stored ≠ some credentials

/-- What a caller who edits the settings finds afterwards: `read` and `later` are the rows that
`getConfig` reads before and after. -/
structure IsAsWanted (input : UpdateNotificationConfigInput) (read later : NotificationConfig) :
    Prop where
  settings_eq : later.settings = input.merge read.settings
  /-- Credentials that are left out, or sent back as they were shown, stay. -/
  credentials_kept : input.credentialsJson = none ∨
    input.credentialsJson = some (maskCredentials json read.credentialsJson) →
      present later.credentialsJson = present read.credentialsJson
  credentials_stored : ∀ credentials, input.credentialsJson = some (some credentials) →
    IsUnmasked json credentials → later.credentialsJson = some credentials

/-- An update keeps what it must, whatever order the database chooses, then and when the settings
are read again. -/
def ConfigUpdateKeeps (input : UpdateNotificationConfigInput) (id : String) (now : ℤ)
    (table : ConfigTable) : Prop :=
  ∀ database later : Database, IsAsWanted json input (activeConfig database table.rows)
    (activeConfig later (updateConfig json database input id now table.rows))

/-- Masked and new credentials are told apart: credentials that are left out are shown as they are,
those that are sent back as they were shown are recognised or shown as they are, and new ones are
not taken for masked ones. -/
structure IsToldApart (input : UpdateNotificationConfigInput) (stored : Option CodeUnits) :
    Prop where
  omitted : input.credentialsJson = none →
    present (maskCredentials json stored) = present stored
  shown : ∀ shown, maskCredentials json stored = some shown →
    input.credentialsJson = some (some shown) →
      includes shown (units "whsec_") = true ∨ present (some shown) = present stored
  new : ∀ credentials, input.credentialsJson = some (some credentials) →
    IsUnmasked json credentials →
      includes credentials (units "whsec_") = false ∨ present stored = some credentials

/-- The row that `getConfig` may read from a table. -/
def IsRead (rows : List NotificationConfig) (read : NotificationConfig) : Prop :=
  IsNewest rows read ∨ rows = [] ∧ read = defaultConfig

/-- Credentials are told apart, and there is one row at most or every newest row is already as the
update wants it. -/
structure IsSafeUpdate (input : UpdateNotificationConfigInput) (table : ConfigTable) : Prop where
  toldApart : ∀ read, IsRead table.rows read → IsToldApart json input read.credentialsJson
  steady : table.rows.length ≤ 1 ∨ ∀ read later, IsNewest table.rows read →
    IsNewest table.rows later → IsAsWanted json input read later

/-! ### The row that is written -/

variable {json} {input : UpdateNotificationConfigInput} {table : ConfigTable}

@[simp] theorem present_present (stored : Option CodeUnits) :
    present (present stored) = present stored := by
  unfold present
  rw [Option.filter_filter]
  simp

theorem maskCredentials_eq_none_iff {stored : Option CodeUnits} :
    maskCredentials json stored = none ↔ present stored = none := by
  unfold maskCredentials
  rw [Option.map_eq_none_iff]

/-- The written row is as wanted exactly when the credentials are told apart. -/
theorem isAsWanted_written_iff {read later : NotificationConfig}
    (hsettings : later.settings = input.merge read.settings)
    (hcredentials : later.credentialsJson =
      newCredentials json read.credentialsJson input.credentialsJson) :
    IsAsWanted json input read later ↔ IsToldApart json input read.credentialsJson := by
  constructor
  · rintro ⟨-, hkept, hstored⟩
    refine ⟨fun homitted ↦ ?_, fun shown hshown hinput ↦ ?_, fun credentials hinput hnew ↦ ?_⟩
    · have hsame := hkept (Or.inl homitted)
      rwa [hcredentials, homitted] at hsame
    · have hsame := hkept (Or.inr (hinput.trans (congrArg some hshown.symm)))
      rw [hcredentials, hinput] at hsame
      by_cases hincludes : includes shown (units "whsec_") = true
      · exact Or.inl hincludes
      · simp only [newCredentials, if_neg hincludes] at hsame
        exact Or.inr hsame
    · have hsame := hstored credentials hinput hnew
      rw [hcredentials, hinput] at hsame
      cases hincludes : includes credentials (units "whsec_") with
      | true =>
        simp only [newCredentials, hincludes, if_true] at hsame
        exact Or.inr hsame
      | false => exact Or.inl rfl
  · rintro ⟨homitted, hshown, hnew⟩
    refine ⟨hsettings, ?_, fun credentials hinput hunmasked ↦ ?_⟩
    · rw [hcredentials]
      rintro (hinput | hinput)
      · rw [hinput]
        exact homitted hinput
      · cases hmask : maskCredentials json read.credentialsJson with
        | none =>
          rw [hinput, hmask, maskCredentials_eq_none_iff.mp hmask]
          rfl
        | some shown =>
          rw [hmask] at hinput
          rw [hinput]
          unfold newCredentials
          dsimp only
          split_ifs with hincludes
          · exact present_present _
          · exact (hshown shown hmask hinput).resolve_left hincludes
    · rw [hcredentials, hinput]
      unfold newCredentials
      dsimp only
      split_ifs with hincludes
      · exact (hnew credentials hinput hunmasked).resolve_left (by simp [hincludes])
      · rfl

/-! ### The order of the rows -/

/-- The newer of two rows, the second when they are of one age. -/
def newerOf (first second : NotificationConfig) : NotificationConfig :=
  if second.createdAt < first.createdAt then first else second

/-- The newest of some rows. -/
def newestOf : List NotificationConfig → Option NotificationConfig
  | [] => none
  | row :: rows => some (((newestOf rows).map (newerOf row)).getD row)

theorem isNewest_of_newestOf {rows : List NotificationConfig} {row : NotificationConfig}
    (h : newestOf rows = some row) : IsNewest rows row := by
  induction rows generalizing row with
  | nil => cases h
  | cons first rows ih =>
    obtain rfl := Option.some.inj h
    cases hrest : newestOf rows with
    | none =>
      have hnil : rows = [] := by
        cases rows with
        | nil => rfl
        | cons second rest => cases hrest
      subst hnil
      refine ⟨List.mem_cons_self, fun other hother ↦ ?_⟩
      rw [List.mem_singleton.mp hother]
      exact le_refl _
    | some newest =>
      obtain ⟨hmem, hleast⟩ := ih hrest
      rw [Option.map_some, Option.getD_some]
      unfold newerOf
      split_ifs with holder
      · refine ⟨List.mem_cons_self, fun other hother ↦ ?_⟩
        rcases List.mem_cons.mp hother with rfl | hold
        · exact le_refl _
        · exact (hleast other hold).trans holder.le
      · refine ⟨List.mem_cons_of_mem _ hmem, fun other hother ↦ ?_⟩
        rcases List.mem_cons.mp hother with rfl | hold
        · exact not_lt.mp holder
        · exact hleast other hold

/-- A database that lists the row `newestId` before the others of its age, and the row `firstId`
before all others. -/
def preferring (newestId firstId : String) : Database where
  newest := fun rows ↦
    (rows.find? fun row ↦ row.id = newestId ∧ rows.all (·.createdAt ≤ row.createdAt)).or
      (newestOf rows)
  newest_eq_none := by
    intro rows h
    cases rows with
    | nil => rfl
    | cons row rows => cases (Option.or_eq_none_iff.mp h).2
  isNewest := by
    intro rows row h
    rcases Option.or_eq_some_iff.mp h with hfound | ⟨-, hnewest⟩
    · have hprefers := List.find?_some hfound
      rw [decide_eq_true_iff] at hprefers
      refine ⟨List.mem_of_find?_eq_some hfound, fun other hother ↦ ?_⟩
      exact of_decide_eq_true (List.all_eq_true.mp hprefers.2 other hother)
    · exact isNewest_of_newestOf hnewest
  first := fun rows ↦ (rows.find? (·.id = firstId)).or rows.head?
  first_eq_none := fun h ↦ List.head?_eq_none_iff.mp (Option.or_eq_none_iff.mp h).2
  first_mem := by
    intro rows row h
    rcases Option.or_eq_some_iff.mp h with hfound | ⟨-, hhead⟩
    · exact List.mem_of_find?_eq_some hfound
    · exact List.mem_of_mem_head? hhead

theorem eq_of_id_eq {rows : List NotificationConfig} (hnodup : (rows.map (·.id)).Nodup)
    {first second : NotificationConfig} (hfirst : first ∈ rows) (hsecond : second ∈ rows)
    (hid : first.id = second.id) : first = second :=
  List.inj_on_of_nodup_map hnodup hfirst hsecond hid

theorem find?_id {rows : List NotificationConfig} (hnodup : (rows.map (·.id)).Nodup)
    {row : NotificationConfig} (hrow : row ∈ rows) {accepts : NotificationConfig → Bool}
    (haccepts : accepts row = true) (hid : ∀ other, accepts other = true → other.id = row.id) :
    rows.find? accepts = some row := by
  cases hfound : rows.find? accepts with
  | none => exact absurd haccepts (List.find?_eq_none.mp hfound row hrow)
  | some found =>
    rw [eq_of_id_eq hnodup (List.mem_of_find?_eq_some hfound) hrow
      (hid found (List.find?_some hfound))]

theorem preferring_newest {rows : List NotificationConfig} (hnodup : (rows.map (·.id)).Nodup)
    {row : NotificationConfig} (hrow : IsNewest rows row) (firstId : String) :
    (preferring row.id firstId).newest rows = some row := by
  have hfound : rows.find? (fun other ↦ other.id = row.id ∧
      rows.all (·.createdAt ≤ other.createdAt)) = some row := by
    refine find?_id hnodup hrow.1 ?_ fun other hother ↦ (of_decide_eq_true hother).1
    simpa using hrow.2
  simp only [preferring, hfound, Option.some_or]

theorem preferring_first {rows : List NotificationConfig} (hnodup : (rows.map (·.id)).Nodup)
    {row : NotificationConfig} (hrow : row ∈ rows) (newestId : String) :
    (preferring newestId row.id).first rows = some row := by
  have hfound : rows.find? (·.id = row.id) = some row :=
    find?_id hnodup hrow (by simp) fun other hother ↦ of_decide_eq_true hother
  simp only [preferring, hfound, Option.some_or]

/-! ### Which row is written and which is read -/

variable {database later : Database} {id : String} {now : ℤ}

/-- A row as an update of the row `target` leaves it, `read` being the row that was read. -/
def written (json : JsonText) (input : UpdateNotificationConfigInput)
    (read target row : NotificationConfig) : NotificationConfig :=
  if row.id = target.id then
    { row with
      settings := input.merge read.settings
      credentialsJson := newCredentials json read.credentialsJson input.credentialsJson }
  else row

theorem updateConfig_of_first {target : NotificationConfig}
    (hfirst : database.first table.rows = some target) :
    updateConfig json database input id now table.rows =
      table.rows.map (written json input (activeConfig database table.rows) target) := by
  unfold updateConfig
  simp only [hfirst]
  rfl

@[simp] theorem written_id (read target row : NotificationConfig) :
    (written json input read target row).id = row.id := by
  unfold written
  split_ifs <;> rfl

@[simp] theorem written_createdAt (read target row : NotificationConfig) :
    (written json input read target row).createdAt = row.createdAt := by
  unfold written
  split_ifs <;> rfl

theorem nodup_written (table : ConfigTable) (read target : NotificationConfig) :
    ((table.rows.map (written json input read target)).map (·.id)).Nodup := by
  have hids : (table.rows.map (written json input read target)).map (·.id) =
      table.rows.map (·.id) := by
    rw [List.map_map]
    exact List.map_congr_left fun row _ ↦ written_id read target row
  rw [hids]
  exact table.nodup

/-- An update changes no date, so the newest rows stay the newest. -/
theorem isNewest_written (json : JsonText) (input : UpdateNotificationConfigInput)
    (read target : NotificationConfig) {rows : List NotificationConfig} {row : NotificationConfig}
    (hrow : IsNewest rows row) :
    IsNewest (rows.map (written json input read target)) (written json input read target row) := by
  refine ⟨List.mem_map_of_mem hrow.1, fun other hother ↦ ?_⟩
  obtain ⟨before, hbefore, rfl⟩ := List.mem_map.mp hother
  rw [written_createdAt, written_createdAt]
  exact hrow.2 before hbefore

theorem exists_of_isNewest_written {rows : List NotificationConfig}
    {read target found : NotificationConfig}
    (hfound : IsNewest (rows.map (written json input read target)) found) :
    ∃ row, IsNewest rows row ∧ written json input read target row = found := by
  obtain ⟨row, hrow, rfl⟩ := List.mem_map.mp hfound.1
  refine ⟨row, ⟨hrow, fun other hother ↦ ?_⟩, rfl⟩
  have hle := hfound.2 _ (List.mem_map_of_mem hother)
  rwa [written_createdAt, written_createdAt] at hle

theorem activeConfig_of_newest {rows : List NotificationConfig} {read : NotificationConfig}
    (hread : database.newest rows = some read) : activeConfig database rows = read := by
  unfold activeConfig
  rw [hread]
  rfl

/-- The rows after an update of an empty table. -/
theorem updateConfig_of_empty (json : JsonText) (database : Database)
    (input : UpdateNotificationConfigInput) (id : String) (now : ℤ) (hempty : table.rows = []) :
    activeConfig database table.rows = defaultConfig ∧
      updateConfig json database input id now table.rows = [{
        id
        settings := input.merge defaultConfig.settings
        credentialsJson := newCredentials json defaultConfig.credentialsJson input.credentialsJson
        createdAt := now }] := by
  have hnewest : database.newest [] = none := by
    cases hfound : database.newest [] with
    | none => rfl
    | some row => exact absurd (database.isNewest hfound).1 List.not_mem_nil
  have hfirst : database.first [] = none := by
    cases hfound : database.first [] with
    | none => rfl
    | some row => exact absurd (database.first_mem hfound) List.not_mem_nil
  have hread : activeConfig database [] = defaultConfig := by
    unfold activeConfig
    rw [hnewest]
    rfl
  rw [hempty]
  refine ⟨hread, ?_⟩
  unfold updateConfig getConfig
  simp only [hfirst, hread, List.nil_append]

/-- The one row of a table is read, whatever the order. -/
theorem activeConfig_singleton (row : NotificationConfig) : activeConfig database [row] = row := by
  cases hfound : database.newest [row] with
  | none => cases database.newest_eq_none hfound
  | some read =>
    rw [activeConfig_of_newest hfound]
    exact List.mem_singleton.mp (database.isNewest hfound).1

/-! ### When an update keeps what it must -/

/-- Two rows with different identifiers make a table of more than one row. -/
theorem not_length_le_one {rows : List NotificationConfig} {first second : NotificationConfig}
    (hfirst : first ∈ rows) (hsecond : second ∈ rows) (hid : first.id ≠ second.id) :
    ¬ rows.length ≤ 1 := by
  intro hlength
  cases rows with
  | nil => exact absurd hfirst List.not_mem_nil
  | cons row rest =>
    obtain rfl : rest = [] := List.eq_nil_of_length_eq_zero (by
      rw [List.length_cons] at hlength
      omega)
    rw [List.mem_singleton.mp hfirst, List.mem_singleton.mp hsecond] at hid
    exact hid rfl

theorem configUpdateKeeps_of_isSafeUpdate (hsafe : IsSafeUpdate json input table) :
    ConfigUpdateKeeps json input id now table := by
  intro database later
  cases hfirst : database.first table.rows with
  | none =>
    have hempty := database.first_eq_none hfirst
    obtain ⟨hread, hrows⟩ := updateConfig_of_empty json database input id now hempty
    rw [hread, hrows, activeConfig_singleton]
    exact (isAsWanted_written_iff rfl rfl).mpr (hsafe.toldApart _ (Or.inr ⟨hempty, rfl⟩))
  | some target =>
    have htarget := database.first_mem hfirst
    cases hnewest : database.newest table.rows with
    | none =>
      rw [database.newest_eq_none hnewest] at htarget
      exact absurd htarget List.not_mem_nil
    | some read =>
      have hread := database.isNewest hnewest
      rw [updateConfig_of_first hfirst, activeConfig_of_newest hnewest]
      cases hlater : later.newest (table.rows.map (written json input read target)) with
      | none =>
        rw [List.map_eq_nil_iff.mp (later.newest_eq_none hlater)] at htarget
        exact absurd htarget List.not_mem_nil
      | some found =>
        rw [activeConfig_of_newest hlater]
        obtain ⟨row, hrow, rfl⟩ := exists_of_isNewest_written (later.isNewest hlater)
        by_cases hid : row.id = target.id
        · -- the written row is read back
          have hwritten : written json input read target row = { row with
              settings := input.merge read.settings
              credentialsJson := newCredentials json read.credentialsJson input.credentialsJson } :=
            if_pos hid
          rw [hwritten]
          exact (isAsWanted_written_iff rfl rfl).mpr (hsafe.toldApart read (Or.inl hread))
        · -- another row is read back, so there is more than one
          have hsame : written json input read target row = row := if_neg hid
          rw [hsame]
          exact hsafe.steady.resolve_left (not_length_le_one hrow.1 htarget hid) read row hread hrow

theorem exists_other {rows : List NotificationConfig} (hnodup : (rows.map (·.id)).Nodup)
    (hlength : ¬ rows.length ≤ 1) (row : NotificationConfig) :
        ∃ other ∈ rows, other.id ≠ row.id := by
  match rows, hlength with
  | [], hlength => exact absurd (Nat.zero_le 1) hlength
  | [_], hlength => exact absurd le_rfl hlength
  | first :: second :: rest, _ =>
    have hne : first.id ≠ second.id := by
      intro hsame
      rw [List.map_cons, List.map_cons, List.nodup_cons] at hnodup
      exact hnodup.1 (hsame ▸ List.mem_cons_self)
    by_cases hid : first.id = row.id
    · exact ⟨second, List.mem_cons_of_mem _ List.mem_cons_self, fun hsame ↦
        hne (hid.trans hsame.symm)⟩
    · exact ⟨first, List.mem_cons_self, hid⟩

/-- What is read back when the database prefers the rows `read`, `target` and then `row`. -/
theorem isAsWanted_of_keeps (hkeeps : ConfigUpdateKeeps json input id now table)
    {read target row : NotificationConfig} (hread : IsNewest table.rows read)
    (htarget : target ∈ table.rows) (hrow : IsNewest table.rows row) :
    IsAsWanted json input read (written json input read target row) := by
  have hwanted := hkeeps (preferring read.id target.id) (preferring row.id "")
  rw [updateConfig_of_first (preferring_first table.nodup htarget read.id),
    activeConfig_of_newest (preferring_newest table.nodup hread target.id)] at hwanted
  have hlater := preferring_newest (nodup_written table read target)
    (isNewest_written json input read target hrow) ""
  rw [written_id] at hlater
  rwa [activeConfig_of_newest hlater] at hwanted

theorem isSafeUpdate_of_keeps (hkeeps : ConfigUpdateKeeps json input id now table) :
    IsSafeUpdate json input table where
  toldApart := by
    rintro read (hread | ⟨hempty, rfl⟩)
    · have hwanted := isAsWanted_of_keeps hkeeps hread hread.1 hread
      have hwritten : written json input read read read = { read with
          settings := input.merge read.settings
          credentialsJson := newCredentials json read.credentialsJson input.credentialsJson } :=
        if_pos rfl
      rw [hwritten] at hwanted
      exact (isAsWanted_written_iff rfl rfl).mp hwanted
    · obtain ⟨hread, hrows⟩ :=
        updateConfig_of_empty json (preferring "" "") input id now hempty
      have hwanted := hkeeps (preferring "" "") (preferring "" "")
      rw [hread, hrows, activeConfig_singleton] at hwanted
      exact (isAsWanted_written_iff rfl rfl).mp hwanted
  steady := by
    refine or_iff_not_imp_left.mpr fun hlength read later hread hlater ↦ ?_
    obtain ⟨other, hother, hid⟩ := exists_other table.nodup hlength later
    have hwanted := isAsWanted_of_keeps hkeeps hread hother hlater
    have hsame : written json input read other later = later := if_neg hid.symm
    rwa [hsame] at hwanted

/-- An update of the settings keeps what it must, if and only if there is one row at most or nothing
to change, and masked and new credentials are told apart. -/
theorem configUpdate_iff (json : JsonText) (input : UpdateNotificationConfigInput) (id : String)
    (now : ℤ) (table : ConfigTable) :
    ConfigUpdateKeeps json input id now table ↔ IsSafeUpdate json input table :=
  ⟨isSafeUpdate_of_keeps, configUpdateKeeps_of_isSafeUpdate⟩

/-! ### Both services -/

/-- Editing an endpoint or the notification settings keeps what it must, each if and only if its
condition holds. -/
theorem keepsStoredSecrets_iff (allowPrivateIpsForTesting : Bool)
    (urlValidation : Webhooks.UrlSafety) (existing : Webhooks.EndpointRecord)
    (endpointInput : Webhooks.UpdateWebhookInput) (json : JsonText)
    (input : UpdateNotificationConfigInput) (id : String) (now : ℤ) (table : ConfigTable) :
    (Webhooks.UpdateKeeps allowPrivateIpsForTesting urlValidation existing endpointInput ↔
      Webhooks.IsRecognised allowPrivateIpsForTesting urlValidation existing endpointInput) ∧
    (ConfigUpdateKeeps json input id now table ↔ IsSafeUpdate json input table) :=
  ⟨Webhooks.updateKeeps_iff allowPrivateIpsForTesting urlValidation existing endpointInput,
    configUpdate_iff json input id now table⟩

/-! ### Credentials that are left out -/

def cloudCredentials : CodeUnits := units "\x7b\"accessToken\":\"EAAGsecret\"\x7d"

/-- JSON, at the credentials above. -/
def cloudJson : JsonText where
  parse := fun text ↦
    if text = cloudCredentials then some [(units "accessToken", some (units "EAAGsecret"))] else
      none
  stringify := fun entries ↦
    units "\x7b" ++ (entries.map fun entry ↦
      units "\"" ++ entry.1 ++ units "\":\"" ++ entry.2 ++ units "\"").flatten ++ units "\x7d"

def cloudConfig : NotificationConfig where
  id := "c-1"
  settings := { defaultConfig.settings with provider := "whatsapp_cloud" }
  credentialsJson := some cloudCredentials
  createdAt := 10

def oneConfig : ConfigTable where
  rows := [cloudConfig]
  nodup := List.nodup_singleton _

/-- Two rows, the older one without credentials. -/
def twoConfigs : ConfigTable where
  rows := [{ defaultConfig with id := "c-0" }, cloudConfig]
  nodup := by decide

def slower : UpdateNotificationConfigInput where
  cooldownSeconds := some 120

theorem isNewest_cloudConfig : IsNewest oneConfig.rows cloudConfig ∧
    IsNewest twoConfigs.rows cloudConfig := by
  refine ⟨⟨List.mem_singleton_self _, ?_⟩, ⟨List.mem_cons_of_mem _ (List.mem_singleton_self _), ?_⟩⟩
  · intro other hother
    rw [List.mem_singleton.mp hother]
  · intro other hother
    rcases List.mem_cons.mp hother with rfl | hother
    · decide
    · rw [List.mem_singleton.mp hother]

/-- A new cooldown overwrites the credentials by their mask; with two rows it goes to the one that
is not read; and an endpoint's secret sent back as it was shown is overwritten by its mask. -/
theorem not_keepsStoredSecrets_edited :
    ¬ Webhooks.UpdateKeeps false { safe := true } Webhooks.longSecret Webhooks.shownSecret ∧
      ¬ ConfigUpdateKeeps cloudJson slower "c-2" 20 oneConfig ∧
      ¬ ConfigUpdateKeeps cloudJson { slower with credentialsJson := some (some cloudCredentials) }
        "c-2" 20 twoConfigs := by
  refine ⟨Webhooks.not_updateKeeps_shownSecret, fun hkeeps ↦ ?_, fun hkeeps ↦ ?_⟩
  · have homitted := ((isSafeUpdate_of_keeps hkeeps).toldApart cloudConfig
      (Or.inl isNewest_cloudConfig.1)).omitted rfl
    revert homitted
    decide
  · have hsteady := (isSafeUpdate_of_keeps hkeeps).steady.resolve_left (by decide) cloudConfig
      cloudConfig isNewest_cloudConfig.2 isNewest_cloudConfig.2
    have hsettings := hsteady.settings_eq
    revert hsettings
    decide

end VmsLite.Notifications
