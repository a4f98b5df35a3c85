import VmsLite.Data.Json
import VmsLite.Events.EventVisibility
import VmsLite.Events.UserInfo

/-!
# Scrubbing the metadata of events

`emitEvent` scrubs the metadata of an event before it stores and broadcasts it: `scrubSecrets` drops
the entries of objects whose keys look secret and takes the user information out of the URLs in
texts, down to the sixth level. The database gives metadata back as it was stored.

No secret is stored or broadcast, and nothing else is changed, exactly when the metadata is
`Scrubbable`: the user information of its URLs is plain, nothing secret stands below the sixth
level, and no entry to keep is called `__proto__` (`keepsSecretsOut_iff`).
-/

set_option autoImplicit false

namespace VmsLite.Events

open Data (Json)
open Url (Text)

/-! ### The code -/

/-- The words of `SECRET_KEY_PATTERN`. -/
def secretWords : List Text :=
  ["pass".toList, "secret".toList, "token".toList, "credential".toList, "apikey".toList,
    "api-key".toList, "api_key".toList]

/-- `SECRET_KEY_PATTERN.test(key)`. -/
def isSecretKey (key : Text) : Bool :=
  secretWords.any fun word ↦ decide (word <:+: key.map Char.toLower)

def protoKey : Text := "__proto__".toList

mutual
/-- `scrubSecrets(value, depth)`. -/
def scrubSecrets (depth : ℕ) : Json → Json
  | .null => .null
  | .bool value => .bool value
  | .number value => .number value
  | .string text => if 6 < depth then .string text else .string (scrubText text)
  | .array items => if 6 < depth then .array items else .array (scrubItems depth items)
  | .object entries => if 6 < depth then .object entries else .object (scrubEntries depth entries)

def scrubItems (depth : ℕ) : List Json → List Json
  | [] => []
  | item :: items => scrubSecrets (depth + 1) item :: scrubItems depth items

/-- The entries of `out`. An assignment to `__proto__` adds none. -/
def scrubEntries (depth : ℕ) : List (Text × Json) → List (Text × Json)
  | [] => []
  | (key, value) :: entries =>
    if isSecretKey key then scrubEntries depth entries
    else if key = protoKey then scrubEntries depth entries
    else (key, scrubSecrets (depth + 1) value) :: scrubEntries depth entries
end

/-- What came of the creation of the row. -/
inductive Creation
  | created
  | failed

structure Emitted where
  stored : Option Json
  broadcast : Json

/-- `input.metadata ?? {}`. -/
def givenMetadata : Option Json → Json
  | none | some .null => .object []
  | some metadata => metadata

def emitEvent (type : EventType) (creation : Creation) (metadata : Option Json) : Emitted :=
  let scrubbed := scrubSecrets 0 (givenMetadata metadata)
  if type ∈ nonPersistedEventTypes then ⟨none, scrubbed⟩
  else
    match creation with
    | .created => ⟨some scrubbed, scrubbed⟩
    | .failed => ⟨none, scrubbed⟩

/-- The metadata that leaves the bus. -/
def Emitted.copies (emitted : Emitted) : List Json := emitted.broadcast :: emitted.stored.toList

theorem copies_emitEvent (type : EventType) (creation : Creation) (metadata : Option Json) :
    ∀ kept ∈ (emitEvent type creation metadata).copies, kept =
        scrubSecrets 0 (givenMetadata metadata) := by
  intro kept hkept
  unfold emitEvent at hkept
  dsimp only at hkept
  split_ifs at hkept with htype
  · simpa [Emitted.copies] using hkept
  · cases creation with
    | created => simpa [Emitted.copies] using hkept
    | failed => simpa [Emitted.copies] using hkept

theorem broadcast_mem_copies (type : EventType) (creation : Creation) (metadata : Option Json) :
    scrubSecrets 0 (givenMetadata metadata) ∈ (emitEvent type creation metadata).copies := by
  unfold emitEvent
  dsimp only
  split_ifs
  · exact List.mem_cons_self
  · cases creation with
    | created => exact List.mem_cons_self
    | failed => exact List.mem_cons_self

/-! ### What is asked of it -/

/-- No key looks secret and no URL has user information, at any depth. -/
inductive IsClean : Json → Prop
  | null : IsClean .null
  | bool (value : Bool) : IsClean (.bool value)
  | number (value : ℚ) : IsClean (.number value)
  | string {text : Text} (h : ¬ HasUserInfo text) : IsClean (.string text)
  | array {items : List Json} (h : ∀ item ∈ items, IsClean item) : IsClean (.array items)
  | object {entries : List (Text × Json)} (hkeys : ∀ entry ∈ entries, isSecretKey entry.1 = false)
      (h : ∀ entry ∈ entries, IsClean entry.2) : IsClean (.object entries)

mutual
/-- The value without the entries whose keys look secret and without user information in texts, and
nothing else changed. -/
inductive Redacts : Json → Json → Prop
  | null : Redacts .null .null
  | bool (value : Bool) : Redacts (.bool value) (.bool value)
  | number (value : ℚ) : Redacts (.number value) (.number value)
  | string {text stripped : Text} (h : Strips text stripped) :
    Redacts (.string text) (.string stripped)
  | array {items redacted : List Json} (h : RedactsItems items redacted) :
      Redacts (.array items) (.array redacted)
  | object {entries redacted : List (Text × Json)} (h : RedactsEntries entries redacted) :
      Redacts (.object entries) (.object redacted)

inductive RedactsItems : List Json → List Json → Prop
  | nil : RedactsItems [] []
  | cons {item other : Json} {items others : List Json} (hitem : Redacts item other)
      (hitems : RedactsItems items others) : RedactsItems (item :: items) (other :: others)

inductive RedactsEntries : List (Text × Json) → List (Text × Json) → Prop
  | nil : RedactsEntries [] []
  | drop {key : Text} {value : Json} {entries others : List (Text × Json)}
      (hkey : isSecretKey key = true) (h : RedactsEntries entries others) :
      RedactsEntries ((key, value) :: entries) others
  | keep {key : Text} {value other : Json} {entries others : List (Text × Json)}
      (hkey : isSecretKey key = false) (hvalue : Redacts value other)
      (h : RedactsEntries entries others) :
      RedactsEntries ((key, value) :: entries) ((key, other) :: others)
end

/-- Whatever is stored or broadcast of the metadata is free of secrets, otherwise unchanged, and
left as it is by another scrub. -/
def KeepsSecretsOut (metadata : Option Json) : Prop :=
  ∀ type creation, ∀ kept ∈ (emitEvent type creation metadata).copies,
    IsClean kept ∧ Redacts (givenMetadata metadata) kept ∧ scrubSecrets 0 kept = kept

/-- At a depth that is scrubbed, the user information of every text is plain and no entry to keep is
called `__proto__`; below it, nothing is secret. -/
inductive Scrubbable : ℕ → Json → Prop
  | deep {depth : ℕ} {value : Json} (hdepth : 6 < depth) (h : IsClean value) :
    Scrubbable depth value
  | null {depth : ℕ} : Scrubbable depth .null
  | bool {depth : ℕ} (value : Bool) : Scrubbable depth (.bool value)
  | number {depth : ℕ} (value : ℚ) : Scrubbable depth (.number value)
  | string {depth : ℕ} {text : Text} (hdepth : depth ≤ 6) (h : IsPlainText text) :
      Scrubbable depth (.string text)
  | array {depth : ℕ} {items : List Json} (hdepth : depth ≤ 6)
      (h : ∀ item ∈ items, Scrubbable (depth + 1) item) : Scrubbable depth (.array items)
  | object {depth : ℕ} {entries : List (Text × Json)} (hdepth : depth ≤ 6)
      (hproto : ∀ entry ∈ entries, isSecretKey entry.1 = false → entry.1 ≠ protoKey)
      (h : ∀ entry ∈ entries, isSecretKey entry.1 = false → Scrubbable (depth + 1) entry.2) :
      Scrubbable depth (.object entries)

/-! ### Scrubbing -/

theorem scrubSecrets_of_deep {depth : ℕ} (hdepth : 6 < depth) (value : Json) :
    scrubSecrets depth value = value := by
  cases value with
  | null => rfl
  | bool value => rfl
  | number value => rfl
  | string text => simp only [scrubSecrets, if_pos hdepth]
  | array items => simp only [scrubSecrets, if_pos hdepth]
  | object entries => simp only [scrubSecrets, if_pos hdepth]

section Scrubbed

variable {depth : ℕ} (hdepth : depth ≤ 6)

include hdepth

theorem scrubSecrets_string (text : Text) :
    scrubSecrets depth (.string text) = .string (scrubText text) := by
  simp only [scrubSecrets, if_neg (Nat.not_lt.mpr hdepth)]

theorem scrubSecrets_array (items : List Json) :
    scrubSecrets depth (.array items) = .array (scrubItems depth items) := by
  simp only [scrubSecrets, if_neg (Nat.not_lt.mpr hdepth)]

theorem scrubSecrets_object (entries : List (Text × Json)) :
    scrubSecrets depth (.object entries) = .object (scrubEntries depth entries) := by
  simp only [scrubSecrets, if_neg (Nat.not_lt.mpr hdepth)]

end Scrubbed

theorem scrubItems_eq (depth : ℕ) (items : List Json) :
    scrubItems depth items = items.map (scrubSecrets (depth + 1)) := by
  induction items with
  | nil => rfl
  | cons item items ih => rw [scrubItems, ih, List.map_cons]

/-- The entries that are kept are those whose keys neither look secret nor are `__proto__`. -/
theorem mem_scrubEntries {depth : ℕ} {entries : List (Text × Json)} {kept : Text × Json} :
    kept ∈ scrubEntries depth entries ↔ isSecretKey kept.1 = false ∧ kept.1 ≠ protoKey ∧
      ∃ value, (kept.1, value) ∈ entries ∧ kept.2 = scrubSecrets (depth + 1) value := by
  induction entries with
  | nil => simp [scrubEntries]
  | cons entry entries ih =>
    obtain ⟨key, value⟩ := entry
    obtain ⟨name, other⟩ := kept
    rw [scrubEntries]
    split_ifs with hsecret hproto
    · rw [ih]
      refine and_congr_right fun hname ↦ and_congr_right fun _ ↦ exists_congr fun before ↦ ?_
      have hother : name ≠ key := by
        rintro rfl
        rw [hsecret] at hname
        cases hname
      simp [hother]
    · rw [ih]
      refine and_congr_right fun _ ↦ and_congr_right fun hname ↦ exists_congr fun before ↦ ?_
      have hother : name ≠ key := hproto ▸ hname
      simp [hother]
    · rw [List.mem_cons, ih]
      constructor
      · rintro (hsame | ⟨hname, hkept, before, hmem, hvalue⟩)
        · obtain ⟨rfl, rfl⟩ := Prod.mk.inj hsame
          exact ⟨by simpa using hsecret, hproto, value, List.mem_cons_self, rfl⟩
        · exact ⟨hname, hkept, before, List.mem_cons_of_mem _ hmem, hvalue⟩
      · rintro ⟨hname, hkept, before, hmem, hvalue⟩
        rcases List.mem_cons.mp hmem with hsame | hmem
        · obtain ⟨rfl, rfl⟩ := Prod.mk.inj hsame
          exact Or.inl (Prod.ext rfl hvalue)
        · exact Or.inr ⟨hname, hkept, before, hmem, hvalue⟩

theorem isClean_scrubSecrets {depth : ℕ} {value : Json} (h : Scrubbable depth value) :
    IsClean (scrubSecrets depth value) := by
  induction h with
  | deep hdepth hclean =>
    rw [scrubSecrets_of_deep hdepth]
    exact hclean
  | null => exact .null
  | bool value => exact .bool value
  | number value => exact .number value
  | string hdepth hplain =>
    rw [scrubSecrets_string hdepth]
    exact .string fun hleft ↦ (hasUserInfo_scrubText_iff _).mp hleft hplain
  | array hdepth hitems ih =>
    rw [scrubSecrets_array hdepth, scrubItems_eq]
    exact .array (List.forall_mem_map.mpr ih)
  | object hdepth hproto hentries ih =>
    rw [scrubSecrets_object hdepth]
    refine .object (fun entry hentry ↦ (mem_scrubEntries.mp hentry).1) fun entry hentry ↦ ?_
    obtain ⟨hkey, -, value, hmem, hvalue⟩ := mem_scrubEntries.mp hentry
    rw [hvalue]
    exact ih _ hmem hkey

theorem redactsItems_map {redact : Json → Json} {items : List Json}
    (h : ∀ item ∈ items, Redacts item (redact item)) : RedactsItems items (items.map redact) := by
  induction items with
  | nil => exact .nil
  | cons item items ih =>
    obtain ⟨hitem, hitems⟩ := List.forall_mem_cons.mp h
    exact .cons hitem (ih hitems)

theorem redactsItems_map_iff {redact : Json → Json} {items : List Json} :
    RedactsItems items (items.map redact) ↔ ∀ item ∈ items, Redacts item (redact item) := by
  refine ⟨fun h ↦ ?_, redactsItems_map⟩
  induction items with
  | nil => exact fun _ hitem ↦ absurd hitem List.not_mem_nil
  | cons item items ih =>
    cases h with
    | cons hitem hitems => exact List.forall_mem_cons.mpr ⟨hitem, ih hitems⟩

theorem Redacts.refl_of_isClean {value : Json} (h : IsClean value) : Redacts value value := by
  induction h with
  | null => exact .null
  | bool value => exact .bool value
  | number value => exact .number value
  | string hclean => exact .string (.refl _)
  | @array items hitems ih =>
    have hredacts := @redactsItems_map id _ ih
    rw [List.map_id] at hredacts
    exact .array hredacts
  | @object entries hkeys hentries ih =>
    refine .object ?_
    clear hentries
    induction entries with
    | nil => exact .nil
    | cons entry entries ihEntries =>
      obtain ⟨hkey, hkeys⟩ := List.forall_mem_cons.mp hkeys
      obtain ⟨hvalue, hvalues⟩ := List.forall_mem_cons.mp ih
      exact .keep hkey hvalue (ihEntries hkeys hvalues)

/-- Entries without `__proto__` among those to keep are scrubbed entry by entry. -/
theorem redactsEntries_scrubEntries_iff {depth : ℕ} {entries : List (Text × Json)}
    (hproto : ∀ entry ∈ entries, isSecretKey entry.1 = false → entry.1 ≠ protoKey) :
    RedactsEntries entries (scrubEntries depth entries) ↔ ∀ entry ∈ entries,
      isSecretKey entry.1 = false → Redacts entry.2 (scrubSecrets (depth + 1) entry.2) := by
  induction entries with
  | nil => exact iff_of_true .nil fun _ hentry ↦ absurd hentry List.not_mem_nil
  | cons entry entries ih =>
    obtain ⟨key, value⟩ := entry
    obtain ⟨hkept, hproto⟩ := List.forall_mem_cons.mp hproto
    rw [List.forall_mem_cons, ← ih hproto, scrubEntries]
    cases hkey : isSecretKey key with
    | true =>
      rw [if_pos rfl]
      constructor
      · intro h
        generalize scrubEntries depth entries = redacted at h ⊢
        cases h with
        | drop _ h => exact ⟨nofun, h⟩
        | keep hother _ _ => exact absurd (hkey.symm.trans hother) (by decide)
      · exact fun h ↦ .drop hkey h.2
    | false =>
      rw [if_neg (by decide), if_neg (hkept hkey)]
      constructor
      · intro h
        cases h with
        | drop hother _ => exact absurd (hkey.symm.trans hother) (by decide)
        | keep _ hvalue h => exact ⟨fun _ ↦ hvalue, h⟩
      · exact fun h ↦ .keep hkey (h.1 rfl) h.2

theorem redacts_scrubSecrets {depth : ℕ} {value : Json} (h : Scrubbable depth value) :
    Redacts value (scrubSecrets depth value) := by
  induction h with
  | deep hdepth hclean =>
    rw [scrubSecrets_of_deep hdepth]
    exact .refl_of_isClean hclean
  | null => exact .null
  | bool value => exact .bool value
  | number value => exact .number value
  | string hdepth hplain =>
    rw [scrubSecrets_string hdepth]
    exact .string (strips_scrubText _)
  | array hdepth hitems ih =>
    rw [scrubSecrets_array hdepth, scrubItems_eq]
    exact .array (redactsItems_map ih)
  | object hdepth hproto hentries ih =>
    rw [scrubSecrets_object hdepth]
    exact .object ((redactsEntries_scrubEntries_iff hproto).mpr ih)

/-- Scrubbed entries whose values are left alone by another scrub are left alone themselves. -/
theorem scrubEntries_of_scrubbed {depth : ℕ} {entries : List (Text × Json)}
    (hkeys : ∀ entry ∈ entries, isSecretKey entry.1 = false ∧ entry.1 ≠ protoKey)
    (h : ∀ entry ∈ entries, scrubSecrets (depth + 1) entry.2 = entry.2) :
    scrubEntries depth entries = entries := by
  induction entries with
  | nil => rfl
  | cons entry entries ih =>
    obtain ⟨key, value⟩ := entry
    obtain ⟨⟨hkey, hproto⟩, hkeys⟩ := List.forall_mem_cons.mp hkeys
    obtain ⟨hvalue, hvalues⟩ := List.forall_mem_cons.mp h
    dsimp only at hkey hproto hvalue
    rw [scrubEntries, if_neg (by simp [hkey]), if_neg hproto, hvalue, ih hkeys hvalues]

theorem scrubSecrets_scrubSecrets {depth : ℕ} {value : Json} (h : Scrubbable depth value) :
    scrubSecrets depth (scrubSecrets depth value) = scrubSecrets depth value := by
  induction h with
  | deep hdepth hclean => rw [scrubSecrets_of_deep hdepth]
  | null => rfl
  | bool value => rfl
  | number value => rfl
  | string hdepth hplain =>
    rw [scrubSecrets_string hdepth, scrubSecrets_string hdepth]
    rw [scrubText_of_not_hasUserInfo fun hleft ↦ (hasUserInfo_scrubText_iff _).mp hleft hplain]
  | array hdepth hitems ih =>
    rw [scrubSecrets_array hdepth, scrubSecrets_array hdepth, scrubItems_eq, scrubItems_eq,
      List.map_map]
    exact congrArg Json.array (List.map_congr_left ih)
  | object hdepth hproto hentries ih =>
    rw [scrubSecrets_object hdepth, scrubSecrets_object hdepth]
    refine congrArg Json.object (scrubEntries_of_scrubbed (fun entry hentry ↦ ?_) fun entry hentry ↦
      ?_)
    · obtain ⟨hkey, hkept, -⟩ := mem_scrubEntries.mp hentry
      exact ⟨hkey, hkept⟩
    · obtain ⟨hkey, -, value, hmem, hvalue⟩ := mem_scrubEntries.mp hentry
      rw [hvalue]
      exact ih _ hmem hkey

/-! ### What has to be there -/

/-- An entry to keep is kept under its key. -/
theorem RedactsEntries.exists_kept {entries redacted : List (Text × Json)} {entry : Text × Json}
    (h : RedactsEntries entries redacted) (hentry : entry ∈ entries)
    (hkey : isSecretKey entry.1 = false) : ∃ other, (entry.1, other) ∈ redacted := by
  induction entries generalizing redacted with
  | nil => exact absurd hentry List.not_mem_nil
  | cons head entries ih =>
    cases h with
    | drop hhead h =>
      rcases List.mem_cons.mp hentry with rfl | hmem
      · exact absurd (hkey.symm.trans hhead) (by decide)
      · exact ih h hmem
    | keep hhead hvalue h =>
      rcases List.mem_cons.mp hentry with rfl | hmem
      · exact ⟨_, List.mem_cons_self⟩
      · obtain ⟨other, hother⟩ := ih h hmem
        exact ⟨other, List.mem_cons_of_mem _ hother⟩

theorem Scrubbable.of_deep {depth : ℕ} {value : Json} (hdepth : 6 < depth)
    (h : IsClean (scrubSecrets depth value)) : Scrubbable depth value := by
  rw [scrubSecrets_of_deep hdepth] at h
  exact .deep hdepth h

theorem scrubbable_of_isClean {value : Json} :
    ∀ {depth : ℕ}, IsClean (scrubSecrets depth value) → Redacts value (scrubSecrets depth value) →
      Scrubbable depth value := by
  induction value using Json.induct with
  | null => exact fun _ _ ↦ .null
  | bool value => exact fun _ _ ↦ .bool value
  | number value => exact fun _ _ ↦ .number value
  | string text =>
    intro depth hclean _
    rcases Nat.lt_or_ge 6 depth with hdeep | hdepth
    · exact .of_deep hdeep hclean
    · rw [scrubSecrets_string hdepth] at hclean
      cases hclean with
      | string hleft =>
        exact .string hdepth (not_not.mp fun h ↦ hleft ((hasUserInfo_scrubText_iff _).mpr h))
  | array items ih =>
    intro depth hclean hredacts
    rcases Nat.lt_or_ge 6 depth with hdeep | hdepth
    · exact .of_deep hdeep hclean
    · rw [scrubSecrets_array hdepth, scrubItems_eq] at hclean hredacts
      cases hclean with
      | array hclean =>
        cases hredacts with
        | array hredacts =>
          have hcleans := List.forall_mem_map.mp hclean
          have hitems := redactsItems_map_iff.mp hredacts
          exact .array hdepth fun item hitem ↦
            ih item hitem (hcleans item hitem) (hitems item hitem)
  | object entries ih =>
    intro depth hclean hredacts
    rcases Nat.lt_or_ge 6 depth with hdeep | hdepth
    · exact .of_deep hdeep hclean
    · rw [scrubSecrets_object hdepth] at hclean hredacts
      cases hclean with
      | object _ hclean =>
        cases hredacts with
        | object hredacts =>
          have hproto : ∀ entry ∈ entries, isSecretKey entry.1 = false → entry.1 ≠ protoKey := by
            intro entry hentry hkey
            obtain ⟨other, hkept⟩ := hredacts.exists_kept hentry hkey
            exact (mem_scrubEntries.mp hkept).2.1
          have hentries := (redactsEntries_scrubEntries_iff hproto).mp hredacts
          refine .object hdepth hproto fun entry hentry hkey ↦
            ih entry hentry ?_ (hentries entry hentry hkey)
          exact hclean (entry.1, _)
            (mem_scrubEntries.mpr ⟨hkey, hproto entry hentry hkey, entry.2, hentry, rfl⟩)

/-- The metadata that is stored and broadcast holds no secret, keeps everything else and is left as
it is by another scrub, if and only if the given metadata can be scrubbed. -/
theorem keepsSecretsOut_iff (metadata : Option Json) :
    KeepsSecretsOut metadata ↔ Scrubbable 0 (givenMetadata metadata) := by
  constructor
  · intro h
    obtain ⟨hclean, hredacts, -⟩ :=
      h .recordingSegmentCreated .created _ (broadcast_mem_copies _ _ metadata)
    exact scrubbable_of_isClean hclean hredacts
  · intro h type creation kept hkept
    rw [copies_emitEvent type creation metadata kept hkept]
    exact ⟨isClean_scrubSecrets h, redacts_scrubSecrets h, scrubSecrets_scrubSecrets h⟩

/-! ### A password with an `@` -/

/-- The metadata of a camera whose password is `p@ss`. -/
def atPassword : Json :=
  .object [("rtspUrl".toList, .string "rtsp://admin:p@ss@10.0.0.5/stream".toList)]

/-- What is scrubbed off is `admin:p@`; `ss@10.0.0.5` stays. -/
theorem not_keepsSecretsOut_atPassword : ¬ KeepsSecretsOut (some atPassword) := by
  intro h
  obtain ⟨hclean, -⟩ := h .cameraOnline .created _ (broadcast_mem_copies _ _ _)
  cases hclean with
  | object _ hclean =>
    have hkey : isSecretKey "rtspUrl".toList = false := by decide
    have htext := hclean ("rtspUrl".toList, _)
      (mem_scrubEntries.mpr ⟨hkey, by decide, _, List.mem_cons_self, rfl⟩)
    cases htext with
    | string hleft =>
      refine hleft ((hasUserInfo_scrubText_iff _).mpr (not_not.mpr ?_))
      refine ⟨[], "rtsp".toList, "admin:p@ss@10.0.0.5/stream".toList,
        .intro rfl (List.all_eq_true.mp rfl), rfl, ?_⟩
      have huser : ∀ char ∈ "admin:p".toList, isUserChar char = true := List.all_eq_true.mp rfl
      have hleftover : HasUser "ss@10.0.0.5/stream".toList := by
        unfold HasUser
        decide +kernel
      exact fun hisPlain ↦ (isPlain_user_iff (List.cons_ne_nil _ _) huser).mp hisPlain hleftover

end VmsLite.Events
