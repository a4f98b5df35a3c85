import Mathlib.Data.List.Infix

/-!
# Media path names

How cameras map onto the paths of the media server. A camera's main path is a slug of its name and
six random hex digits (`generatePathName`), its sub-stream path is that with `_sub` behind it, and a
preview path starts with `preview_`. Names are in characters where JavaScript has UTF-16 code units:
a character beyond them becomes two underscores there and one here, and runs of underscores become
one. The three kinds of name are told apart by their spelling; `pathKinds_iff` says for which camera
names that works.
-/

set_option autoImplicit false

namespace VmsLite.Media

/-! ### The names of paths -/

def previewPrefix : String := "preview_"

def subPathName (mainPath : String) : String := mainPath ++ "_sub"

def isPreviewPath (name : String) : Bool := previewPrefix.toList.isPrefixOf name.toList

/-- The characters of `PATH_NAME`. -/
def isPathChar (char : Char) : Bool :=
  char.isAlpha || char.isDigit || char = '_' || char = '.' || char = '-'

/-- `PATH_NAME.test`. -/
def isPathName (name : String) : Bool := !name.toList.isEmpty && name.toList.all isPathChar

/-! ### Names of cameras -/

/-- `toLowerCase` of one character, as far as a slug can see it: the two characters beyond ASCII
whose lower case has an ASCII letter are `U+0130` and `U+212A`, and whatever another one becomes is
replaced like itself. -/
def lowerChar (char : Char) : List Char :=
  if char = Char.ofNat 0x130 then ['i', Char.ofNat 0x307]
  else if char = Char.ofNat 0x212A then ['k']
  else [char.toLower]

def toLowerCase (text : List Char) : List Char := text.flatMap lowerChar

/-- `[a-z0-9_-]`. -/
def isSlugChar (char : Char) : Bool :=
  ('a' ≤ char && char ≤ 'z') || ('0' ≤ char && char ≤ '9') || char = '_' || char = '-'

/-- `replace(/[^a-z0-9_-]/g, '_')`. -/
def replaceOthers (text : List Char) : List Char :=
  text.map fun char ↦ if isSlugChar char then char else '_'

/-- `replace(/_+/g, '_')`. -/
def joinUnderscores : List Char → List Char
  | '_' :: '_' :: rest => joinUnderscores ('_' :: rest)
  | char :: rest => char :: joinUnderscores rest
  | [] => []

def slug (cameraName : String) : List Char :=
  (joinUnderscores (replaceOthers (toLowerCase cameraName.toList))).take 24

/-- A hex digit of `toString('hex')`. -/
def hexDigit (digit : ℕ) : Char :=
  if digit < 10 then Char.ofNat ('0'.toNat + digit) else Char.ofNat ('a'.toNat + (digit - 10))

/-- `toString('hex')` of some bytes. -/
def toHex (bytes : List UInt8) : List Char :=
  bytes.flatMap fun byte ↦ [hexDigit (byte.toNat / 16), hexDigit (byte.toNat % 16)]

/-- Generates a safe identifier for the stream path; the bytes are the random ones. -/
def generatePathName (cameraName : String) (byte0 byte1 byte2 : UInt8) : String :=
  String.ofList (slug cameraName ++ '_' :: toHex [byte0, byte1, byte2])

/-! ### The kinds of path -/

/-- A generated path is a name the proxy takes, no preview, and not the sub-stream path of any
generated path; neither is its sub-stream path a preview. -/
structure PathKinds (path : String) : Prop where
  isPathName : isPathName path = true
  not_preview : isPreviewPath path = false
  sub_not_preview : isPreviewPath (subPathName path) = false
  ne_subPathName : ∀ cameraName byte0 byte1 byte2,
    path ≠ subPathName (generatePathName cameraName byte0 byte1 byte2)

/-- Whether a camera's name is `preview`, up to case, alone or before a character that a slug
replaces or an underscore. -/
def isNamedPreview (cameraName : String) : Bool :=
  let lowered := toLowerCase cameraName.toList
  "preview".toList.isPrefixOf lowered &&
    match lowered.drop "preview".length with
    | [] => true
    | char :: _ => !isSlugChar char || char = '_'

/-! ### Spelling -/

section Spelling

theorem mem_joinUnderscores {char : Char} {text : List Char}
    (hchar : char ∈ joinUnderscores text) : char ∈ text := by
  induction text using joinUnderscores.induct with
  | case1 rest ih =>
    rw [joinUnderscores] at hchar
    exact List.mem_cons_of_mem _ (ih hchar)
  | case2 first rest hfirst ih =>
    rw [joinUnderscores] at hchar
    · rcases List.mem_cons.mp hchar with rfl | hrest
      · exact List.mem_cons_self
      · exact List.mem_cons_of_mem _ (ih hrest)
    · exact hfirst
  | case3 => exact hchar

theorem isPathChar_of_mem_slug {cameraName : String} {char : Char}
    (hchar : char ∈ slug cameraName) : isPathChar char = true := by
  have hslug : isSlugChar char = true := by
    obtain ⟨other, -, rfl⟩ := List.mem_map.mp (mem_joinUnderscores (List.mem_of_mem_take hchar))
    split_ifs with hother
    · exact hother
    · rfl
  simp only [isSlugChar, Bool.or_eq_true, Bool.and_eq_true, decide_eq_true_eq] at hslug
  simp only [isPathChar, Bool.or_eq_true, decide_eq_true_eq]
  rcases hslug with ((hlower | hdigit) | hunderscore) | hhyphen
  · have halpha : char.isAlpha = true := by
      show (char.isUpper || (decide ('a' ≤ char) && decide (char ≤ 'z'))) = true
      rw [Bool.or_eq_true, Bool.and_eq_true, decide_eq_true_eq, decide_eq_true_eq]
      exact Or.inr hlower
    exact Or.inl (Or.inl (Or.inl (Or.inl halpha)))
  · have hnumeral : char.isDigit = true := by
      rw [Char.isDigit, Bool.and_eq_true, decide_eq_true_eq, decide_eq_true_eq]
      exact hdigit
    exact Or.inl (Or.inl (Or.inl (Or.inr hnumeral)))
  · exact Or.inl (Or.inl (Or.inr hunderscore))
  · exact Or.inr hhyphen

/-- Path characters are printable. -/
theorem isPathChar_bounds {char : Char} (h : isPathChar char = true) :
    32 < char.toNat ∧ char.toNat < 126 := by
  delta isPathChar Char.isAlpha Char.isUpper Char.isLower Char.isDigit at h
  simp only [Bool.or_eq_true, Bool.and_eq_true, decide_eq_true_eq, UInt32.le_iff_toNat_le,
    ge_iff_le] at h
  change (((((65 ≤ char.toNat ∧ char.toNat ≤ 90) ∨ 97 ≤ char.toNat ∧ char.toNat ≤ 122) ∨
    48 ≤ char.toNat ∧ char.toNat ≤ 57) ∨ char = '_') ∨ char = '.') ∨ char = '-' at h
  rcases h with ((h | rfl) | rfl) | rfl
  · omega
  · decide
  · decide
  · decide

/-- The digits of a byte are path characters, and no `u`. -/
theorem hexDigit_spec (digit : Fin 16) :
    isPathChar (hexDigit digit) = true ∧ hexDigit digit ≠ 'u' := by
  revert digit
  decide

/-- Whether a text is a word, or begins with it and an underscore. -/
def Begins (word text : List Char) : Prop := text = word ∨ (word ++ ['_']) <+: text

theorem begins_nil {text : List Char} :
    Begins [] text ↔ text = [] ∨ ∃ rest, text = '_' :: rest := by
  cases text with
  | nil => simp [Begins]
  | cons char rest => simp [Begins, List.cons_prefix_cons, eq_comm]

theorem begins_cons {char first : Char} {word rest : List Char} :
    Begins (char :: word) (first :: rest) ↔ first = char ∧ Begins word rest := by
  simp only [Begins, List.cons_append, List.cons_prefix_cons, List.cons.injEq]
  constructor
  · rintro (⟨hchar, hrest⟩ | ⟨hchar, hrest⟩)
    · exact ⟨hchar, Or.inl hrest⟩
    · exact ⟨hchar.symm, Or.inr hrest⟩
  · rintro ⟨hchar, hrest | hrest⟩
    · exact Or.inl ⟨hchar, hrest⟩
    · exact Or.inr ⟨hchar.symm, hrest⟩

theorem not_begins_cons_nil {char : Char} {word : List Char} : ¬ Begins (char :: word) [] := by
  simp [Begins]

variable {word : List Char}

/-- What stands behind an underscore does not matter. -/
theorem prefix_append_underscore (hword : '_' ∉ word) (text rest : List Char) :
    (word ++ ['_']) <+: text ++ '_' :: rest ↔ Begins word text := by
  induction word generalizing text with
  | nil =>
    rw [begins_nil]
    cases text <;> simp [List.cons_prefix_cons, eq_comm]
  | cons char word ih =>
    obtain ⟨hchar, hword⟩ := not_or.mp (List.mem_cons.not.mp hword)
    cases text with
    | nil =>
      have hne : ¬ char = '_' := fun hsame ↦ hchar hsame.symm
      simp [List.cons_prefix_cons, not_begins_cons_nil, hne]
    | cons first text =>
      rw [begins_cons, List.cons_append, List.cons_append, List.cons_prefix_cons, ih hword,
        eq_comm]

/-- Truncation does not matter to a shorter word. -/
theorem begins_take {count : ℕ} (hcount : word.length < count) (text : List Char) :
    Begins word (text.take count) ↔ Begins word text := by
  unfold Begins
  rw [List.prefix_take_iff]
  have hlength : (word ++ ['_']).length ≤ count := by
    rw [List.length_append]
    exact hcount
  constructor
  · rintro (hsame | hbegins)
    · left
      have hshort : text.length ≤ count := by
        have hmin := congrArg List.length hsame
        rw [List.length_take] at hmin
        omega
      rwa [List.take_of_length_le hshort] at hsame
    · exact Or.inr hbegins.1
  · rintro (rfl | hbegins)
    · exact Or.inl (List.take_of_length_le hcount.le)
    · exact Or.inr ⟨hbegins, hlength⟩

theorem joinUnderscores_cons_of_ne {char : Char} (hchar : char ≠ '_') (text : List Char) :
    joinUnderscores (char :: text) = char :: joinUnderscores text := by
  rw [joinUnderscores]
  exact fun _ hsame ↦ absurd hsame hchar

theorem joinUnderscores_cons_underscore (text : List Char) :
    ∃ rest, joinUnderscores ('_' :: text) = '_' :: rest := by
  induction text with
  | nil => exact ⟨[], rfl⟩
  | cons char text ih =>
    by_cases hchar : char = '_'
    · subst hchar
      rw [joinUnderscores]
      exact ih
    · refine ⟨joinUnderscores (char :: text), ?_⟩
      rw [joinUnderscores]
      exact fun _ _ hrest ↦ absurd (List.cons.inj hrest).1 hchar

/-- Joining underscores does not matter to a word without any. -/
theorem begins_joinUnderscores (hword : '_' ∉ word) (text : List Char) :
    Begins word (joinUnderscores text) ↔ Begins word text := by
  induction word generalizing text with
  | nil =>
    rw [begins_nil, begins_nil]
    cases text with
    | nil => simp [joinUnderscores]
    | cons char text =>
      by_cases hchar : char = '_'
      · obtain ⟨rest, hrest⟩ := joinUnderscores_cons_underscore text
        simp [hchar, hrest]
      · simp [joinUnderscores_cons_of_ne hchar, hchar]
  | cons char word ih =>
    obtain ⟨hchar, hword⟩ := not_or.mp (List.mem_cons.not.mp hword)
    cases text with
    | nil => rw [joinUnderscores]
    | cons first text =>
      by_cases hfirst : first = '_'
      · obtain ⟨rest, hrest⟩ := joinUnderscores_cons_underscore text
        rw [hfirst, hrest, begins_cons, begins_cons]
        exact ⟨fun hboth ↦ absurd hboth.1 hchar, fun hboth ↦ absurd hboth.1 hchar⟩
      · rw [joinUnderscores_cons_of_ne hfirst, begins_cons, begins_cons, ih hword]

/-- A word of slug characters shows through the replacement, and what a slug replaces is an
underscore. -/
theorem begins_replaceOthers (hword : ∀ char ∈ word, isSlugChar char = true ∧ char ≠ '_')
    (text : List Char) :
    Begins word (replaceOthers text) ↔ word <+: text ∧ ∀ char ∈ (text.drop word.length).head?,
      isSlugChar char = false ∨ char = '_' := by
  induction word generalizing text with
  | nil =>
    rw [begins_nil]
    cases text with
    | nil => simp [replaceOthers]
    | cons char text =>
      by_cases hchar : isSlugChar char = true <;> simp [replaceOthers, hchar]
  | cons first word ih =>
    obtain ⟨hfirst, hword⟩ := List.forall_mem_cons.mp hword
    cases text with
    | nil => simp [replaceOthers, not_begins_cons_nil]
    | cons char text =>
      have hsame : (if isSlugChar char then char else '_') = first ↔ first = char := by
        split_ifs with hchar
        · exact eq_comm
        · constructor
          · exact fun hunderscore ↦ absurd hunderscore.symm hfirst.2
          · rintro rfl
            exact absurd hfirst.1 hchar
      have hih := ih hword text
      unfold replaceOthers at hih ⊢
      rw [List.map_cons, begins_cons, hsame, hih, List.cons_prefix_cons, List.length_cons,
        List.drop_succ_cons, and_assoc]

end Spelling

/-! ### Which names keep the kinds apart -/

section Kinds

variable (cameraName : String) (byte0 byte1 byte2 : UInt8)

/-- A generated path, or anything longer, is a preview exactly when its camera's name says so. -/
theorem isPreviewPath_append (rest : List Char) :
    isPreviewPath (String.ofList (slug cameraName ++ '_' :: rest)) = true ↔
      isNamedPreview cameraName = true := by
  have hword : '_' ∉ "preview".toList := by decide
  have hslug : "preview".toList.all isSlugChar = true := by decide
  have hchars : ∀ char ∈ "preview".toList, isSlugChar char = true ∧ char ≠ '_' :=
    fun char hchar ↦ ⟨List.all_eq_true.mp hslug char hchar, fun hsame ↦ hword (hsame ▸ hchar)⟩
  have hbegins : previewPrefix.toList = "preview".toList ++ ['_'] := by decide
  rw [isPreviewPath, String.toList_ofList, List.isPrefixOf_iff_prefix, hbegins,
    prefix_append_underscore hword, slug, begins_take (by decide),
    begins_joinUnderscores hword, begins_replaceOthers hchars, isNamedPreview, Bool.and_eq_true,
    List.isPrefixOf_iff_prefix]
  refine and_congr_right fun _ ↦ ?_
  show (∀ char ∈ ((toLowerCase cameraName.toList).drop "preview".length).head?, _) ↔ _
  cases (toLowerCase cameraName.toList).drop "preview".length with
  | nil => simp
  | cons char rest => simp

theorem isPathName_generatePathName :
    isPathName (generatePathName cameraName byte0 byte1 byte2) = true := by
  have hdigit : ∀ value : ℕ, value < 16 → isPathChar (hexDigit value) = true :=
    fun value hvalue ↦ (hexDigit_spec ⟨value, hvalue⟩).1
  have hhex : ∀ char ∈ toHex [byte0, byte1, byte2], isPathChar char = true := by
    intro char hchar
    obtain ⟨byte, -, hbyte⟩ := List.mem_flatMap.mp hchar
    have hlt := byte.toNat_lt
    rcases List.mem_cons.mp hbyte with rfl | hlow
    · exact hdigit _ (by omega)
    · rw [List.mem_singleton.mp hlow]
      exact hdigit _ (by omega)
  rw [isPathName, generatePathName, String.toList_ofList, Bool.and_eq_true, List.all_eq_true]
  refine ⟨by simp, fun char hchar ↦ ?_⟩
  rcases List.mem_append.mp hchar with hslug | htail
  · exact isPathChar_of_mem_slug hslug
  · rcases List.mem_cons.mp htail with rfl | hrest
    · decide
    · exact hhex char hrest

theorem isPathName_subPathName {mainPath : String} (hmain : isPathName mainPath = true) :
    isPathName (subPathName mainPath) = true := by
  rw [isPathName, Bool.and_eq_true, List.all_eq_true] at hmain ⊢
  rw [subPathName, String.toList_append]
  refine ⟨by simp, fun char hchar ↦ ?_⟩
  rcases List.mem_append.mp hchar with hpath | hsuffix
  · exact hmain.2 char hpath
  · have hletters : "_sub".toList.all isPathChar = true := by decide
    exact List.all_eq_true.mp hletters char hsuffix

/-- A generated path ends in a hex digit where a sub-stream path has a `u`. -/
theorem generatePathName_ne_subPathName (mainPath : String) :
    generatePathName cameraName byte0 byte1 byte2 ≠ subPathName mainPath := by
  intro hsame
  have hchars := congrArg String.toList hsame
  rw [generatePathName, subPathName, String.toList_ofList, String.toList_append] at hchars
  have hsplit : (slug cameraName ++ '_' :: toHex [byte0, byte1]) ++ toHex [byte2] =
      (mainPath.toList ++ ['_', 's']) ++ ['u', 'b'] := by
    simpa [toHex] using hchars
  have hlast : toHex [byte2] = ['u', 'b'] := List.append_inj_right' hsplit rfl
  have hdigit : hexDigit (byte2.toNat / 16) = 'u' := (List.cons.inj hlast).1
  have hlt := byte2.toNat_lt
  exact (hexDigit_spec ⟨byte2.toNat / 16, by omega⟩).2 hdigit

/-- The path of a camera keeps the kinds of path apart exactly when the camera is not named
`preview`. -/
theorem pathKinds_iff :
    PathKinds (generatePathName cameraName byte0 byte1 byte2) ↔
      isNamedPreview cameraName = false := by
  have hsub : subPathName (generatePathName cameraName byte0 byte1 byte2) =
      String.ofList (slug cameraName ++ '_' :: (toHex [byte0, byte1, byte2] ++ "_sub".toList)) := by
    rw [← String.toList_inj, subPathName, generatePathName]
    simp only [String.toList_append, String.toList_ofList, List.append_assoc, List.cons_append]
  constructor
  · intro hkinds
    rw [← Bool.not_eq_true, ← isPreviewPath_append cameraName (toHex [byte0, byte1, byte2])]
    exact Bool.not_eq_true _ ▸ hkinds.not_preview
  · intro hname
    have hnot : ∀ rest, isPreviewPath (String.ofList (slug cameraName ++ '_' :: rest)) = false := by
      intro rest
      rw [← Bool.not_eq_true, isPreviewPath_append, hname]
      exact Bool.false_ne_true
    exact
      { isPathName := isPathName_generatePathName cameraName byte0 byte1 byte2
        not_preview := hnot _
        sub_not_preview := hsub ▸ hnot _
        ne_subPathName := fun _ _ _ _ ↦
          generatePathName_ne_subPathName cameraName byte0 byte1 byte2 _ }

/-- A camera named `Preview` gets the path of a preview. -/
theorem not_pathKinds_named_preview :
    ¬ ∀ (cameraName : String) (byte0 byte1 byte2 : UInt8),
      PathKinds (generatePathName cameraName byte0 byte1 byte2) := by
  intro hkinds
  have hpreview := (hkinds "Preview" 0 0 0).not_preview
  revert hpreview
  decide

end Kinds

end VmsLite.Media
