import Mathlib.Data.List.Basic
import Mathlib.Data.List.Infix

/-!
# The URL parser on the web

What the URL parser of the web does to the text of an `http` URL: it drops controls and spaces at
the ends, drops tabs and newlines everywhere, takes `\` for `/`, and resolves the segments that
spell one dot or two, percent-encoded spellings included. The authority is cut out and not read
further; query and fragment are left out.

The path of a URL that starts below a directory stays below it exactly when its segments never climb
out of the directory or end up in it again (`walk_below_iff`).
-/

set_option autoImplicit false

namespace VmsLite.Url

abbrev Text := List Char

/-! ### Characters -/

/-- A C0 control or a space. -/
def isControlOrSpace (char : Char) : Bool := char ≤ ' '

def isTabOrNewline (char : Char) : Bool := char = '\t' || char = '\n' || char = '\r'

/-- What ends a segment of the path of a special URL, other than its end. -/
def isSlash (char : Char) : Bool := char = '/' || char = '\\'

/-- What ends the path. -/
def endsPath (char : Char) : Bool := char = '?' || char = '#'

/-- The path percent-encode set. -/
def inPathEncodeSet (char : Char) : Bool :=
  char < ' ' || '~' < char || char ∈ [' ', '"', '#', '<', '>', '?', '^', '`', '\x7b', '\x7d']

/-- An upper hex digit. -/
def hexDigit (digit : ℕ) : Char :=
  if digit < 10 then Char.ofNat ('0'.toNat + digit) else Char.ofNat ('A'.toNat + (digit - 10))

def percentEncodeByte (byte : UInt8) : Text :=
  ['%', hexDigit (byte.toNat / 16), hexDigit (byte.toNat % 16)]

/-- UTF-8 percent-encode. -/
def percentEncode (char : Char) : Text :=
  if inPathEncodeSet char then (String.utf8EncodeChar char).flatMap percentEncodeByte else [char]

/-! ### Segments -/

/-- `.` and its percent-encoded spelling. -/
def isSingleDot (segment : Text) : Bool :=
  segment.map Char.toLower ∈ [['.'], ['%', '2', 'e']]

/-- `..` and its percent-encoded spellings. -/
def isDoubleDot (segment : Text) : Bool :=
  segment.map Char.toLower ∈
    [['.', '.'], ['.', '%', '2', 'e'], ['%', '2', 'e', '.'], ['%', '2', 'e', '%', '2', 'e']]

/-- What a segment that a slash ends does to the path. -/
def closeSegment (path : List Text) (buffer : Text) : List Text :=
  if isDoubleDot buffer then path.dropLast
  else if isSingleDot buffer then path
  else path ++ [buffer]

/-- What the last segment does to the path. -/
def endSegment (path : List Text) (buffer : Text) : List Text :=
  if isDoubleDot buffer then path.dropLast ++ [[]]
  else if isSingleDot buffer then path ++ [[]]
  else path ++ [buffer]

/-- The path state. -/
def pathState (path : List Text) (buffer : Text) : Text → List Text
  | [] => endSegment path buffer
  | char :: input =>
    if endsPath char then endSegment path buffer
    else if isSlash char then pathState (closeSegment path buffer) [] input
    else pathState path (buffer ++ percentEncode char) input

/-- The path start state. -/
def pathStartState : Text → List Text
  | [] => pathState [] [] []
  | char :: input => if isSlash char then pathState [] [] input else pathState [] [] (char :: input)

/-! ### The parser -/

def trimEnd (text : Text) : Text := (text.reverse.dropWhile isControlOrSpace).reverse

/-- What is left of a text before it is parsed. -/
def clean (text : Text) : Text :=
  (trimEnd (text.dropWhile isControlOrSpace)).filter fun char ↦ !isTabOrNewline char

structure Parsed where
  scheme : Text
  authority : Text
  path : List Text
  deriving DecidableEq, Repr

/-- The schemes read here. -/
def isHttp (scheme : Text) : Bool :=
  scheme.map Char.toLower ∈ [['h', 't', 't', 'p'], ['h', 't', 't', 'p', 's']]

def isAuthorityChar (char : Char) : Bool := !isSlash char && !endsPath char

/-- The URL parser, on absolute URLs of the schemes read here. -/
def parse (text : Text) : Option Parsed :=
  let input := clean text
  let scheme := input.takeWhile (· ≠ ':')
  match input.drop scheme.length with
  | [] => none
  | _ :: rest =>
    let afterSlashes := rest.dropWhile isSlash
    let authority := afterSlashes.takeWhile isAuthorityChar
    if isHttp scheme && !authority.isEmpty then
      some { scheme := scheme.map Char.toLower, authority
             path := pathStartState (afterSlashes.drop authority.length) }
    else none

/-! ### The path as a walk -/

/-- The segments of a path as they are spelled. -/
def segmentsFrom (raw : Text) : Text → List Text
  | [] => [raw]
  | char :: input =>
    if endsPath char then [raw]
    else if isSlash char then raw :: segmentsFrom [] input
    else segmentsFrom (raw ++ [char]) input

def segments (input : Text) : List Text := segmentsFrom [] input

def encodeSegment (raw : Text) : Text := raw.flatMap percentEncode

/-- The path that the segments lead to. -/
def walk (path : List Text) : List Text → List Text
  | [] => path
  | [last] => endSegment path (encodeSegment last)
  | segment :: rest => walk (closeSegment path (encodeSegment segment)) rest

theorem segmentsFrom_ne_nil (raw input : Text) : segmentsFrom raw input ≠ [] := by
  induction input generalizing raw with
  | nil => simp [segmentsFrom]
  | cons char input ih =>
    unfold segmentsFrom
    split_ifs
    · simp
    · simp
    · exact ih _

/-- A first name that holds nothing a path is split at is a segment of its own. -/
theorem segmentsFrom_append_slash (raw name input : Text)
    (hname : ∀ char ∈ name, isSlash char = false ∧ endsPath char = false) :
    segmentsFrom raw (name ++ '/' :: input) = (raw ++ name) :: segments input := by
  induction name generalizing raw with
  | nil => simp [segmentsFrom, segments, isSlash, endsPath]
  | cons char name ih =>
    obtain ⟨hslash, hend⟩ := hname char List.mem_cons_self
    rw [List.cons_append, segmentsFrom, hend, hslash]
    simp [ih (raw ++ [char]) fun other hother ↦ hname other (List.mem_cons_of_mem char hother)]

theorem walk_cons_of_ne_nil (path : List Text) (segment : Text) {rest : List Text}
    (h : rest ≠ []) :
    walk path (segment :: rest) = walk (closeSegment path (encodeSegment segment)) rest := by
  obtain ⟨next, rest, rfl⟩ := List.exists_cons_of_ne_nil h
  rfl

/-- The path state walks along the segments. -/
theorem pathState_eq_walk (path : List Text) (raw input : Text) :
    pathState path (encodeSegment raw) input = walk path (segmentsFrom raw input) := by
  induction input generalizing path raw with
  | nil => rfl
  | cons char input ih =>
    unfold pathState segmentsFrom
    split_ifs with hend hslash
    · rfl
    · rw [walk_cons_of_ne_nil path raw (segmentsFrom_ne_nil [] input), ← ih]
      rfl
    · have hencode : encodeSegment raw ++ percentEncode char = encodeSegment (raw ++ [char]) := by
        simp [encodeSegment]
      rw [hencode, ih]

/-! ### Encoded segments -/

theorem toLower_of_encoded {char : Char} (h : inPathEncodeSet char = true) :
    char.toLower = char := by
  have hnotUpper : ¬ ('A'.val ≤ char.val ∧ char.val ≤ 'Z'.val) := by
    rintro ⟨hlower, hupper⟩
    simp only [inPathEncodeSet, Bool.or_eq_true, decide_eq_true_eq, List.mem_cons,
      List.not_mem_nil, or_false, Char.lt_def] at h
    rcases h with (h | h) | rfl | rfl | rfl | rfl | rfl | rfl | rfl | rfl | rfl | rfl
    · exact absurd (UInt32.lt_of_lt_of_le h (by decide)) (UInt32.not_lt.mpr hlower)
    · exact absurd (UInt32.lt_of_le_of_lt hupper (by decide))
        (UInt32.not_lt.mpr (UInt32.le_of_lt h))
    all_goals revert hlower hupper; decide
  unfold Char.toLower
  exact dif_neg hnotUpper

/-- No escape that stands for a character of the encode set spells a dot. -/
theorem percentEncode_of_encoded {char : Char} (h : inPathEncodeSet char = true) :
    ∃ high low more, percentEncode char = '%' :: high :: low :: more ∧
      ¬ (high.toLower = '2' ∧ low.toLower = 'e') := by
  have htwo : ∀ digit < 16, (hexDigit digit).toLower = '2' → digit = 2 := by decide
  have he : ∀ digit < 16, (hexDigit digit).toLower = 'e' → digit = 14 := by decide
  obtain ⟨byte, rest, hbytes, hbyte⟩ : ∃ byte rest,
      String.utf8EncodeChar char = byte :: rest ∧ byte.toNat ≠ 46 := by
    have hnotDot : char.val.toNat ≠ 46 := by
      intro hval
      obtain rfl : char = '.' := Char.ext (UInt32.toNat_inj.mp hval)
      contradiction
    have htoNat : char.toNat = char.val.toNat := rfl
    unfold String.utf8EncodeChar
    simp only
    split_ifs
    · exact ⟨_, _, rfl, by simp; omega⟩
    · exact ⟨_, _, rfl, by simp; omega⟩
    · exact ⟨_, _, rfl, by simp; omega⟩
    · exact ⟨_, _, rfl, by simp; omega⟩
  refine ⟨hexDigit (byte.toNat / 16), hexDigit (byte.toNat % 16),
    rest.flatMap percentEncodeByte, by simp [percentEncode, h, hbytes, percentEncodeByte], ?_⟩
  rintro ⟨hhigh, hlow⟩
  have hlt := byte.toNat_lt
  have hhigh := htwo _ (by omega) hhigh
  have hlow := he _ (by omega) hlow
  omega

theorem percentEncode_of_plain {char : Char} (h : inPathEncodeSet char = false) :
    percentEncode char = [char] := by
  simp [percentEncode, h]

@[simp] theorem encodeSegment_nil : encodeSegment [] = [] := rfl

@[simp] theorem encodeSegment_cons (char : Char) (raw : Text) :
    encodeSegment (char :: raw) = percentEncode char ++ encodeSegment raw := by
  simp [encodeSegment]

theorem encodeSegment_of_plain {text : Text} (h : ∀ char ∈ text, inPathEncodeSet char = false) :
    encodeSegment text = text := by
  induction text with
  | nil => rfl
  | cons char text ih =>
    have hrest := ih fun other hother ↦ h other (List.mem_cons_of_mem char hother)
    simp [percentEncode_of_plain (h char List.mem_cons_self), hrest]

/-- Only a name itself is encoded as one without escapes. -/
theorem encodeSegment_eq_iff {raw text : Text} (hplain : ∀ char ∈ text,
    inPathEncodeSet char = false)
    (hescape : '%' ∉ text) : encodeSegment raw = text ↔ raw = text := by
  constructor
  · induction raw generalizing text with
    | nil => simp
    | cons char raw ih =>
      intro heq
      cases hchar : inPathEncodeSet char with
      | true =>
        obtain ⟨high, low, more, hencode, -⟩ := percentEncode_of_encoded hchar
        rw [encodeSegment_cons, hencode] at heq
        exact absurd (heq ▸ List.mem_cons_self) hescape
      | false =>
        rw [encodeSegment_cons, percentEncode_of_plain hchar] at heq
        subst heq
        have hrest : raw = encodeSegment raw :=
          ih (fun other hother ↦ hplain other (List.mem_cons_of_mem char hother))
            (fun hmem ↦ hescape (List.mem_cons_of_mem char hmem)) rfl
        exact congrArg (List.cons char) hrest
  · rintro rfl
    exact encodeSegment_of_plain hplain

/-- The texts that spell dots, in lower case. -/
inductive SpellsDots : Text → Prop
  | nil : SpellsDots []
  | dot {text : Text} (rest : SpellsDots text) : SpellsDots ('.' :: text)
  | escape {text : Text} (rest : SpellsDots text) : SpellsDots ('%' :: '2' :: 'e' :: text)

/-- A character other than `%` is read off the encoded text exactly when it is off the text. -/
theorem lower_encode_cons {text : Text} {lower : Char} (hplain : inPathEncodeSet lower = false)
    (hescape : lower ≠ '%') (hrest : ∀ raw, (encodeSegment raw).map Char.toLower = text ↔
      raw.map Char.toLower = text) (raw : Text) :
    (encodeSegment raw).map Char.toLower = lower :: text ↔ raw.map Char.toLower =
        lower :: text := by
  cases raw with
  | nil => simp
  | cons char rest =>
    cases hchar : inPathEncodeSet char with
    | true =>
      obtain ⟨high, low, more, hencode, -⟩ := percentEncode_of_encoded hchar
      have hlower : '%'.toLower = '%' := by decide
      have hdiffer : char ≠ lower := by
        rintro rfl
        rw [hplain] at hchar
        contradiction
      simp [hencode, hlower, hescape.symm, toLower_of_encoded hchar, hdiffer]
    | false => simp [percentEncode_of_plain hchar, hrest]

theorem lower_encode_iff {text : Text} (hdots : SpellsDots text) (raw : Text) :
    (encodeSegment raw).map Char.toLower = text ↔ raw.map Char.toLower = text := by
  induction hdots generalizing raw with
  | nil =>
    cases raw with
    | nil => simp
    | cons char raw =>
      cases hchar : inPathEncodeSet char with
      | true =>
        obtain ⟨high, low, more, hencode, -⟩ := percentEncode_of_encoded hchar
        simp [hencode]
      | false => simp [percentEncode_of_plain hchar]
  | dot _ ih => exact lower_encode_cons (by decide) (by decide) ih raw
  | escape _ ih =>
    have hlow := lower_encode_cons (by decide : inPathEncodeSet 'e' = false) (by decide) ih
    have hdigits := lower_encode_cons (by decide : inPathEncodeSet '2' = false) (by decide) hlow
    cases raw with
    | nil => simp
    | cons char raw =>
      cases hchar : inPathEncodeSet char with
      | true =>
        obtain ⟨high, low, more, hencode, hnotDot⟩ := percentEncode_of_encoded hchar
        have hdiffer : char ≠ '%' := by
          rintro rfl
          contradiction
        simp only [encodeSegment_cons, hencode, List.cons_append, List.map_cons, List.cons.injEq,
          toLower_of_encoded hchar, hdiffer, false_and, iff_false]
        rintro ⟨-, hhigh, hlow, -⟩
        exact hnotDot ⟨hhigh, hlow⟩
      | false => simp [percentEncode_of_plain hchar, hdigits]

theorem isSingleDot_encodeSegment (raw : Text) :
    isSingleDot (encodeSegment raw) = isSingleDot raw := by
  simp only [isSingleDot, List.mem_cons, List.not_mem_nil, or_false,
    lower_encode_iff (SpellsDots.nil.dot), lower_encode_iff (SpellsDots.nil.escape)]

theorem isDoubleDot_encodeSegment (raw : Text) :
    isDoubleDot (encodeSegment raw) = isDoubleDot raw := by
  simp only [isDoubleDot, List.mem_cons, List.not_mem_nil, or_false,
    lower_encode_iff (SpellsDots.nil.dot.dot), lower_encode_iff (SpellsDots.nil.escape.dot),
    lower_encode_iff (SpellsDots.nil.dot.escape), lower_encode_iff (SpellsDots.nil.escape.escape)]

/-! ### Below a directory -/

/-- How many names deep a path is after one more segment. -/
def descend (depth : ℕ) (segment : Text) : ℕ :=
  if isDoubleDot segment then depth - 1
  else if isSingleDot segment then depth
  else depth + 1

/-- Whether segments that start some names below a directory never climb out of it. -/
def staysBelow : ℕ → List Text → Bool
  | _, [] => true
  | depth, segment :: rest =>
    if isDoubleDot segment then 0 < depth && staysBelow (depth - 1) rest
    else staysBelow (descend depth segment) rest

/-- Segments that start in a directory at the root, climb out of it to the root and end up below it
again: what comes after the climb opens with its name. -/
def ReturnsTo (name : Text) (segments : List Text) : Prop :=
  ∃ before after, segments = before ++ name :: after ∧ before.foldl descend 1 = 0 ∧
    after ≠ [] ∧ staysBelow 0 after = true

/-- A path with something below the directory of that name. -/
def IsBelow (name : Text) (path : List Text) : Prop := ∃ file more, path = name :: file :: more

theorem closeSegment_encodeSegment (path : List Text) (segment : Text) :
    closeSegment path (encodeSegment segment) =
      if isDoubleDot segment then path.dropLast
      else if isSingleDot segment then path
      else path ++ [encodeSegment segment] := by
  simp [closeSegment, isDoubleDot_encodeSegment, isSingleDot_encodeSegment]

theorem endSegment_encodeSegment (path : List Text) (segment : Text) :
    endSegment path (encodeSegment segment) =
      if isDoubleDot segment then path.dropLast ++ [[]]
      else if isSingleDot segment then path ++ [[]]
      else path ++ [encodeSegment segment] := by
  simp [endSegment, isDoubleDot_encodeSegment, isSingleDot_encodeSegment]

theorem length_closeSegment (path : List Text) (segment : Text) :
    (closeSegment path (encodeSegment segment)).length = descend path.length segment := by
  rw [closeSegment_encodeSegment, descend]
  split_ifs <;> simp

/-- The last segment leaves something below what it leads to, be it only an empty name. -/
theorem endSegment_eq_append (path : List Text) (segment : Text) : ∃ path' file,
    endSegment path (encodeSegment segment) = path' ++ [file] ∧
      (path' = closeSegment path (encodeSegment segment) ∧
          (isDoubleDot segment = true ∨ isSingleDot segment = true) ∨
        path' = path ∧ isDoubleDot segment = false ∧ isSingleDot segment = false) := by
  rw [endSegment_encodeSegment, closeSegment_encodeSegment]
  split_ifs with hdouble hsingle
  · exact ⟨_, _, rfl, Or.inl ⟨rfl, Or.inl hdouble⟩⟩
  · exact ⟨_, _, rfl, Or.inl ⟨rfl, Or.inr hsingle⟩⟩
  · exact ⟨_, _, rfl, Or.inr ⟨rfl, by simpa using hdouble, by simpa using hsingle⟩⟩

theorem closeSegment_of_staysBelow (name : Text) (path : List Text) (segment : Text)
    (rest : List Text) (hstays : staysBelow path.length (segment :: rest) = true) :
    ∃ path', closeSegment (name :: path) (encodeSegment segment) = name :: path' ∧
      staysBelow path'.length rest = true := by
  unfold staysBelow descend at hstays
  rw [closeSegment_encodeSegment]
  split_ifs at hstays ⊢ with hdouble hsingle
  · rw [Bool.and_eq_true, decide_eq_true_eq] at hstays
    have hpath : path ≠ [] := List.ne_nil_of_length_pos hstays.1
    exact ⟨path.dropLast, List.dropLast_cons_of_ne_nil hpath, by simpa using hstays.2⟩
  · exact ⟨path, rfl, hstays⟩
  · exact ⟨path ++ [encodeSegment segment], rfl, by simpa using hstays⟩

/-- Segments that never climb out of a directory lead below it. -/
theorem isBelow_walk_of_staysBelow (name : Text) (path : List Text) (segments : List Text)
    (hsegments : segments ≠ []) (hstays : staysBelow path.length segments = true) :
    IsBelow name (walk (name :: path) segments) := by
  induction segments generalizing path with
  | nil => contradiction
  | cons segment rest ih =>
    obtain ⟨path', hclose, hrest⟩ := closeSegment_of_staysBelow name path segment rest hstays
    by_cases hlast : rest = []
    · subst hlast
      have hbelow : ∀ (path : List Text) (file : Text), IsBelow name (name :: path ++ [file]) := by
        intro path file
        cases path <;> simp [IsBelow]
      obtain ⟨path'', file, hend, ⟨rfl, -⟩ | ⟨rfl, -⟩⟩ :=
        endSegment_eq_append (name :: path) segment
      · rw [walk, hend, hclose]
        exact hbelow path' file
      · rw [walk, hend]
        exact hbelow path file
    · rw [walk_cons_of_ne_nil _ _ hlast, hclose]
      exact ih path' hlast hrest

theorem walk_append (path : List Text) (before after : List Text) (hafter : after ≠ []) :
    ∃ path', walk path (before ++ after) = walk path' after ∧
      path'.length = before.foldl descend path.length := by
  induction before generalizing path with
  | nil => exact ⟨path, rfl, rfl⟩
  | cons segment before ih =>
    obtain ⟨path', hwalk, hlength⟩ := ih (closeSegment path (encodeSegment segment))
    refine ⟨path', ?_, ?_⟩
    · rw [List.cons_append, walk_cons_of_ne_nil _ _ (by simp [hafter]), hwalk]
    · rw [hlength, length_closeSegment, List.foldl_cons]

/-- Where a step leads to a path that starts with a name, the path started with it before, or the
step took it from the root to that name. -/
theorem closeSegment_eq_cons {name : Text} {path path' : List Text} {segment : Text}
    {rest : List Text} (hclose : closeSegment path (encodeSegment segment) = name :: path')
    (hstays : staysBelow path'.length rest = true) :
    (∃ path'', path = name :: path'' ∧ staysBelow path''.length (segment :: rest) = true) ∨
      path = [] ∧ encodeSegment segment = name ∧ path' = [] := by
  rw [closeSegment_encodeSegment] at hclose
  unfold staysBelow descend
  cases path with
  | nil =>
    right
    split_ifs at hclose
    · rw [List.dropLast_nil] at hclose
      contradiction
    · rw [List.nil_append, List.cons.injEq] at hclose
      exact ⟨rfl, hclose.1, hclose.2.symm⟩
  | cons first path =>
    left
    split_ifs at hclose ⊢ with hdouble hsingle
    · cases path with
      | nil => contradiction
      | cons second path =>
        rw [List.dropLast_cons_cons, List.cons.injEq] at hclose
        obtain ⟨rfl, rfl⟩ := hclose
        exact ⟨second :: path, rfl, by simpa using hstays⟩
    · rw [List.cons.injEq] at hclose
      obtain ⟨rfl, rfl⟩ := hclose
      exact ⟨path, rfl, hstays⟩
    · rw [List.cons_append, List.cons.injEq] at hclose
      obtain ⟨rfl, rfl⟩ := hclose
      exact ⟨path, rfl, by simpa using hstays⟩

/-- A walk that leads below a directory at the root starts there and never climbs out, or ends up in
it after it was at the root. -/
theorem staysBelow_or_returns_of_isBelow (name : Text) (path : List Text) (segments : List Text)
    (hsegments : segments ≠ []) (hbelow : IsBelow name (walk path segments)) :
    (∃ path', path = name :: path' ∧ staysBelow path'.length segments = true) ∨
      ∃ before segment after, segments = before ++ segment :: after ∧
        encodeSegment segment = name ∧ before.foldl descend path.length = 0 ∧ after ≠ [] ∧
          staysBelow 0 after = true := by
  induction segments generalizing path with
  | nil => contradiction
  | cons segment rest ih =>
    by_cases hlast : rest = []
    · subst hlast
      left
      obtain ⟨file, more, hwalk⟩ := hbelow
      obtain ⟨path', last, hend, hpath⟩ := endSegment_eq_append path segment
      obtain ⟨path'', rfl⟩ : ∃ path'', path' = name :: path'' := by
        rw [walk, hend] at hwalk
        cases path' with
        | nil => simp at hwalk
        | cons first path'' => exact ⟨path'', by simpa using (List.cons.inj hwalk).1⟩
      rcases hpath with ⟨hclose, hdots⟩ | ⟨rfl, hdouble, hsingle⟩
      · have hnil : staysBelow path''.length [] = true := rfl
        rcases closeSegment_eq_cons hclose.symm hnil with hstart | ⟨rfl, -⟩
        · exact hstart
        · rw [closeSegment_encodeSegment] at hclose
          rcases hdots with hdouble | hsingle <;> simp_all
      · exact ⟨path'', rfl, by simp [staysBelow, hdouble]⟩
    · rw [walk_cons_of_ne_nil _ _ hlast] at hbelow
      rcases ih _ hlast hbelow with ⟨path', hclose, hstays⟩ | hreturns
      · rcases closeSegment_eq_cons hclose hstays with hstart | ⟨rfl, hname, rfl⟩
        · exact Or.inl hstart
        · exact Or.inr ⟨[], segment, rest, rfl, hname, rfl, hlast, hstays⟩
      · obtain ⟨before, other, after, rfl, hother, hdepth, hafter⟩ := hreturns
        rw [length_closeSegment] at hdepth
        exact Or.inr ⟨segment :: before, other, after, rfl, hother, hdepth, hafter⟩

/-- A path that starts in a directory at the root, whose name takes no escape, is below it exactly
when its segments never climb out of it or end up in it again. -/
theorem walk_below_iff {name : Text} (hplain : ∀ char ∈ name, inPathEncodeSet char = false)
    (hescape : '%' ∉ name) (hdouble : isDoubleDot name = false) (hsingle : isSingleDot name = false)
    (segments : List Text) (hsegments : segments ≠ []) :
    IsBelow name (walk [name] segments) ↔
      staysBelow 0 segments = true ∨ ReturnsTo name segments := by
  constructor
  · intro hbelow
    rcases staysBelow_or_returns_of_isBelow name [name] segments hsegments hbelow with
      ⟨path', hpath, hstays⟩ | ⟨before, segment, after, rfl, hname, hreturns⟩
    · obtain rfl : path' = [] := (List.cons.inj hpath).2.symm
      exact Or.inl hstays
    · obtain rfl := (encodeSegment_eq_iff hplain hescape).mp hname
      exact Or.inr ⟨before, after, rfl, hreturns⟩
  · rintro (hstays | ⟨before, after, rfl, hroot, hafter, hstays⟩)
    · exact isBelow_walk_of_staysBelow name [] segments hsegments hstays
    · obtain ⟨path', hwalk, hlength⟩ := walk_append [name] before (name :: after) (by simp)
      obtain rfl : path' = [] := List.length_eq_zero_iff.mp (hlength.trans hroot)
      have hencode : encodeSegment name = name := encodeSegment_of_plain hplain
      have hclose : closeSegment [] (encodeSegment name) = [name] := by
        rw [closeSegment_encodeSegment]
        simp [hdouble, hsingle, hencode]
      rw [hwalk, walk_cons_of_ne_nil _ _ hafter, hclose]
      exact isBelow_walk_of_staysBelow name [] after hafter hstays

/-! ### Below the origin -/

/-- A scheme and an authority as they stand in a URL. -/
structure Origin where
  scheme : Text
  authority : Text
  isHttp : isHttp scheme = true
  authority_ne_nil : authority ≠ []
  authority_chars : ∀ char ∈ authority, isAuthorityChar char = true ∧ isControlOrSpace char = false

def Origin.text (origin : Origin) : Text := origin.scheme ++ ':' :: '/' :: '/' :: origin.authority

theorem isTabOrNewline_of_not_control {char : Char} (h : isControlOrSpace char = false) :
    isTabOrNewline char = false := by
  by_contra htab
  simp only [isTabOrNewline, Bool.not_eq_false, Bool.or_eq_true, decide_eq_true_eq] at htab
  rcases htab with (rfl | rfl) | rfl <;> contradiction

theorem trimEnd_append_cons (before after : Text) (char : Char)
    (hchar : isControlOrSpace char = false) :
    trimEnd (before ++ char :: after) = before ++ char :: trimEnd after := by
  have hreverse : (before ++ char :: after).reverse = after.reverse ++ char :: before.reverse := by
    simp
  unfold trimEnd
  rw [hreverse, List.dropWhile_append]
  split_ifs with hempty
  · have hnil : after.reverse.dropWhile isControlOrSpace = [] := List.isEmpty_iff.mp hempty
    rw [hnil, List.dropWhile_cons_of_neg (by simp [hchar])]
    simp
  · simp

theorem filter_of_not_control {text : Text}
    (h : ∀ char ∈ text, isControlOrSpace char = false) :
    text.filter (fun char ↦ !isTabOrNewline char) = text := by
  rw [List.filter_eq_self]
  intro char hchar
  simp [isTabOrNewline_of_not_control (h char hchar)]

/-- A text of plain characters, followed by a slash, is cleaned from behind. -/
theorem clean_append (before after : Text) (hnonempty : before ≠ [])
    (hplain : ∀ char ∈ before, isControlOrSpace char = false) :
    clean (before ++ '/' :: after) =
      before ++ '/' :: (trimEnd after).filter fun char ↦ !isTabOrNewline char := by
  obtain ⟨first, rest, rfl⟩ := List.exists_cons_of_ne_nil hnonempty
  have hfirst : ¬ isControlOrSpace first = true := by simp [hplain first List.mem_cons_self]
  have hslash : isTabOrNewline '/' = false := by decide
  unfold clean
  rw [List.cons_append, List.dropWhile_cons_of_neg hfirst, ← List.cons_append,
    trimEnd_append_cons _ _ _ (by decide), List.filter_append, filter_of_not_control hplain,
    List.filter_cons_of_pos (by simp [hslash])]

namespace Origin

variable (origin : Origin)

theorem scheme_chars : ∀ char ∈ origin.scheme, char ≠ ':' ∧ isControlOrSpace char = false := by
  intro char hchar
  have hletter : char.toLower ∈ ['h', 't', 'p', 's'] := by
    have hmem : char.toLower ∈ origin.scheme.map Char.toLower := List.mem_map_of_mem hchar
    have hscheme := origin.isHttp
    simp only [Url.isHttp, List.mem_cons, List.not_mem_nil, or_false, Bool.decide_or,
      Bool.or_eq_true, decide_eq_true_eq] at hscheme
    rcases hscheme with hscheme | hscheme
    · rw [hscheme] at hmem
      revert hmem
      simp
      grind
    · rw [hscheme] at hmem
      revert hmem
      simp
  constructor
  · rintro rfl
    revert hletter
    decide
  · by_contra hcontrol
    have hle : char.val ≤ ' '.val := by simpa [isControlOrSpace, Char.le_def] using hcontrol
    have hencoded : inPathEncodeSet char = true := by
      rcases UInt32.lt_or_eq_of_le hle with hlt | heq
      · have hless : char < ' ' := hlt
        simp [inPathEncodeSet, hless]
      · simp [inPathEncodeSet, Char.ext heq]
    rw [toLower_of_encoded hencoded] at hletter
    simp only [List.mem_cons, List.not_mem_nil, or_false] at hletter
    rcases hletter with rfl | rfl | rfl | rfl <;> contradiction

theorem text_ne_nil : origin.text ≠ [] := by simp [text]

theorem text_chars : ∀ char ∈ origin.text, isControlOrSpace char = false := by
  intro char hchar
  simp only [text, List.mem_append, List.mem_cons] at hchar
  rcases hchar with hscheme | rfl | rfl | rfl | hauthority
  · exact (origin.scheme_chars char hscheme).2
  · decide
  · decide
  · decide
  · exact (origin.authority_chars char hauthority).2

end Origin

theorem takeWhile_append_stop {before after : Text} {stop : Char} {p : Char → Bool}
    (hbefore : ∀ char ∈ before, p char = true) (hstop : p stop = false) :
    (before ++ stop :: after).takeWhile p = before := by
  rw [List.takeWhile_append_of_pos hbefore, List.takeWhile_cons_of_neg (by simp [hstop])]
  simp

theorem parse_origin_append (origin : Origin) (path : Text) :
    parse (origin.text ++ '/' :: path) = some
      { scheme := origin.scheme.map Char.toLower, authority := origin.authority
        path := walk [] (segments ((trimEnd path).filter fun char ↦ !isTabOrNewline char)) } := by
  have hscheme : ∀ rest, (origin.scheme ++ ':' :: rest).takeWhile (· ≠ ':') = origin.scheme :=
    fun rest ↦ takeWhile_append_stop
      (fun char hchar ↦ by simp [(origin.scheme_chars char hchar).1]) (by simp)
  have hauthority : ∀ rest,
      (origin.authority ++ '/' :: rest).takeWhile isAuthorityChar = origin.authority :=
    fun rest ↦ takeWhile_append_stop
      (fun char hchar ↦ (origin.authority_chars char hchar).1) (by decide)
  have hslashes : ∀ rest, ('/' :: '/' :: (origin.authority ++ rest)).dropWhile isSlash =
      origin.authority ++ rest := by
    intro rest
    obtain ⟨first, others, hcons⟩ := List.exists_cons_of_ne_nil origin.authority_ne_nil
    have hfirst := (origin.authority_chars first (by simp [hcons])).1
    have hnotSlash : ¬ isSlash first = true := by
      intro hslash
      simp [isAuthorityChar, hslash] at hfirst
    rw [hcons, List.dropWhile_cons_of_pos (by decide), List.dropWhile_cons_of_pos (by decide),
      List.cons_append, List.dropWhile_cons_of_neg hnotSlash]
  have hnonempty : origin.authority.isEmpty = false := by simp [origin.authority_ne_nil]
  unfold parse
  rw [clean_append _ _ origin.text_ne_nil origin.text_chars]
  simp only [Origin.text, List.append_assoc, List.cons_append, hscheme, List.drop_left, hslashes,
    hauthority, origin.isHttp, hnonempty]
  simp only [Bool.not_false, Bool.and_self, if_true, Option.some.injEq, Parsed.mk.injEq, true_and]
  exact pathState_eq_walk [] [] _

end VmsLite.Url
