import Mathlib.Data.List.Basic
import Mathlib.Data.Nat.Order.Lemmas

/-!
# UTF-8

Texts as lists of characters and their bytes. The encoder and the decoder are those of the standard
library; a text of ASCII characters has one byte for each.
-/

set_option autoImplicit false

namespace VmsLite.Data

def utf8 (text : List Char) : List UInt8 := text.flatMap String.utf8EncodeChar

/-- The text that well-formed bytes spell. -/
def fromUtf8 (bytes : List UInt8) : Option (List Char) :=
  (bytes.toByteArray.utf8Decode?).map Array.toList

theorem fromUtf8_utf8 (text : List Char) : fromUtf8 (utf8 text) = some text := by
  have hdecode := @List.utf8Decode?_utf8Encode text
  rw [List.utf8Encode] at hdecode
  unfold fromUtf8 utf8
  rw [hdecode]
  rfl

theorem utf8_cons (char : Char) (text : List Char) :
    utf8 (char :: text) = String.utf8EncodeChar char ++ utf8 text := List.flatMap_cons

theorem utf8_append (first second : List Char) :
    utf8 (first ++ second) = utf8 first ++ utf8 second := List.flatMap_append

theorem utf8_injective {first second : List Char} (hbytes : utf8 first = utf8 second) :
    first = second := by
  have hdecoded := congrArg fromUtf8 hbytes
  rw [fromUtf8_utf8, fromUtf8_utf8] at hdecoded
  exact Option.some.inj hdecoded

def isAscii (char : Char) : Bool := char.toNat < 128

theorem utf8Size_eq_one_iff {char : Char} : char.utf8Size = 1 ↔ isAscii char = true := by
  unfold isAscii
  rw [Char.utf8Size_eq_one_iff, decide_eq_true_eq, UInt32.le_iff_toNat_le]
  exact (Nat.lt_succ_iff (m := char.toNat) (n := 127)).symm

theorem utf8EncodeChar_of_ascii {char : Char} (hascii : isAscii char = true) :
    String.utf8EncodeChar char = [UInt8.ofNat char.toNat] := by
  rw [String.utf8EncodeChar_eq_singleton (utf8Size_eq_one_iff.mpr hascii)]
  rfl

/-- The bytes of any other character are no ASCII characters. -/
theorem le_of_mem_utf8EncodeChar {char : Char} {byte : UInt8} (hascii : isAscii char = false)
    (hbyte : byte ∈ String.utf8EncodeChar char) : 128 ≤ byte.toNat := by
  have hvalue : ¬ char.val.toNat ≤ 127 := by
    have hlarge : ¬ char.toNat < 128 := of_decide_eq_false hascii
    exact fun hsmall ↦ hlarge (Nat.lt_succ_of_le hsmall)
  unfold String.utf8EncodeChar at hbyte
  simp only [if_neg hvalue] at hbyte
  split_ifs at hbyte <;> simp only [List.mem_cons, List.not_mem_nil, or_false] at hbyte
  · rcases hbyte with rfl | rfl <;> rw [UInt8.toNat_ofNat'] <;> omega
  · rcases hbyte with rfl | rfl | rfl <;> rw [UInt8.toNat_ofNat'] <;> omega
  · rcases hbyte with rfl | rfl | rfl | rfl <;> rw [UInt8.toNat_ofNat'] <;> omega

/-- A byte below 128 is that of an ASCII character of the text. -/
theorem exists_of_mem_utf8 {text : List Char} {byte : UInt8} (hmem : byte ∈ utf8 text)
    (hbyte : byte.toNat < 128) : ∃ char ∈ text, char.toNat = byte.toNat := by
  obtain ⟨char, hchar, hencoded⟩ := List.mem_flatMap.mp hmem
  cases hascii : isAscii char with
  | false => exact absurd hbyte (le_of_mem_utf8EncodeChar hascii hencoded).not_gt
  | true =>
    rw [utf8EncodeChar_of_ascii hascii] at hencoded
    refine ⟨char, hchar, ?_⟩
    have hsmall : char.toNat < 128 := of_decide_eq_true hascii
    rw [List.mem_singleton.mp hencoded, UInt8.toNat_ofNat']
    exact (Nat.mod_eq_of_lt (hsmall.trans (by decide))).symm

theorem length_utf8_of_ascii {text : List Char} (hascii : ∀ char ∈ text, isAscii char = true) :
    (utf8 text).length = text.length := by
  induction text with
  | nil => rfl
  | cons char text ih =>
    have hchar := utf8EncodeChar_of_ascii (hascii char List.mem_cons_self)
    have htext := ih fun other hother ↦ hascii other (List.mem_cons_of_mem _ hother)
    rw [utf8_cons, hchar, List.length_append, htext]
    exact Nat.add_comm _ _

/-- The `length` of a text, in units of UTF-16. -/
def utf16Length : List Char → ℕ
  | [] => 0
  | char :: text => (if char.toNat < 0x10000 then 1 else 2) + utf16Length text

theorem utf16Length_of_ascii {text : List Char} (hascii : ∀ char ∈ text, isAscii char = true) :
    utf16Length text = text.length := by
  induction text with
  | nil => rfl
  | cons char text ih =>
    have hchar := hascii char List.mem_cons_self
    unfold isAscii at hchar
    rw [decide_eq_true_eq] at hchar
    unfold utf16Length
    rw [if_pos (hchar.trans (by decide)),
      ih fun other hother ↦ hascii other (List.mem_cons_of_mem _ hother)]
    exact Nat.add_comm _ _

/-- A character takes at least as many bytes as units, and more unless it is ASCII. -/
theorem units_le_utf8Size (char : Char) :
    (if char.toNat < 0x10000 then 1 else 2) ≤ char.utf8Size ∧
      (isAscii char = false → (if char.toNat < 0x10000 then 1 else 2) < char.utf8Size) := by
  have hpositive := Char.utf8Size_pos char
  by_cases hbasic : char.toNat < 0x10000
  · rw [if_pos hbasic]
    refine ⟨hpositive, fun hascii ↦ lt_of_le_of_ne hpositive fun hone ↦ ?_⟩
    rw [utf8Size_eq_one_iff.mp hone.symm] at hascii
    cases hascii
  · have hfour : char.utf8Size = 4 := by
      rw [Char.utf8Size_eq_four_iff, UInt32.lt_iff_toNat_lt]
      exact not_lt.mp hbasic
    rw [if_neg hbasic, hfour]
    exact ⟨by decide, fun _ ↦ by decide⟩

theorem utf16Length_le (text : List Char) : utf16Length text ≤ (utf8 text).length := by
  induction text with
  | nil => exact le_rfl
  | cons char text ih =>
    rw [utf8_cons, List.length_append, String.length_utf8EncodeChar]
    exact Nat.add_le_add (units_le_utf8Size char).1 ih

/-- Only a text of ASCII characters has as many bytes as units. -/
theorem utf16Length_lt {text : List Char} {char : Char} (hmem : char ∈ text)
    (hascii : isAscii char = false) : utf16Length text < (utf8 text).length := by
  induction text with
  | nil => cases hmem
  | cons first text ih =>
    rw [utf8_cons, List.length_append, String.length_utf8EncodeChar]
    rcases List.mem_cons.mp hmem with rfl | hlater
    · exact Nat.add_lt_add_of_lt_of_le ((units_le_utf8Size char).2 hascii) (utf16Length_le text)
    · exact Nat.add_lt_add_of_le_of_lt (units_le_utf8Size first).1 (ih hlater)

/-- The characters at the head of a text whose bytes fit. -/
def fitting : ℕ → List Char → List Char
  | _, [] => []
  | limit, char :: text =>
    if char.utf8Size ≤ limit then char :: fitting (limit - char.utf8Size) text else []

theorem length_utf8_fitting_le (limit : ℕ) (text : List Char) :
    (utf8 (fitting limit text)).length ≤ limit := by
  induction text generalizing limit with
  | nil => exact Nat.zero_le limit
  | cons char text ih =>
    unfold fitting
    split_ifs with hfits
    · have hrest := ih (limit - char.utf8Size)
      rw [utf8_cons, List.length_append, String.length_utf8EncodeChar]
      omega
    · exact Nat.zero_le limit

theorem fitting_isPrefix (limit : ℕ) (text : List Char) : fitting limit text <+: text := by
  induction text generalizing limit with
  | nil => exact List.prefix_rfl
  | cons char text ih =>
    unfold fitting
    split_ifs
    · exact List.cons_prefix_cons.mpr ⟨rfl, ih _⟩
    · exact List.nil_prefix

theorem fitting_eq_self_iff {limit : ℕ} {text : List Char} :
    fitting limit text = text ↔ (utf8 text).length ≤ limit := by
  constructor
  · intro hall
    rw [← hall]
    exact length_utf8_fitting_le limit text
  · intro hfits
    induction text generalizing limit with
    | nil => rfl
    | cons char text ih =>
      rw [utf8_cons, List.length_append, String.length_utf8EncodeChar] at hfits
      unfold fitting
      rw [if_pos (Nat.le_of_add_right_le hfits), ih (Nat.le_sub_of_add_le' hfits)]

end VmsLite.Data
