import VmsLite.Data.Buffer

/-!
# Base 64

The encoding of bytes in groups of three, and a decoder that skips whatever is not one of the sixty
four digits and takes those of the URL alphabet as well.
-/

set_option autoImplicit false

namespace VmsLite.Data.Base64

def alphabet : List Char :=
  "ABCDEFGHIJKLMNOPQRSTUVWXYZabcdefghijklmnopqrstuvwxyz0123456789+/".toList

def digit (value : ℕ) : Char := alphabet.getD value '='

def digitValue? (char : Char) : Option ℕ :=
  let code := char.toNat
  if 65 ≤ code ∧ code ≤ 90 then some (code - 65)
  else if 97 ≤ code ∧ code ≤ 122 then some (code - 71)
  else if 48 ≤ code ∧ code ≤ 57 then some (code + 4)
  else if char = '+' ∨ char = '-' then some 62
  else if char = '/' ∨ char = '_' then some 63
  else none

/-- The bytes in digits of six bits. -/
def digits : Bytes → List ℕ
  | [] => []
  | [a] => [a.toNat / 4, a.toNat % 4 * 16]
  | [a, b] => [a.toNat / 4, a.toNat % 4 * 16 + b.toNat / 16, b.toNat % 16 * 4]
  | a :: b :: c :: bytes =>
    (a.toNat / 4) :: (a.toNat % 4 * 16 + b.toNat / 16) :: (b.toNat % 16 * 4 + c.toNat / 64) ::
      (c.toNat % 64) :: digits bytes

def padding : Bytes → List Char
  | [] => []
  | [_] => ['=', '=']
  | [_, _] => ['=']
  | _ :: _ :: _ :: bytes => padding bytes

def encode (bytes : Bytes) : List Char := (digits bytes).map digit ++ padding bytes

/-- The bytes of some digits. Bits that do not fill a byte are dropped. -/
def ofDigits : List ℕ → Bytes
  | w :: x :: y :: z :: digits =>
    UInt8.ofNat (w * 4 + x / 16) :: UInt8.ofNat (x % 16 * 16 + y / 4) ::
      UInt8.ofNat (y % 4 * 64 + z) :: ofDigits digits
  | [w, x, y] => [UInt8.ofNat (w * 4 + x / 16), UInt8.ofNat (x % 16 * 16 + y / 4)]
  | [w, x] => [UInt8.ofNat (w * 4 + x / 16)]
  | _ => []

def decode (text : List Char) : Bytes := ofDigits (text.filterMap digitValue?)

set_option maxRecDepth 2000 in
theorem digitValue?_digit : ∀ value < 64, digitValue? (digit value) = some value := by decide

theorem ofNat_eq {byte : UInt8} {value : ℕ} (hvalue : value = byte.toNat) :
    UInt8.ofNat value = byte := by
  rw [hvalue, UInt8.ofNat_toNat]

theorem ofDigits_digits (bytes : Bytes) : ofDigits (digits bytes) = bytes := by
  induction bytes using digits.induct with
  | case1 => rfl
  | case2 a =>
    have ha := a.toNat_lt
    rw [digits, ofDigits, @ofNat_eq a _ (by omega)]
  | case3 a b =>
    have ha := a.toNat_lt
    have hb := b.toNat_lt
    rw [digits, ofDigits, @ofNat_eq a _ (by omega), @ofNat_eq b _ (by omega)]
  | case4 a b c bytes ih =>
    have ha := a.toNat_lt
    have hb := b.toNat_lt
    have hc := c.toNat_lt
    rw [digits, ofDigits, @ofNat_eq a _ (by omega), @ofNat_eq b _ (by omega),
      @ofNat_eq c _ (by omega), ih]

theorem lt_of_mem_digits (bytes : Bytes) : ∀ value ∈ digits bytes, value < 64 := by
  induction bytes using digits.induct with
  | case1 => exact nofun
  | case2 a =>
    have ha := a.toNat_lt
    simp only [digits, List.forall_mem_cons]
    exact ⟨by omega, by omega, List.forall_mem_nil _⟩
  | case3 a b =>
    have ha := a.toNat_lt
    have hb := b.toNat_lt
    simp only [digits, List.forall_mem_cons]
    exact ⟨by omega, by omega, by omega, List.forall_mem_nil _⟩
  | case4 a b c bytes ih =>
    have ha := a.toNat_lt
    have hb := b.toNat_lt
    have hc := c.toNat_lt
    simp only [digits, List.forall_mem_cons]
    exact ⟨by omega, by omega, by omega, by omega, ih⟩

theorem mem_padding (bytes : Bytes) : ∀ char ∈ padding bytes, char = '=' := by
  induction bytes using padding.induct with
  | case1 => exact nofun
  | case2 | case3 => simp [padding]
  | case4 _ _ _ bytes ih => exact ih

theorem filterMap_digit {values : List ℕ} (hvalues : ∀ value ∈ values, value < 64) :
    (values.map digit).filterMap digitValue? = values := by
  induction values with
  | nil => rfl
  | cons value values ih =>
    obtain ⟨hvalue, hvalues⟩ := List.forall_mem_cons.mp hvalues
    rw [List.map_cons, List.filterMap_cons_some (digitValue?_digit value hvalue), ih hvalues]

theorem decode_encode (bytes : Bytes) : decode (encode bytes) = bytes := by
  have hpadding : (padding bytes).filterMap digitValue? = [] :=
    List.filterMap_eq_nil_iff.mpr fun char hchar ↦ mem_padding bytes char hchar ▸ rfl
  unfold decode encode
  rw [List.filterMap_append, hpadding, List.append_nil, filterMap_digit (lt_of_mem_digits bytes),
    ofDigits_digits]

/-- An encoding is made of visible characters. -/
theorem isVisible_of_mem_encode {bytes : Bytes} {char : Char} (hmem : char ∈ encode bytes) :
    32 < char.toNat ∧ char.toNat < 127 := by
  have hall : ('=' :: alphabet).all (fun char ↦ 32 < char.toNat && char.toNat < 127) = true := by
    decide
  have hdigit : ∀ value, digit value ∈ '=' :: alphabet := by
    intro value
    unfold digit List.getD
    cases hget : alphabet[value]? with
    | none => exact List.mem_cons_self
    | some char => exact List.mem_cons_of_mem _ (List.mem_of_getElem? hget)
  have hvisible : char ∈ '=' :: alphabet := by
    rcases List.mem_append.mp hmem with hdigits | hpadding
    · obtain ⟨value, -, rfl⟩ := List.mem_map.mp hdigits
      exact hdigit value
    · rw [mem_padding bytes char hpadding]
      exact List.mem_cons_self
  simpa using List.all_eq_true.mp hall char hvisible

end VmsLite.Data.Base64
