import Mathlib.Data.List.Basic

/-!
# Digits of fixed width

A number written with a given count of decimal digits, as many zeros before it as it takes. Texts
that begin with such digits are ordered as the numbers are (`fixedDigits_append_lt`).
-/

set_option autoImplicit false

namespace VmsLite.Data

def fixedDigits : ℕ → ℕ → List Char
  | 0, _ => []
  | width + 1, value => fixedDigits width (value / 10) ++ [Nat.digitChar (value % 10)]

/-- Whether a count of digits is enough for a number. -/
def Fits : ℕ → ℕ → Prop
  | 0, value => value = 0
  | width + 1, value => Fits width (value / 10)

theorem fits_two {value : ℕ} (hvalue : value < 100) : Fits 2 value := by
  unfold Fits Fits Fits
  omega

theorem fits_four {value : ℕ} (hvalue : value < 10000) : Fits 4 value := by
  unfold Fits Fits
  exact fits_two (by omega)

theorem fits_six {value : ℕ} (hvalue : value < 1000000) : Fits 6 value := by
  unfold Fits Fits
  exact fits_four (by omega)

theorem length_fixedDigits (width value : ℕ) : (fixedDigits width value).length = width := by
  induction width generalizing value with
  | zero => rfl
  | succ width ih => rw [fixedDigits, List.length_append, ih, List.length_singleton]

theorem isDigit_of_mem_fixedDigits {width value : ℕ} {char : Char}
    (hmem : char ∈ fixedDigits width value) : char.isDigit = true := by
  have hdigit : ∀ digit < 10, (Nat.digitChar digit).isDigit = true := by decide
  induction width generalizing value with
  | zero => exact absurd hmem List.not_mem_nil
  | succ width ih =>
    rw [fixedDigits, List.mem_append, List.mem_singleton] at hmem
    rcases hmem with hmem | rfl
    · exact ih hmem
    · exact hdigit _ (Nat.mod_lt value (by decide))

/-- Digits of one width that stand before anything are ordered as the numbers that they write. -/
theorem fixedDigits_append_lt {width value other : ℕ} (hother : Fits width other)
    (hlt : value < other) (rest rest' : List Char) :
    fixedDigits width value ++ rest < fixedDigits width other ++ rest' := by
  have hdigit : ∀ digit < 10, ∀ larger < 10, digit < larger →
      Nat.digitChar digit < Nat.digitChar larger := by decide
  induction width generalizing value other rest rest' with
  | zero =>
    rw [Fits] at hother
    omega
  | succ width ih =>
    rw [fixedDigits, fixedDigits, List.append_assoc, List.append_assoc]
    rcases Nat.lt_or_ge (value / 10) (other / 10) with hhigh | hhigh
    · exact ih hother hhigh _ _
    · -- The digits before the last are the same
      have hsame : value / 10 = other / 10 := by omega
      rw [hsame]
      refine List.append_left_lt (List.cons_lt_cons_iff.mpr (Or.inl ?_))
      exact hdigit _ (Nat.mod_lt value (by decide)) _ (Nat.mod_lt other (by decide)) (by omega)

end VmsLite.Data
