/-
  NUMBERS PADDED WITH ZEROS (`format!("{n:02}")`).
-/
import Featherbit.Rust.Std

namespace Featherbit

/-- `format!("{n:0width$}")`, of a number that is not negative. -/
def showPadded (width n : Nat) : String := String.ofList ((Nat.toDigits 10 n).leftpad width '0')

/-- The same of a signed number, whose sign is part of the width. -/
def showPaddedInt (width : Nat) : Int → String
  | .ofNat n => showPadded width n
  | .negSucc n => "-" ++ showPadded (width - 1) (n + 1)

theorem showPaddedInt_natCast (width n : Nat) : showPaddedInt width n = showPadded width n := rfl

/-- A padded number is made of digits. -/
theorem isDigit_of_mem_showPadded {width n : Nat} {c : Char} (hc : c ∈ (showPadded width n).toList) :
    c.isDigit = true := by
  unfold showPadded at hc
  rw [String.toList_ofList] at hc
  rcases List.mem_append.mp hc with hc | hc
  · rw [List.eq_of_mem_replicate hc]
    rfl
  · exact Nat.isDigit_of_mem_toDigits (by decide) (by decide) hc

theorem showPadded_ne_nil (width n : Nat) : (showPadded width n).toList ≠ [] := by
  unfold showPadded
  rw [String.toList_ofList]
  exact fun h => Nat.toDigits_ne_nil (List.append_eq_nil_iff.mp h).2

/-- A number that fits has the width; a larger one is longer. -/
theorem length_showPadded_eq_iff {width n : Nat} (hwidth : 0 < width) :
    (showPadded width n).toList.length = width ↔ n < 10 ^ width := by
  unfold showPadded List.leftpad
  rw [String.toList_ofList, List.length_append, List.length_replicate,
    ← Nat.length_toDigits_le_iff (by decide) hwidth]
  omega

/-- Zeros in front do not change the value. -/
theorem ofDigitChars_showPadded (width n : Nat) :
    Nat.ofDigitChars 10 (showPadded width n).toList 0 = n := by
  unfold showPadded List.leftpad
  rw [String.toList_ofList, Nat.ofDigitChars_append, Nat.ofDigitChars_replicate_zero, Nat.mul_zero,
    Nat.ofDigitChars_ten_toDigits]

end Featherbit
