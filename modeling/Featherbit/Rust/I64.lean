/-
  ARITHMETIC OF `i64` THAT MAY OVERFLOW.  A checked operation has the exact result or none; where it has
  one, the wrapping operation has the same.
-/
import Mathlib.Algebra.Group.Int.Defs
import Mathlib.Algebra.Group.Nat.Defs
import Mathlib.Tactic.Common

namespace Featherbit

/-- A value of `i64`. -/
def FitsI64 (n : Int) : Prop := -2 ^ 63 ≤ n ∧ n < 2 ^ 63

instance (n : Int) : Decidable (FitsI64 n) := inferInstanceAs (Decidable (_ ∧ _))

/-- The result of an operation, unless it overflows. -/
def checkedI64 (n : Int) : Option Int := if FitsI64 n then some n else none

theorem checkedI64_eq_some {n m : Int} : checkedI64 n = some m ↔ FitsI64 n ∧ n = m := by
  unfold checkedI64
  split
  · rename_i h
    rw [Option.some_inj]
    exact ⟨fun heq => ⟨h, heq⟩, And.right⟩
  · rename_i h
    constructor
    · intro heq
      cases heq
    · rintro ⟨hfits, -⟩
      exact absurd hfits h

theorem bmod_of_fits {n : Int} (h : FitsI64 n) : n.bmod (2 ^ 64) = n := by
  have hle := h.1
  have hlt := h.2
  apply Int.bmod_eq_of_le
  · show -((18446744073709551616 : Int) / 2) ≤ n
    omega
  · show n < ((18446744073709551616 : Int) + 1) / 2
    omega

section Wrapping

variable {a b : Int64} {m n : Int}

theorem fits_toInt (a : Int64) : FitsI64 a.toInt := by
  have hle := a.le_toInt
  have hlt := a.toInt_lt
  unfold FitsI64
  omega

theorem toInt_add_eq (ha : a.toInt = m) (hb : b.toInt = n) (h : FitsI64 (m + n)) : (a + b).toInt = m + n := by
  rw [Int64.toInt_add, ha, hb, bmod_of_fits h]

theorem toInt_sub_eq (ha : a.toInt = m) (hb : b.toInt = n) (h : FitsI64 (m - n)) : (a - b).toInt = m - n := by
  rw [Int64.toInt_sub, ha, hb, bmod_of_fits h]

theorem toInt_mul_eq (ha : a.toInt = m) (hb : b.toInt = n) (h : FitsI64 (m * n)) : (a * b).toInt = m * n := by
  rw [Int64.toInt_mul, ha, hb, bmod_of_fits h]

/-- A quotient overflows only for a divisor of `-1`. -/
theorem toInt_div_eq (ha : a.toInt = m) (hb : b.toInt = n) (hne : b ≠ -1) : (a / b).toInt = m.tdiv n := by
  rw [Int64.toInt_div_of_ne_right _ _ hne, ha, hb]

end Wrapping

end Featherbit
