/-
  DOUBLES (`f64`): integers on their way through one, and numbers read from text.

  An integer of more than 53 bits is rounded to one that a double can hold, and `Display` writes the
  shortest digits that are read back as that double, with zeros behind them.

  1. Integers below 2^53 come out as they went in (`keptF64_of_lt`).
  2. What comes out goes through unchanged (`keptF64_keptF64`).
-/
import Featherbit.Json
import Featherbit.Rust.Float
import Mathlib.Tactic.Ring

namespace Featherbit

/-! ## Numbers -/

def F64.toFloat (x : F64) : Float := Float.ofBits x.bits

/-- `x.to_string()` of a double that is no integer's. -/
class F64Display where
  display : F64 → String

/-- The double nearest to a decimal. -/
def Decimal.toFloat (d : Decimal) : Float :=
  let x := Float.ofModel (Float.Model.ofScientific d.digits d.exponent)
  if d.negative then -x else x

/-- `s.parse::<f64>()`. -/
def parseF64 (s : String) : Option Float :=
  let (negative, word) := Decimal.readSign s.toList
  let word := toAsciiLowercase (String.ofList word)
  let signed : Float → Float := fun x => if negative then -x else x
  if word = "inf" ∨ word = "infinity" then some (signed (1.0 / 0.0))
  else if word = "nan" then some (signed (0.0 / 0.0))
  else (Decimal.parse s).map Decimal.toFloat

/-! ## Integers through a double -/

/-- The value of `n as f64`: 53 bits are kept, the nearest ones, and the even one of two. -/
def roundF64 (n : Nat) : Nat :=
  let unit := 2 ^ (n.log2 - 52)
  if unit < 2 * (n % unit) ∨ (2 * (n % unit) = unit ∧ n / unit % 2 = 1) then (n / unit + 1) * unit
  else n / unit * unit

/-- The nearest number with the most zeros at its end that is read back as `x`. -/
def shortestF64 (x : Nat) : Nat → Nat
  | 0 => x
  | zeros + 1 =>
    let low := x / 10 ^ (zeros + 1) * 10 ^ (zeros + 1)
    let high := low + 10 ^ (zeros + 1)
    if roundF64 low = x ∧ (roundF64 high = x → x - low ≤ high - x) then low
    else if roundF64 high = x then high
    else shortestF64 x zeros

/-- The integer that `(n as f64).to_string()` writes, for a 64-bit `n`. -/
def keptF64 (n : Int) : Int :=
  let kept : Int := shortestF64 (roundF64 n.natAbs) 20
  if n < 0 then -kept else kept

theorem roundF64_of_dvd {n : Nat} (h : 2 ^ (n.log2 - 52) ∣ n) : roundF64 n = n := by
  have hunit : 0 < 2 ^ (n.log2 - 52) := Nat.two_pow_pos _
  unfold roundF64
  dsimp only
  rw [Nat.mod_eq_zero_of_dvd h, if_neg (by omega), Nat.div_mul_cancel h]

theorem roundF64_of_lt {n : Nat} (h : n < 2 ^ 53) : roundF64 n = n := by
  refine roundF64_of_dvd ?_
  have hlog : n.log2 ≤ 52 := by
    rcases Nat.eq_zero_or_pos n with rfl | hpos
    · decide
    · exact Nat.lt_succ_iff.mp ((Nat.log2_lt hpos.ne').mpr h)
  rw [Nat.sub_eq_zero_of_le hlog]
  exact Nat.one_dvd n

/-- A number of at most 53 bits and zeros behind them is kept. -/
theorem roundF64_mul {k : Nat} (hk : k ≤ 2 ^ 53) (s : Nat) : roundF64 (k * 2 ^ s) = k * 2 ^ s := by
  refine roundF64_of_dvd ?_
  rcases Nat.eq_zero_or_pos k with rfl | hpos
  · rw [Nat.zero_mul]
    exact Nat.dvd_zero _
  have hne : k * 2 ^ s ≠ 0 := Nat.mul_ne_zero hpos.ne' (Nat.two_pow_pos s).ne'
  rcases Nat.lt_or_eq_of_le hk with hlt | rfl
  · have hlog : (k * 2 ^ s).log2 < 53 + s := by
      rw [Nat.log2_lt hne, Nat.pow_add]
      exact Nat.mul_lt_mul_of_pos_right hlt (Nat.two_pow_pos s)
    exact Dvd.dvd.mul_left (pow_dvd_pow 2 (by omega)) k
  · rw [← Nat.pow_add, Nat.log2_two_pow]
    exact pow_dvd_pow 2 (by omega)

/-- What is kept of a long number: 53 bits at most, and zeros. -/
theorem exists_roundF64 (n : Nat) : ∃ k s, roundF64 n = k * 2 ^ s ∧ k ≤ 2 ^ 53 ∧
    (2 ^ 53 ≤ n → 2 ^ 53 ≤ roundF64 n) := by
  have hunit : 0 < 2 ^ (n.log2 - 52) := Nat.two_pow_pos _
  have hlt : n / 2 ^ (n.log2 - 52) < 2 ^ 53 := by
    rw [Nat.div_lt_iff_lt_mul hunit, ← Nat.pow_add]
    rcases Nat.eq_zero_or_pos n with rfl | hpos
    · exact Nat.two_pow_pos _
    · exact (Nat.log2_lt hpos.ne').mp (by omega)
  have hle : 2 ^ 53 ≤ n → 2 ^ 53 ≤ n / 2 ^ (n.log2 - 52) * 2 ^ (n.log2 - 52) := by
    intro h
    have hpos : n ≠ 0 := by omega
    have hlog : 53 ≤ n.log2 := (Nat.le_log2 hpos).mpr h
    have hquot : 2 ^ 52 ≤ n / 2 ^ (n.log2 - 52) := by
      rw [Nat.le_div_iff_mul_le hunit, ← Nat.pow_add, ← Nat.le_log2 hpos]
      omega
    calc 2 ^ 53 = 2 ^ 52 * 2 ^ 1 := by norm_num
      _ ≤ n / 2 ^ (n.log2 - 52) * 2 ^ (n.log2 - 52) :=
        Nat.mul_le_mul hquot (Nat.pow_le_pow_right (by decide) (by omega))
  unfold roundF64
  dsimp only
  split
  · refine ⟨_, _, rfl, hlt, fun h => (hle h).trans ?_⟩
    exact Nat.mul_le_mul_right _ (Nat.le_succ _)
  · exact ⟨_, _, rfl, hlt.le, hle⟩

theorem roundF64_roundF64 (n : Nat) : roundF64 (roundF64 n) = roundF64 n := by
  obtain ⟨k, s, heq, hk, -⟩ := exists_roundF64 n
  rw [heq, roundF64_mul hk]

/-- The shortest digits are read back. -/
theorem roundF64_shortestF64 {x : Nat} (hx : roundF64 x = x) (zeros : Nat) :
    roundF64 (shortestF64 x zeros) = x := by
  induction zeros with
  | zero => exact hx
  | succ zeros ih =>
    unfold shortestF64
    dsimp only
    split
    · rename_i hlow
      exact hlow.1
    · split
      · assumption
      · exact ih

theorem shortestF64_of_lt {x : Nat} (hx : x < 2 ^ 53) (zeros : Nat) : shortestF64 x zeros = x := by
  have hread := roundF64_shortestF64 (roundF64_of_lt hx) zeros
  rcases Nat.lt_or_ge (shortestF64 x zeros) (2 ^ 53) with hlt | hge
  · rwa [roundF64_of_lt hlt] at hread
  · obtain ⟨-, -, -, -, hlarge⟩ := exists_roundF64 (shortestF64 x zeros)
    have hcontra := hlarge hge
    omega

theorem keptF64_of_lt {n : Int} (h : n.natAbs < 2 ^ 53) : keptF64 n = n := by
  unfold keptF64
  rw [roundF64_of_lt h, shortestF64_of_lt h]
  dsimp only
  split
  all_goals omega

theorem keptF64_keptF64 (n : Int) : keptF64 (keptF64 n) = keptF64 n := by
  have habs : (keptF64 n).natAbs = shortestF64 (roundF64 n.natAbs) 20 := by
    unfold keptF64
    dsimp only
    split
    all_goals omega
  have hround := roundF64_shortestF64 (roundF64_roundF64 n.natAbs) 20
  generalize hkept : keptF64 n = m at habs
  unfold keptF64 at hkept ⊢
  rw [habs, hround]
  dsimp only at hkept ⊢
  split at hkept
  all_goals
    split
    all_goals omega

end Featherbit
