/-
  THE INTEGER PART OF A MULTIPLE OF `|sin n|`, as a library.

  A rotation by `n` radians is the `n`-th power of one by a single radian.  That one is known to 64 binary
  digits from the exponential series; its powers are taken of the numerators alone, in integers, and a power
  is off by no more than `n` times as much, for neither number is outside the unit circle.

  1. **Powers** (`norm_pow_sub_pow_le`) — how far the powers of two such numbers are apart.
  2. **One radian** (`norm_radian_le`) — from the first 22 terms of the series.
  3. **The table** (`floor_sin`) — the integer part, where a computation on integers says so
     (`isFloor`).
-/
import Mathlib.Analysis.Complex.Norm
import Mathlib.Analysis.Complex.Trigonometric
import Mathlib.Tactic

namespace SineTable

/-! ## Powers -/

/-- Powers of numbers in the unit disc are apart at most so many times as far. -/
theorem norm_pow_sub_pow_le {z w : ℂ} {ε : ℝ} (hz : ‖z‖ ≤ 1) (hw : ‖w‖ ≤ 1) (h : ‖z - w‖ ≤ ε) (n : ℕ) :
    ‖z ^ n - w ^ n‖ ≤ n * ε := by
  have hε : 0 ≤ ε := (norm_nonneg _).trans h
  induction n with
  | zero => simp
  | succ n ih =>
    have hsplit : z ^ (n + 1) - w ^ (n + 1) = z ^ n * (z - w) + (z ^ n - w ^ n) * w := by ring
    have hzn : ‖z ^ n‖ ≤ 1 := by
      rw [norm_pow]
      exact pow_le_one₀ (norm_nonneg z) hz
    calc ‖z ^ (n + 1) - w ^ (n + 1)‖
        ≤ ‖z ^ n‖ * ‖z - w‖ + ‖z ^ n - w ^ n‖ * ‖w‖ := by
          rw [hsplit, ← norm_mul, ← norm_mul]
          exact norm_add_le _ _
      _ ≤ 1 * ε + n * ε * 1 := by gcongr
      _ = (n + 1 : ℕ) * ε := by push_cast; ring

/-! ## One radian -/

/-- The numerators of `cos 1` and `sin 1`, over `2 ^ 64`. -/
def cosOne : ℤ := 9966818358784711825

def sinOne : ℤ := 15522399902203605024

/-- The numerators of the `n`-th power, over `2 ^ (64 * n)`. -/
def power : ℕ → ℤ × ℤ
  | 0 => (1, 0)
  | n + 1 =>
    let (c, s) := power n
    (c * cosOne - s * sinOne, c * sinOne + s * cosOne)

noncomputable def radian : ℂ := ⟨cosOne / 2 ^ 64, sinOne / 2 ^ 64⟩

theorem radian_pow (n : ℕ) :
    radian ^ n = ((power n).1 + (power n).2 * Complex.I) / (2 ^ 64) ^ n := by
  have hone : radian = (cosOne + sinOne * Complex.I) / 2 ^ 64 := by
    rw [radian, Complex.mk_eq_add_mul_I]
    push_cast
    ring
  induction n with
  | zero => simp [power]
  | succ n ih =>
    rw [pow_succ, ih, hone, power]
    push_cast
    rw [div_mul_div_comm, ← pow_succ]
    congr 1
    linear_combination ((power n).2 * sinOne : ℂ) * Complex.I_sq

theorem norm_radian_le_one : ‖radian‖ ≤ 1 := by
  have hsq : ‖radian‖ ^ 2 ≤ 1 := by
    rw [Complex.sq_norm, Complex.normSq_apply, radian]
    norm_num [cosOne, sinOne]
  exact (sq_le_one_iff₀ (norm_nonneg _)).mp hsq

/-- The terms with a real value, and the others. -/
theorem series_eq (n : ℕ) : ∑ m ∈ Finset.range (2 * n), Complex.I ^ m / (m.factorial : ℂ) =
    ⟨∑ k ∈ Finset.range n, (-1) ^ k / ((2 * k).factorial : ℝ),
      ∑ k ∈ Finset.range n, (-1) ^ k / ((2 * k + 1).factorial : ℝ)⟩ := by
  rw [Complex.mk_eq_add_mul_I]
  induction n with
  | zero => simp
  | succ n ih =>
    have heven : Complex.I ^ (2 * n) = (-1) ^ n := by rw [pow_mul, Complex.I_sq]
    rw [show 2 * (n + 1) = 2 * n + 1 + 1 by ring, Finset.sum_range_succ, Finset.sum_range_succ, ih,
      Finset.sum_range_succ, Finset.sum_range_succ, pow_succ, heven]
    push_cast
    ring

/-- **One radian.** -/
theorem norm_radian_le : ‖radian - Complex.exp Complex.I‖ ≤ 3 / 2 ^ 64 := by
  have hseries := Complex.exp_bound (x := Complex.I) (by rw [Complex.norm_I]) (n := 2 * 11) (by norm_num)
  rw [series_eq, Complex.norm_I, norm_sub_rev] at hseries
  have hdigits := Complex.norm_le_abs_re_add_abs_im (radian -
    ⟨∑ k ∈ Finset.range 11, (-1) ^ k / ((2 * k).factorial : ℝ),
      ∑ k ∈ Finset.range 11, (-1) ^ k / ((2 * k + 1).factorial : ℝ)⟩)
  have hcos : |(cosOne / 2 ^ 64 : ℝ) - ∑ k ∈ Finset.range 11, (-1) ^ k / ((2 * k).factorial : ℝ)| ≤
      1 / 2 ^ 64 := by
    norm_num [Finset.sum_range_succ, Nat.factorial, cosOne, abs_le]
  have hsin : |(sinOne / 2 ^ 64 : ℝ) - ∑ k ∈ Finset.range 11, (-1) ^ k / ((2 * k + 1).factorial : ℝ)| ≤
      1 / 2 ^ 64 := by
    norm_num [Finset.sum_range_succ, Nat.factorial, sinOne, abs_le]
  have hrest : (1 : ℝ) ^ (2 * 11) * (((2 * 11).succ : ℝ) * (((2 * 11).factorial : ℝ) * ((2 * 11 : ℕ) : ℝ))⁻¹) ≤
      1 / 2 ^ 64 := by
    norm_num [Nat.factorial]
  calc ‖radian - Complex.exp Complex.I‖
      ≤ ‖radian - ⟨∑ k ∈ Finset.range 11, (-1) ^ k / ((2 * k).factorial : ℝ),
          ∑ k ∈ Finset.range 11, (-1) ^ k / ((2 * k + 1).factorial : ℝ)⟩‖ +
        ‖(⟨∑ k ∈ Finset.range 11, (-1) ^ k / ((2 * k).factorial : ℝ),
          ∑ k ∈ Finset.range 11, (-1) ^ k / ((2 * k + 1).factorial : ℝ)⟩ : ℂ) - Complex.exp Complex.I‖ :=
        norm_sub_le_norm_sub_add_norm_sub _ _ _
    _ ≤ (1 / 2 ^ 64 + 1 / 2 ^ 64) + 1 / 2 ^ 64 :=
        add_le_add (hdigits.trans (add_le_add hcos hsin)) (hseries.trans hrest)
    _ = 3 / 2 ^ 64 := by ring

/-! ## The table -/

/-- `value` is the integer part of `scale * |sin n|`, as the numerators have it. -/
def isFloor (scale n value : ℕ) : Bool :=
  let s := (power n).2.natAbs * 2 ^ 64
  let slack := 3 * n * (2 ^ 64) ^ n
  decide (value * (2 ^ 64) ^ (n + 1) + scale * slack ≤ scale * s) &&
    decide (scale * (s + slack) < (value + 1) * (2 ^ 64) ^ (n + 1))

/-- The sine, and the numerator that stands for it. -/
theorem abs_sin_close (n : ℕ) :
    abs (((power n).2.natAbs : ℝ) / (2 ^ 64) ^ n - abs (Real.sin n)) ≤ (n : ℝ) * (3 / 2 ^ 64) := by
  have hexp : ‖Complex.exp Complex.I‖ ≤ 1 := by
    have h := Complex.norm_exp_ofReal_mul_I 1
    rw [Complex.ofReal_one, one_mul] at h
    exact h.le
  have him : (Complex.exp Complex.I ^ n).im = Real.sin n := by
    rw [← Complex.exp_nat_mul, ← Complex.ofReal_natCast, Complex.exp_ofReal_mul_I_im]
  have hpower : (radian ^ n).im = (power n).2 / (2 ^ 64) ^ n := by
    have hreal : radian ^ n = ((((power n).1 / (2 ^ 64) ^ n : ℝ) : ℂ) +
        (((power n).2 / (2 ^ 64) ^ n : ℝ) : ℂ) * Complex.I) := by
      rw [radian_pow]
      push_cast
      ring
    rw [hreal, Complex.add_im, Complex.ofReal_im, Complex.im_ofReal_mul, Complex.I_im, zero_add, mul_one]
  have habs : ((power n).2.natAbs : ℝ) / (2 ^ 64) ^ n = abs ((power n).2 / (2 ^ 64) ^ n : ℝ) := by
    rw [abs_div, abs_of_pos (show (0 : ℝ) < (2 ^ 64) ^ n by positivity), Nat.cast_natAbs, Int.cast_abs]
  calc abs (((power n).2.natAbs : ℝ) / (2 ^ 64) ^ n - abs (Real.sin n))
      ≤ abs ((power n).2 / (2 ^ 64) ^ n - Real.sin n : ℝ) := by
        rw [habs]
        exact abs_abs_sub_abs_le_abs_sub _ _
    _ = abs (radian ^ n - Complex.exp Complex.I ^ n).im := by rw [Complex.sub_im, hpower, him]
    _ ≤ ‖radian ^ n - Complex.exp Complex.I ^ n‖ := Complex.abs_im_le_norm _
    _ ≤ n * (3 / 2 ^ 64) := norm_pow_sub_pow_le norm_radian_le_one hexp norm_radian_le n

/-- **The table.** -/
theorem floor_sin {scale n value : ℕ} (h : isFloor scale n value = true) :
    ⌊scale * abs (Real.sin n)⌋₊ = value := by
  obtain ⟨hlo, hhi⟩ := Bool.and_eq_true_iff.mp h
  have hlo := of_decide_eq_true hlo
  have hhi := of_decide_eq_true hhi
  obtain ⟨hbelow, habove⟩ := abs_le.mp (abs_sin_close n)
  have hD : (0 : ℝ) < (2 ^ 64) ^ (n + 1) := by positivity
  -- the same bounds, as numbers over one denominator
  have hlo' : (value : ℝ) ≤ scale * ((power n).2.natAbs / (2 ^ 64) ^ n - n * (3 / 2 ^ 64)) := by
    have hcast : (value : ℝ) * (2 ^ 64) ^ (n + 1) + scale * (3 * n * (2 ^ 64) ^ n) ≤
        scale * ((power n).2.natAbs * 2 ^ 64) := by exact_mod_cast hlo
    have hover : (scale : ℝ) * ((power n).2.natAbs / (2 ^ 64) ^ n - n * (3 / 2 ^ 64)) =
        (scale * ((power n).2.natAbs * 2 ^ 64) - scale * (3 * n * (2 ^ 64) ^ n)) / (2 ^ 64) ^ (n + 1) := by
      field_simp
      ring
    rw [hover, le_div_iff₀ hD]
    linarith
  have hhi' : (scale : ℝ) * ((power n).2.natAbs / (2 ^ 64) ^ n + n * (3 / 2 ^ 64)) < value + 1 := by
    have hcast : (scale : ℝ) * ((power n).2.natAbs * 2 ^ 64 + 3 * n * (2 ^ 64) ^ n) <
        (value + 1) * (2 ^ 64) ^ (n + 1) := by exact_mod_cast hhi
    have hover : (scale : ℝ) * ((power n).2.natAbs / (2 ^ 64) ^ n + n * (3 / 2 ^ 64)) =
        scale * ((power n).2.natAbs * 2 ^ 64 + 3 * n * (2 ^ 64) ^ n) / (2 ^ 64) ^ (n + 1) := by
      field_simp
      ring
    rw [hover, div_lt_iff₀ hD]
    exact hcast
  rw [Nat.floor_eq_iff (by positivity)]
  constructor
  · exact hlo'.trans (mul_le_mul_of_nonneg_left (by linarith) (Nat.cast_nonneg scale))
  · exact (mul_le_mul_of_nonneg_left (by linarith) (Nat.cast_nonneg scale)).trans_lt hhi'

example : isFloor (2 ^ 32) 1 0xd76aa478 = true := by decide +kernel

end SineTable
