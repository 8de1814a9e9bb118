/-
  UNSIGNED INTEGERS AS TEXT (`u32::from_str`, `u16::from_str`): an optional plus sign, then digits, and
  no value past the type's own.
-/
import Featherbit.Rust.Std

namespace Featherbit

/-- `s.parse::<u32>()`. -/
def parseU32 (s : String) : Option Nat :=
  let digits :=
    match s.toList with
    | '+' :: rest => rest
    | l => l
  if digits ≠ [] ∧ digits.all Char.isDigit then
    (some (Nat.ofDigitChars 10 digits 0)).filter fun n => n < 2 ^ 32
  else none

/-- `s.parse::<u16>()`. -/
def parseU16 (s : String) : Option UInt16 :=
  ((parseU32 s).filter fun n => n < 2 ^ 16).map UInt16.ofNat

/-- What is printed is read. -/
theorem parseU32_showNat {n : Nat} (hn : n < 2 ^ 32) : parseU32 (showNat n) = some n := by
  have hdigit : ∀ c ∈ Nat.toDigits 10 n, c.isDigit = true :=
    fun c hc => Nat.isDigit_of_mem_toDigits (by decide) (by decide) hc
  unfold parseU32
  extract_lets digits
  have hdigits : digits = Nat.toDigits 10 n := by
    unfold digits showNat
    rw [String.toList_ofList]
    split
    · rename_i rest hplus
      have hbad := hdigit '+' (by rw [hplus]; exact List.mem_cons_self)
      exact absurd hbad (by decide)
    · rfl
  have hcond : digits ≠ [] ∧ digits.all Char.isDigit = true := by
    rw [hdigits]
    exact ⟨Nat.toDigits_ne_nil, List.all_eq_true.mpr hdigit⟩
  rw [if_pos hcond, hdigits, Nat.ofDigitChars_ten_toDigits]
  exact Option.filter_some_pos (decide_eq_true hn)

theorem parseU16_showNat (n : UInt16) : parseU16 (showNat n.toNat) = some n := by
  have hlt : n.toNat < 2 ^ 16 := n.toNat_lt
  have hfits : (some n.toNat).filter (fun n => n < 2 ^ 16) = some n.toNat :=
    Option.filter_some_pos (decide_eq_true hlt)
  unfold parseU16
  rw [parseU32_showNat (by omega), hfits, Option.map_some, UInt16.ofNat_toNat]

end Featherbit
