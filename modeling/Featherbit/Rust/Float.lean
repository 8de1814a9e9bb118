/-
  DECIMAL NUMBERS AS TEXT (`f32::from_str`, `f64::from_str`).

  An optional sign, digits with a point somewhere among them, and an optional exponent; no white space
  around.  The text names a decimal exactly, and the parser rounds it to the nearest float.  (The words
  `inf`, `infinity` and `nan` are read too; they are no decimals.)
-/
import Featherbit.Rust.Std

namespace Featherbit

/-- `±digits · 10 ^ exponent`. -/
structure Decimal where
  negative : Bool
  digits : Nat
  exponent : Int
deriving DecidableEq

namespace Decimal

/-- The sign in front, and what follows it. -/
def readSign : List Char → Bool × List Char
  | '-' :: rest => (true, rest)
  | '+' :: rest => (false, rest)
  | rest => (false, rest)

def isExponentMark (c : Char) : Bool := c = 'e' || c = 'E'

/-- What follows the mantissa: nothing, or a mark and a whole number. -/
def readExponent : List Char → Option Int
  | [] => some 0
  | _ :: rest =>
    let (negative, digits) := readSign rest
    if digits ≠ [] ∧ digits.all Char.isDigit then
      let n := Nat.ofDigitChars 10 digits 0
      some (if negative then -n else n)
    else none

/-- The decimal a text names. -/
def parse (s : String) : Option Decimal :=
  let (negative, body) := readSign s.toList
  let mantissa := body.takeWhile fun c => !isExponentMark c
  let whole := mantissa.takeWhile (· ≠ '.')
  let fraction := (mantissa.dropWhile (· ≠ '.')).tail
  if whole ++ fraction ≠ [] ∧ (whole ++ fraction).all Char.isDigit then
    (readExponent (body.dropWhile fun c => !isExponentMark c)).map fun exponent => {
      negative := negative
      digits := Nat.ofDigitChars 10 (whole ++ fraction) 0
      exponent := exponent - fraction.length }
  else none

/-- Rounded to an `f32` it is zero: half the least positive one is `2 ^ -150`, and a tie goes to zero. -/
def isZeroF32 (d : Decimal) : Bool :=
  d.digits = 0 || (d.exponent < 0 && d.digits * 2 ^ 150 ≤ 10 ^ (-d.exponent).toNat)

/-- What stops a search fails its test. -/
theorem of_dropWhile_cons {p : Char → Bool} {l rest : List Char} {c : Char}
    (h : l.dropWhile p = c :: rest) : p c = false := by
  have hhead := List.head?_dropWhile_not p l
  rw [h] at hhead
  exact hhead

/-- The characters of a decimal. -/
def IsDecimalChar (c : Char) : Prop := c.isDigit = true ∨ c ∈ ['+', '-', '.', 'e', 'E']

theorem readSign_chars {l : List Char} (h : ∀ c ∈ (readSign l).2, IsDecimalChar c) :
    ∀ c ∈ l, IsDecimalChar c := by
  intro c hc
  unfold readSign at h
  split at h
  · rcases List.mem_cons.mp hc with rfl | hc
    · exact Or.inr (by decide)
    · exact h c hc
  · rcases List.mem_cons.mp hc with rfl | hc
    · exact Or.inr (by decide)
    · exact h c hc
  · exact h c hc

theorem readExponent_chars {l : List Char} (hmark : ∀ c rest, l = c :: rest → isExponentMark c = true)
    {n : Int} (h : readExponent l = some n) : ∀ c ∈ l, IsDecimalChar c := by
  cases l with
  | nil => intro c hc; cases hc
  | cons mark rest =>
    have hmark := hmark mark rest rfl
    have hrest : ∀ c ∈ (readSign rest).2, IsDecimalChar c := by
      unfold readExponent at h
      dsimp only at h
      split at h
      · rename_i hdigits
        intro c hc
        exact Or.inl (List.all_eq_true.mp hdigits.2 c hc)
      · cases h
    intro c hc
    rcases List.mem_cons.mp hc with rfl | hc
    · refine Or.inr ?_
      rcases Bool.or_eq_true_iff.mp hmark with hmark | hmark
      · rw [of_decide_eq_true hmark]
        decide
      · rw [of_decide_eq_true hmark]
        decide
    · exact readSign_chars hrest c hc

/-- A text that names a decimal has no other characters. -/
theorem parse_chars {s : String} {d : Decimal} (h : parse s = some d) :
    ∀ c ∈ s.toList, IsDecimalChar c := by
  unfold parse at h
  dsimp only at h
  refine readSign_chars ?_
  generalize (readSign s.toList).2 = body at h ⊢
  split at h
  · rename_i hdigits
    obtain ⟨n, hexponent, -⟩ := Option.map_eq_some_iff.mp h
    have hall := List.all_eq_true.mp hdigits.2
    have hmantissa : ∀ c ∈ body.takeWhile (fun c => !isExponentMark c), IsDecimalChar c := by
      intro c hc
      generalize body.takeWhile (fun c => !isExponentMark c) = mantissa at hc hall
      have hcut : mantissa.takeWhile (· ≠ '.') ++ mantissa.dropWhile (· ≠ '.') = mantissa :=
        List.takeWhile_append_dropWhile
      rw [← hcut] at hc
      rcases List.mem_append.mp hc with hc | hc
      · exact Or.inl (hall c (List.mem_append_left _ hc))
      · cases hdrop : mantissa.dropWhile (· ≠ '.') with
        | nil => rw [hdrop] at hc; cases hc
        | cons point fraction =>
          have hpoint : point = '.' := by
            simpa using of_dropWhile_cons hdrop
          rw [hdrop] at hc hall
          rcases List.mem_cons.mp hc with rfl | hc
          · exact Or.inr (by rw [hpoint]; decide)
          · exact Or.inl (hall c (List.mem_append_right _ hc))
    intro c hc
    have hcut : (body.takeWhile fun c => !isExponentMark c) ++
        (body.dropWhile fun c => !isExponentMark c) = body := List.takeWhile_append_dropWhile
    rw [← hcut] at hc
    rcases List.mem_append.mp hc with hc | hc
    · exact hmantissa c hc
    · refine readExponent_chars ?_ hexponent c hc
      intro mark rest hdrop
      simpa using of_dropWhile_cons hdrop
  · cases h

end Decimal

/-- `s.parse::<f32>() == Ok(0.0)`. -/
def parsesToZeroF32 (s : String) : Bool := (Decimal.parse s).any Decimal.isZeroF32

example : ["0", "0.0", "0.", "-0", "0e5", "1e-46"].all parsesToZeroF32 = true := by decide +kernel
example : ["", ".", "0;q=1", " 0", "1e-44", "0.001", "nan"].any parsesToZeroF32 = false := by decide +kernel

end Featherbit
