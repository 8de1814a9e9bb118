/-
  LOOPS THAT BREAK, as a library.

  A `loop { .. break v .. }` is a body `step : α → β ⊕ α`-style function: one iteration either
  hands a new state to the next iteration (`Sum.inl`) or leaves the loop with a value
  (`Sum.inr`).  `iterate step n a` runs at most `n` iterations from the head state `a`; `none`
  means that the fuel ran out before the loop left.  The library gives what proofs about such
  loops need, once:

  * fuel: more fuel never changes an answer (`iterate_mono`), so a loop has at most one answer
    (`iterate_det`);
  * `Heads step a b`: the loop head is in state `b` at some iteration of the loop started at `a`
    (the induction principle of safety facts);
  * `iterate_none_of_turns`: a body that always turns never leaves;
  * `iterate_lockstep`: two bodies that stay related step by step leave together.
-/
import Mathlib.Logic.Relation

namespace Loop

variable {α β α' β' : Type*}

/-- At most `n` iterations of the body `step` from the head state `a`. -/
def iterate (step : α → α ⊕ β) : Nat → α → Option β
  | 0, _ => none
  | n + 1, a =>
    match step a with
    | .inl a' => iterate step n a'
    | .inr b => some b

/-- One turn of the loop: the body went from head `a` to head `b`. -/
def Turn (step : α → α ⊕ β) (a b : α) : Prop := step a = .inl b

/-- The loop started at `a` is at its head in state `b` at some iteration. -/
def Heads (step : α → α ⊕ β) : α → α → Prop := Relation.ReflTransGen (Turn step)

theorem iterate_succ_inl {step : α → α ⊕ β} {a a' : α} (h : step a = .inl a') (n : Nat) :
    iterate step (n + 1) a = iterate step n a' := by
  simp only [iterate, h]

theorem iterate_succ_inr {step : α → α ⊕ β} {a : α} {b : β} (h : step a = .inr b) (n : Nat) :
    iterate step (n + 1) a = some b := by
  simp only [iterate, h]

/-! ## Fuel -/

/-- An answer found with some fuel is found with any larger fuel. -/
theorem iterate_mono {step : α → α ⊕ β} {b : β} :
    ∀ {n m : Nat} {a : α}, n ≤ m → iterate step n a = some b → iterate step m a = some b := by
  intro n
  induction n with
  | zero => intro m a _ h; exact absurd h (by simp [iterate])
  | succ n ih =>
    intro m a hle h
    obtain ⟨k, rfl⟩ : ∃ k, m = k + 1 := ⟨m - 1, by omega⟩
    cases hs : step a with
    | inl a' =>
      rw [iterate_succ_inl hs] at h ⊢
      exact ih (by omega) h
    | inr b' =>
      rw [iterate_succ_inr hs] at h ⊢
      exact h

/-- A loop has at most one answer. -/
theorem iterate_det {step : α → α ⊕ β} {n m : Nat} {a : α} {b b' : β}
    (h : iterate step n a = some b) (h' : iterate step m a = some b') : b = b' := by
  have h1 := iterate_mono (Nat.le_max_left n m) h
  have h2 := iterate_mono (Nat.le_max_right n m) h'
  exact Option.some.inj (h1.symm.trans h2)

/-! ## Loop heads -/

/-- A fact of the first head that every turn keeps holds at every head. -/
theorem heads_invariant {step : α → α ⊕ β} {P : α → Prop} {a b : α} (hb : Heads step a b)
    (h0 : P a) (hstep : ∀ x y, P x → step x = .inl y → P y) : P b := by
  induction hb with
  | refl => exact h0
  | tail _ ht ih => exact hstep _ _ ih ht

/-- Either the loop leaves within `n` iterations, or `n` turns can be listed from its head. -/
theorem iterate_or_turns (step : α → α ⊕ β) :
    ∀ (n : Nat) (a : α), (∃ b, iterate step n a = some b) ∨
      ∃ f : Nat → α, f 0 = a ∧ ∀ i, i < n → Turn step (f i) (f (i + 1)) := by
  intro n
  induction n with
  | zero => intro a; exact Or.inr ⟨fun _ => a, rfl, fun i hi => absurd hi (Nat.not_lt_zero i)⟩
  | succ n ih =>
    intro a
    cases hs : step a with
    | inr b => exact Or.inl ⟨b, iterate_succ_inr hs n⟩
    | inl a' =>
      rcases ih a' with ⟨b, hb⟩ | ⟨f, hf0, hf⟩
      · exact Or.inl ⟨b, by rw [iterate_succ_inl hs]; exact hb⟩
      · refine Or.inr ⟨fun i => Nat.casesOn i a f, rfl, fun i hi => ?_⟩
        cases i with
        | zero => show step a = .inl (f 0); rw [hf0]; exact hs
        | succ i => exact hf i (by omega)

/-- A loop whose body always turns, from a fact of its heads to the same fact, never leaves. -/
theorem iterate_none_of_turns {step : α → α ⊕ β} {P : α → Prop}
    (hstep : ∀ a, P a → ∃ a', Turn step a a' ∧ P a') :
    ∀ (n : Nat) {a : α}, P a → iterate step n a = none := by
  intro n
  induction n with
  | zero => intro a _; rfl
  | succ n ih =>
    intro a ha
    obtain ⟨a', hturn, ha'⟩ := hstep a ha
    rw [iterate_succ_inl hturn]
    exact ih ha'

/-! ## Lockstep simulation -/

/-- What one iteration of each of two related loops may do: go on together, or leave together. -/
inductive Lockstep (R : α → α' → Prop) (Q : β → β' → Prop) : α ⊕ β → α' ⊕ β' → Prop where
  | on {a a'} (h : R a a') : Lockstep R Q (.inl a) (.inl a')
  | out {b b'} (h : Q b b') : Lockstep R Q (.inr b) (.inr b')

/-- Two loops whose bodies stay in lockstep answer together, with the same fuel. -/
theorem iterate_lockstep {step : α → α ⊕ β} {step' : α' → α' ⊕ β'} {R : α → α' → Prop}
    {Q : β → β' → Prop} (hl : ∀ a a', R a a' → Lockstep R Q (step a) (step' a')) :
    ∀ {n : Nat} {a : α} {a' : α'} {b : β}, R a a' → iterate step n a = some b →
      ∃ b', iterate step' n a' = some b' ∧ Q b b' := by
  intro n
  induction n with
  | zero => intro a a' b _ h; exact absurd h (by simp [iterate])
  | succ n ih =>
    intro a a' b hR h
    have hstep := hl a a' hR
    generalize hs : step a = r at hstep
    generalize hs' : step' a' = r' at hstep
    cases hstep with
    | on h1 =>
      rw [iterate_succ_inl hs] at h
      obtain ⟨b', hb', hQ⟩ := ih h1 h
      exact ⟨b', by rw [iterate_succ_inl hs']; exact hb', hQ⟩
    | out h1 =>
      rw [iterate_succ_inr hs] at h
      obtain rfl := Option.some.inj h
      exact ⟨_, iterate_succ_inr hs' n, h1⟩

end Loop
