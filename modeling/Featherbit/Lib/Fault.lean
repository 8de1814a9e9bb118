/-
  CODE THAT CAN FAULT, as a library.

  An index outside a buffer, a slice that leaves it, a sum above the largest machine integer, a
  difference below zero, a shift by the width of the word: each ends the program.  A function that does such things is written over `Except Fault`, with the
  operations below; that it is safe is then one equation, `f x = .ok (g x)`, with a `g` that does
  none of them.  `turns` runs a loop with a bound on its turns, and running out of them is a fault,
  too: the equation also says that the loop ends.

  Each operation has the lemma that gives its value in bounds (`index_eq_ok`, `slice_eq_ok`,
  `add_eq_ok` and so on), a loop the rule `turns_eq_ok`, by a measure that every turn lowers.
-/
import Mathlib.Data.List.Basic

/-- What ends a program that is not safe. -/
inductive Fault where
  | outOfBounds
  | overflow
  /-- the loop has not ended within its bound -/
  | diverged
deriving DecidableEq

namespace Fault

variable {α β : Type}

/-- `buf[i]`. -/
def index (buf : List α) (i : Nat) : Except Fault α :=
  match buf[i]? with
  | some a => .ok a
  | none => .error .outOfBounds

/-- `&buf[start..stop]`. -/
def slice (buf : List α) (start stop : Nat) : Except Fault (List α) :=
  if start ≤ stop ∧ stop ≤ buf.length then .ok ((buf.drop start).take (stop - start))
  else .error .outOfBounds

/-- `m + n`, where no number is above `max`. -/
def add (max m n : Nat) : Except Fault Nat := if m + n ≤ max then .ok (m + n) else .error .overflow

/-- `m - n`, where no number is below zero. -/
def sub (m n : Nat) : Except Fault Nat := if n ≤ m then .ok (m - n) else .error .overflow

/-- `x << n`, where no shift is by the width of the word or more. -/
def shl {w : Nat} (x : BitVec w) (n : Nat) : Except Fault (BitVec w) :=
  if n < w then .ok (x <<< n) else .error .overflow

/-- `m * n`, where no number is above `max`. -/
def mul (max m n : Nat) : Except Fault Nat := if m * n ≤ max then .ok (m * n) else .error .overflow

/-- A loop of at most `n` turns; a turn goes on (`Sum.inl`) or leaves the loop (`Sum.inr`). -/
def turns (step : α → Except Fault (α ⊕ β)) : Nat → α → Except Fault β
  | 0, _ => .error .diverged
  | n + 1, a =>
    match step a with
    | .error fault => .error fault
    | .ok (.inl a') => turns step n a'
    | .ok (.inr b) => .ok b

/-- What faulted not goes on. -/
theorem ok_bind (a : α) (f : α → Except Fault β) : (.ok a >>= f) = f a := rfl

theorem index_eq_ok {buf : List α} {i : Nat} {a : α} (h : buf[i]? = some a) :
    index buf i = .ok a := by
  rw [index, h]

theorem slice_eq_ok {buf : List α} {start n : Nat} (h : start + n ≤ buf.length) :
    slice buf start (start + n) = .ok ((buf.drop start).take n) := by
  rw [slice, if_pos ⟨by omega, h⟩, Nat.add_sub_cancel_left]

theorem add_eq_ok {max m n : Nat} (h : m + n ≤ max) : add max m n = .ok (m + n) := if_pos h

theorem sub_eq_ok {m n : Nat} (h : n ≤ m) : sub m n = .ok (m - n) := if_pos h

theorem sub_eq_error {m n : Nat} (h : m < n) : sub m n = .error .overflow := if_neg (Nat.not_le.mpr h)

theorem shl_eq_ok {w : Nat} (x : BitVec w) {n : Nat} (h : n < w) : shl x n = .ok (x <<< n) := if_pos h

theorem mul_eq_ok {max m n : Nat} (h : m * n ≤ max) : mul max m n = .ok (m * n) := if_pos h

/-- **A loop ends**: no turn faults, and each that goes on keeps the invariant and lowers the
    measure. -/
theorem turns_eq_ok {step : α → Except Fault (α ⊕ β)} {answer : α → β} (Inv : α → Prop)
    (measure : α → Nat)
    (hstep : ∀ a, Inv a → step a = .ok (.inr (answer a)) ∨
      ∃ a', step a = .ok (.inl a') ∧ Inv a' ∧ measure a' < measure a ∧ answer a = answer a')
    {n : Nat} {a : α} (ha : Inv a) (hn : measure a < n) : turns step n a = .ok (answer a) := by
  induction n generalizing a with
  | zero => omega
  | succ n ih =>
    rw [turns]
    rcases hstep a ha with hleave | ⟨a', hgo, ha', hlower, hanswer⟩
    · rw [hleave]
    · rw [hgo, hanswer]
      exact ih ha' (by omega)

end Fault
