/-
  COUNTING THREADS, as a library.

  Threads take turns, and a shared counter is meant to say how many of them are in some phase.
  `Census P threads S` says that the finite set `S` holds exactly the threads in that phase, so
  `S.card` is their number.  A step moves one thread: it enters the phase, leaves it, or stays on
  its side, and each case is one lemma.  An arbitrary set of threads may be infinite; a census says
  that those in the phase are not.
-/
import Mathlib.Data.Finset.Card
import Mathlib.Logic.Function.Basic

/-- `S` holds exactly the threads whose state satisfies `P`. -/
def Census {ι L : Type*} (P : ι → L → Prop) (threads : ι → L) (S : Finset ι) : Prop :=
  ∀ i, i ∈ S ↔ P i (threads i)

namespace Census

variable {ι L : Type*} {P Q : ι → L → Prop} {threads : ι → L} {S T : Finset ι} {i : ι} {l : L}

/-- Nobody is in the phase. -/
theorem empty (h : ∀ i, ¬ P i (threads i)) : Census P threads ∅ := by
  intro i
  simp [h i]

/-- Where nobody is in the phase, the census is empty. -/
theorem eq_empty (h : Census P threads S) (hnone : ∀ i, ¬ P i (threads i)) : S = ∅ := by
  rw [Finset.eq_empty_iff_forall_notMem]
  intro i hi
  exact hnone i ((h i).mp hi)

/-- A phase inside another one. -/
theorem subset (h : Census P threads S) (hT : ∀ i ∈ T, P i (threads i)) : T ⊆ S := by
  intro i hi
  exact (h i).mpr (hT i hi)

variable [DecidableEq ι]

theorem enter (h : Census P threads S) (hout : ¬ P i (threads i)) (hin : P i l) :
    Census P (Function.update threads i l) (insert i S) ∧ (insert i S).card = S.card + 1 := by
  constructor
  · intro j
    by_cases hj : j = i
    · subst hj
      rw [Function.update_self]
      exact iff_of_true (Finset.mem_insert_self j S) hin
    · rw [Function.update_of_ne hj, Finset.mem_insert, ← h j]
      exact or_iff_right hj
  · exact Finset.card_insert_of_notMem fun hi => hout ((h i).mp hi)

theorem leave (h : Census P threads S) (hin : P i (threads i)) (hout : ¬ P i l) :
    Census P (Function.update threads i l) (S.erase i) ∧ (S.erase i).card + 1 = S.card := by
  constructor
  · intro j
    by_cases hj : j = i
    · subst hj
      rw [Function.update_self]
      exact iff_of_false (Finset.notMem_erase j S) hout
    · rw [Function.update_of_ne hj, Finset.mem_erase, ← h j]
      exact and_iff_right hj
  · exact Finset.card_erase_add_one ((h i).mpr hin)

theorem stay (h : Census P threads S) (hsame : P i l ↔ P i (threads i)) :
    Census P (Function.update threads i l) S := by
  intro j
  by_cases hj : j = i
  · subst hj
    rw [Function.update_self, hsame]
    exact h j
  · rw [Function.update_of_ne hj]
    exact h j

end Census
