/-
  WALKS IN A FINITE DIRECTED GRAPH, as a library.

  A graph is a relation `r : α → α → Prop`; a walk is a function `f : Nat → α` with
  `r (f i) (f (i + 1))`, finite (for `i < n`) or infinite.  `CycleFree r a` says that no node
  reachable from `a` lies on a cycle.  The two halves of "a walk from `a` always ends iff no cycle
  is reachable from `a`":

  * `exists_stream_of_cycle`: a reachable cycle gives an infinite walk from `a`;
  * `walk_length_le`: without one, a walk whose nodes are taken from a list `V` has at most
    `V.length` edges (the pigeonhole principle).
-/
import Mathlib.Logic.Relation
import Mathlib.Data.Finset.Card
import Mathlib.Data.Finset.Range
import Mathlib.Data.List.Dedup
import Mathlib.Data.Finset.Dedup
import Mathlib.Combinatorics.Pigeonhole

namespace Walk

variable {α : Type*} {r : α → α → Prop}

/-- No node reachable from `a` lies on a cycle. -/
def CycleFree (r : α → α → Prop) (a : α) : Prop :=
  ∀ c, Relation.ReflTransGen r a c → ¬ Relation.TransGen r c c

/-- Where every node of a set has a successor in the set, an infinite walk starts at each of its
    nodes. -/
theorem exists_stream {P : α → Prop} (hP : ∀ x, P x → ∃ y, r x y ∧ P y) {a : α} (ha : P a) :
    ∃ f : Nat → α, f 0 = a ∧ ∀ i, r (f i) (f (i + 1)) := by
  classical
  choose! next hr hnext using hP
  have hmem : ∀ i, P (Nat.rec a (fun _ x => next x) i) := by
    intro i
    induction i with
    | zero => exact ha
    | succ i ih => exact hnext _ ih
  exact ⟨fun i => Nat.rec a (fun _ x => next x) i, rfl, fun i => hr _ (hmem i)⟩

/-- A reachable cycle gives an infinite walk: go to it, then round it for ever. -/
theorem exists_stream_of_cycle {a c : α} (hac : Relation.ReflTransGen r a c)
    (hcc : Relation.TransGen r c c) : ∃ f : Nat → α, f 0 = a ∧ ∀ i, r (f i) (f (i + 1)) := by
  refine exists_stream (P := fun x => Relation.TransGen r x c) ?_
    (Relation.TransGen.trans_right hac hcc)
  intro x hx
  obtain ⟨y, hxy, hyc⟩ := Relation.TransGen.head'_iff.mp hx
  exact ⟨y, hxy, Relation.TransGen.trans_right hyc hcc⟩

section Finite

variable {f : Nat → α} {n : Nat}

theorem reflTransGen_of_walk (hf : ∀ i, i < n → r (f i) (f (i + 1))) {i j : Nat} (hij : i ≤ j)
    (hj : j ≤ n) : Relation.ReflTransGen r (f i) (f j) := by
  induction j, hij using Nat.le_induction with
  | base => exact .refl
  | succ j hij ih => exact .tail (ih (by omega)) (hf j (by omega))

theorem transGen_of_walk (hf : ∀ i, i < n → r (f i) (f (i + 1))) {i j : Nat} (hij : i < j)
    (hj : j ≤ n) : Relation.TransGen r (f i) (f j) :=
  Relation.TransGen.head' (hf i (by omega)) (reflTransGen_of_walk hf hij hj)

/-- **Pigeonhole.**  Where no cycle is reachable, a walk through nodes of `V` has at most
    `V.length` edges: one more and two of its nodes would coincide. -/
theorem walk_length_le {V : List α} (hf : ∀ i, i < n → r (f i) (f (i + 1)))
    (hV : ∀ i, i < n → f i ∈ V) (hfree : CycleFree r (f 0)) : n ≤ V.length := by
  classical
  by_contra hlt
  have hcard : V.toFinset.card < (Finset.range n).card := by
    rw [Finset.card_range]
    exact Nat.lt_of_le_of_lt (List.toFinset_card_le V) (by omega)
  obtain ⟨i, hi, j, hj, hne, heq⟩ := Finset.exists_ne_map_eq_of_card_lt_of_maps_to hcard
    (f := f) (fun i hi => by simpa using hV i (by simpa using hi))
  have key : ∀ i j, i < j → j < n → f i = f j → False := by
    intro i j hij hj heq
    have hcyc : Relation.TransGen r (f i) (f j) := transGen_of_walk hf hij (by omega)
    rw [← heq] at hcyc
    exact hfree _ (reflTransGen_of_walk hf (Nat.zero_le i) (by omega)) hcyc
  rw [Finset.mem_range] at hi hj
  rcases Nat.lt_or_gt_of_ne hne with h | h
  · exact key i j h hj heq
  · exact key j i h hi heq.symm

end Finite

end Walk
