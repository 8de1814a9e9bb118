/-
  THE LAST OF THE GREATEST (`Iterator::max_by_key`), as a library.

  1. **What is chosen** (`maxByKey_spec`) — an element of the list with the greatest key; `maxByKey_eq_none`
     says that only an empty list has none.
  2. **Two lists** (`maxByKey_rel`) — lists that go together row by row, with the same keys, have choices that
     go together.
-/
import Mathlib.Data.List.Forall2
import Mathlib.Order.Lattice

namespace LastMax

variable {α β κ : Type} [LinearOrder κ] {key : α → κ} {key' : β → κ}

/-- One more element: it is taken unless what there is has a greater key. -/
def later (key : α → κ) (best a : α) : α := if key best ≤ key a then a else best

def maxByKey (key : α → κ) : List α → Option α
  | [] => none
  | a :: l => some (l.foldl (later key) a)

theorem maxByKey_eq_none {l : List α} : maxByKey key l = none ↔ l = [] := by
  cases l with
  | nil => exact iff_of_true rfl rfl
  | cons a l => exact iff_of_false (Option.some_ne_none _) (List.cons_ne_nil _ _)

theorem foldl_later_spec (l : List α) (a : α) :
    l.foldl (later key) a ∈ a :: l ∧ ∀ b ∈ a :: l, key b ≤ key (l.foldl (later key) a) := by
  induction l generalizing a with
  | nil =>
    refine ⟨List.mem_cons_self, fun b hb => ?_⟩
    rw [List.mem_singleton.mp hb]
    exact le_refl _
  | cons c l ih =>
    obtain ⟨hmem, hmax⟩ := ih (later key a c)
    have hstep : (later key a c = a ∨ later key a c = c) ∧ key a ≤ key (later key a c) ∧
        key c ≤ key (later key a c) := by
      unfold later
      split
      · rename_i hle
        exact ⟨Or.inr rfl, hle, le_refl _⟩
      · rename_i hgt
        exact ⟨Or.inl rfl, le_refl _, le_of_not_ge hgt⟩
    obtain ⟨hwhich, ha, hc⟩ := hstep
    have hbest := hmax _ List.mem_cons_self
    rw [List.foldl_cons]
    refine ⟨?_, fun b hb => ?_⟩
    · rcases List.mem_cons.mp hmem with heq | hmem
      · rw [heq]
        rcases hwhich with heq | heq
        · rw [heq]
          exact List.mem_cons_self
        · rw [heq]
          exact List.mem_cons_of_mem _ List.mem_cons_self
      · exact List.mem_cons_of_mem _ (List.mem_cons_of_mem _ hmem)
    · rcases List.mem_cons.mp hb with rfl | hb
      · exact ha.trans hbest
      · rcases List.mem_cons.mp hb with rfl | hb
        · exact hc.trans hbest
        · exact hmax b (List.mem_cons_of_mem _ hb)

/-- **What is chosen.** -/
theorem maxByKey_spec {l : List α} {a : α} (h : maxByKey key l = some a) :
    a ∈ l ∧ ∀ b ∈ l, key b ≤ key a := by
  cases l with
  | nil => cases h
  | cons c l =>
    obtain rfl := Option.some.inj h
    exact foldl_later_spec l c

theorem foldl_later_rel {R : α → β → Prop} (hkey : ∀ a b, R a b → key a = key' b) {l : List α} {l' : List β}
    (hl : List.Forall₂ R l l') {a : α} {b : β} (hab : R a b) :
    R (l.foldl (later key) a) (l'.foldl (later key') b) := by
  induction hl generalizing a b with
  | nil => exact hab
  | @cons c d l l' hcd _ ih =>
    refine ih ?_
    unfold later
    rw [hkey a b hab, hkey c d hcd]
    split
    · exact hcd
    · exact hab

/-- **Two lists.** -/
theorem maxByKey_rel {R : α → β → Prop} (hkey : ∀ a b, R a b → key a = key' b) {l : List α} {l' : List β}
    (hl : List.Forall₂ R l l') : Option.Rel R (maxByKey key l) (maxByKey key' l') := by
  cases hl with
  | nil => exact Option.Rel.none
  | cons hab hl => exact Option.Rel.some (foldl_later_rel hkey hl hab)

end LastMax
