/-
  LOOPS OVER A LIST THAT MAY FAIL, as a library.

  A loop `for x in l { s = f(s, x)?; }` is `l.foldlM f s` in `Except ε`.  The equations below peel
  such a loop at either end, and a sequence of two steps (`bind_eq_ok`).

  Inserting without duplicates: a loop that inserts the keys of each element into what it builds,
  and fails at the first key that is already there, succeeds iff no key comes twice.
  `foldlM_ok_iff` says this for any such loop, given what one step does; since "no key comes
  twice" does not depend on the order of the list, neither does the loop's success
  (`foldlM_ok_perm`).
-/
import Mathlib.Data.List.Perm.Basic
import Mathlib.Data.List.Nodup
import Mathlib.Data.List.Forall2

namespace TryFold

/-! ## Peeling a loop -/

section Peel

variable {σ α β ε : Type} {f : σ → α → Except ε σ} {l : List α} {x : α} {s s' : σ}

/-- Both halves of `let a ← x; g a` succeed. -/
theorem bind_eq_ok {x : Except ε α} {g : α → Except ε β} {b : β} :
    (x >>= g) = .ok b ↔ ∃ a, x = .ok a ∧ g a = .ok b := by
  cases x <;> simp [bind, Except.bind]

theorem foldlM_concat_eq_ok : (l ++ [x]).foldlM f s = .ok s' ↔
    ∃ s1, l.foldlM f s = .ok s1 ∧ f s1 x = .ok s' := by
  rw [List.foldlM_append]
  cases l.foldlM f s with
  | error e => simp [bind, Except.bind]
  | ok s1 =>
    cases hx : f s1 x <;> simp [hx, bind, Except.bind, pure, Except.pure]

/-- A loop that pushes one result for each element. -/
theorem mapM_eq_ok {g : α → Except ε β} :
    ∀ {l : List α} {l' : List β}, l.mapM g = .ok l' ↔ List.Forall₂ (fun a b => g a = .ok b) l l' := by
  intro l
  induction l with
  | nil => intro l'; simp [pure, Except.pure, eq_comm]
  | cons a l ih =>
    intro l'
    rw [List.mapM_cons, List.forall₂_cons_left_iff]
    cases ha : g a with
    | error e => simp [bind, Except.bind]
    | ok b =>
      cases hl : l.mapM g with
      | error e =>
        have hnone : ∀ l', ¬ List.Forall₂ (fun a b => g a = .ok b) l l' := by
          intro l' h
          rw [← ih, hl] at h
          nomatch h
        simp [bind, Except.bind, hnone]
      | ok bs =>
        have hbs : ∀ l', List.Forall₂ (fun a b => g a = .ok b) l l' ↔ bs = l' := by
          intro l'
          rw [← ih, hl, Except.ok.injEq]
        simp [bind, Except.bind, pure, Except.pure, hbs, eq_comm]

/-- What the last row of a list gives is the last result. -/
theorem forall₂_concat {R : α → β → Prop} {as : List β} :
    List.Forall₂ R (l ++ [x]) as ↔ ∃ as' a, as = as' ++ [a] ∧ List.Forall₂ R l as' ∧ R x a := by
  rw [← List.forall₂_reverse_iff, List.reverse_append, List.reverse_singleton,
    List.singleton_append, List.forall₂_cons_left_iff]
  constructor
  · rintro ⟨a, rev, hx, hrev, has⟩
    refine ⟨rev.reverse, a, ?_, ?_, hx⟩
    · rw [← List.reverse_cons, ← has, List.reverse_reverse]
    · rw [← List.forall₂_reverse_iff, List.reverse_reverse]
      exact hrev
  · rintro ⟨as', a, rfl, has', hx⟩
    exact ⟨a, as'.reverse, hx, List.forall₂_reverse_iff.mpr has', by simp⟩

/-! ### Rows and results -/

/-- Every result is the result of a row. -/
theorem exists_row {R : α → β → Prop} {as : List β} (h : List.Forall₂ R l as) {a : β}
    (ha : a ∈ as) : ∃ x ∈ l, R x a := by
  induction h with
  | nil => nomatch ha
  | @cons x b _ _ hx _ ih =>
    rcases List.mem_cons.mp ha with rfl | hmem
    · exact ⟨x, List.mem_cons_self, hx⟩
    · obtain ⟨y, hy, hR⟩ := ih hmem
      exact ⟨y, List.mem_cons_of_mem _ hy, hR⟩

/-- Every row has its result. -/
theorem exists_result {R : α → β → Prop} {as : List β} (h : List.Forall₂ R l as) (hx : x ∈ l) :
    ∃ a ∈ as, R x a := by
  obtain ⟨a, ha, hR⟩ := exists_row h.flip hx
  exact ⟨a, ha, hR⟩

theorem exists_results {R : α → β → Prop} (h : ∀ x ∈ l, ∃ a, R x a) :
    ∃ as, List.Forall₂ R l as := by
  induction l with
  | nil => exact ⟨[], .nil⟩
  | cons x l ih =>
    obtain ⟨a, ha⟩ := h x List.mem_cons_self
    obtain ⟨as, has⟩ := ih fun y hy => h y (List.mem_cons_of_mem _ hy)
    exact ⟨a :: as, .cons ha has⟩

end Peel

/-! ## Inserting without duplicates -/

variable {σ α κ ε : Type*}

/-- What one step of the loop does.  `Holds s k` says that `s` holds the key `k`; an element has
    its keys, and a check of its own. -/
structure Inserts (f : σ → α → Except ε σ) (Holds : σ → κ → Prop) (Check : α → Prop)
    (keys : α → List κ) : Prop where
  ok_iff : ∀ s x, (∃ s', f s x = .ok s') ↔
    Check x ∧ (keys x).Nodup ∧ ∀ k ∈ keys x, ¬ Holds s k
  holds : ∀ {s x s'}, f s x = .ok s' → ∀ k, Holds s' k ↔ Holds s k ∨ k ∈ keys x

variable {f : σ → α → Except ε σ} {Holds : σ → κ → Prop} {Check : α → Prop} {keys : α → List κ}

/-- What the loop has built holds the keys of the list besides those it held before. -/
theorem foldlM_holds (hf : Inserts f Holds Check keys) :
    ∀ {l : List α} {s s' : σ}, l.foldlM f s = .ok s' →
      ∀ k, Holds s' k ↔ Holds s k ∨ k ∈ l.flatMap keys := by
  intro l
  induction l with
  | nil =>
    intro s s' h k
    obtain rfl := Except.ok.inj h
    simp
  | cons x l ih =>
    intro s s' h k
    rw [List.foldlM_cons] at h
    cases hx : f s x with
    | error e => rw [hx] at h; nomatch h
    | ok s1 =>
      rw [hx] at h
      rw [ih h k, hf.holds hx k, List.flatMap_cons, List.mem_append, or_assoc]

/-- The loop succeeds iff every element passes its check, no key comes twice in the list, and none
    was there before. -/
theorem foldlM_ok_iff (hf : Inserts f Holds Check keys) :
    ∀ {l : List α} {s : σ}, (∃ s', l.foldlM f s = .ok s') ↔
      (∀ x ∈ l, Check x) ∧ (l.flatMap keys).Nodup ∧ ∀ k ∈ l.flatMap keys, ¬ Holds s k := by
  intro l
  induction l with
  | nil =>
    intro s
    exact ⟨fun _ => by simp, fun _ => ⟨s, rfl⟩⟩
  | cons x l ih =>
    intro s
    simp only [List.flatMap_cons, List.forall_mem_cons, List.nodup_append, List.forall_mem_append]
    constructor
    · rintro ⟨s', h⟩
      rw [List.foldlM_cons] at h
      cases hx : f s x with
      | error e => rw [hx] at h; nomatch h
      | ok s1 =>
        rw [hx] at h
        obtain ⟨hcheck, hnodup, hfresh⟩ := (hf.ok_iff s x).mp ⟨s1, hx⟩
        obtain ⟨hchecks, hnodups, hfreshs⟩ := ih.mp ⟨s', h⟩
        have hnot : ∀ k ∈ l.flatMap keys, ¬ Holds s k ∧ k ∉ keys x := by
          intro k hk
          have hk1 := hfreshs k hk
          rw [hf.holds hx k] at hk1
          exact ⟨fun hs => hk1 (Or.inl hs), fun hm => hk1 (Or.inr hm)⟩
        refine ⟨⟨hcheck, hchecks⟩, ⟨hnodup, hnodups, ?_⟩, hfresh, fun k hk => (hnot k hk).1⟩
        rintro a ha b hb rfl
        exact (hnot a hb).2 ha
    · rintro ⟨⟨hcheck, hchecks⟩, ⟨hnodup, hnodups, hdisj⟩, hfresh, hfreshs⟩
      obtain ⟨s1, hx⟩ := (hf.ok_iff s x).mpr ⟨hcheck, hnodup, hfresh⟩
      have hrest : ∃ s', l.foldlM f s1 = .ok s' := by
        refine ih.mpr ⟨hchecks, hnodups, fun k hk hs => ?_⟩
        rcases (hf.holds hx k).mp hs with h | h
        · exact hfreshs k hk h
        · exact hdisj k h k hk rfl
      obtain ⟨s', hs'⟩ := hrest
      exact ⟨s', by rw [List.foldlM_cons, hx]; exact hs'⟩

/-- Whether the loop succeeds does not depend on the order of the list. -/
theorem foldlM_ok_perm (hf : Inserts f Holds Check keys) {l l' : List α} (hperm : l.Perm l')
    {s : σ} (h : ∃ s', l.foldlM f s = .ok s') : ∃ s', l'.foldlM f s = .ok s' := by
  obtain ⟨hchecks, hnodups, hfreshs⟩ := (foldlM_ok_iff hf).mp h
  have hkeys : (l.flatMap keys).Perm (l'.flatMap keys) := hperm.flatMap_right keys
  refine (foldlM_ok_iff hf).mpr ⟨fun x hx => hchecks x (hperm.mem_iff.mpr hx), ?_, ?_⟩
  · exact hkeys.nodup_iff.mp hnodups
  · exact fun k hk => hfreshs k (hkeys.mem_iff.mpr hk)

end TryFold
