/-
  FINDING A TEXT IN ANOTHER ONE, as a library.

  `cut p l` takes `l` apart around the first place where `p` stands.  A pattern whose first letter is
  nowhere else in it does not overlap itself, so it is found where it was put (`cut_append`).  Of any
  pattern the place is the first one (`first_of_cut`).
-/
import Mathlib.Data.List.Infix

namespace TextSearch

variable {α : Type*} [DecidableEq α]

/-- What stands before and behind the first `p`. -/
def cut (p : List α) : List α → Option (List α × List α)
  | [] => if p = [] then some ([], []) else none
  | a :: l =>
    if p.isPrefixOf (a :: l) then some ([], (a :: l).drop p.length)
    else (cut p l).map fun parts => (a :: parts.1, parts.2)

theorem eq_of_cut {p l x y : List α} (h : cut p l = some (x, y)) : l = x ++ p ++ y := by
  induction l generalizing x with
  | nil =>
    unfold cut at h
    split at h
    · rename_i hp
      obtain ⟨rfl, rfl⟩ := Prod.mk.inj (Option.some.inj h)
      rw [hp]
      rfl
    · cases h
  | cons a l ih =>
    unfold cut at h
    split at h
    · rename_i hprefix
      obtain ⟨rest, hrest⟩ := List.isPrefixOf_iff_prefix.mp hprefix
      obtain ⟨rfl, rfl⟩ := Prod.mk.inj (Option.some.inj h)
      rw [← hrest, List.drop_left]
      rfl
    · obtain ⟨⟨x', y'⟩, hcut, heq⟩ := Option.map_eq_some_iff.mp h
      obtain ⟨rfl, rfl⟩ := Prod.mk.inj heq
      rw [ih hcut]
      rfl

theorem cut_eq_none {p l : List α} (h : ¬ p <:+: l) : cut p l = none := by
  cases hcut : cut p l with
  | none => rfl
  | some parts =>
    exfalso
    apply h
    rw [eq_of_cut (show cut p l = some (parts.1, parts.2) from hcut)]
    exact ⟨parts.1, parts.2, rfl⟩

/-- A pattern that is there is found. -/
theorem exists_cut {p l : List α} (h : p <:+: l) : ∃ x y, cut p l = some (x, y) := by
  induction l with
  | nil =>
    rw [List.infix_nil] at h
    exact ⟨[], [], if_pos h⟩
  | cons a l ih =>
    unfold cut
    split
    · exact ⟨[], _, rfl⟩
    · rename_i hprefix
      rcases List.infix_cons_iff.mp h with h | h
      · exact absurd (List.isPrefixOf_iff_prefix.mpr h) hprefix
      · obtain ⟨x, y, hcut⟩ := ih h
        exact ⟨a :: x, y, by rw [hcut]; rfl⟩

omit [DecidableEq α] in
/-- A pattern does not reach over its own first letter. -/
theorem infix_of_isPrefix {c a : α} {q x y : List α} (hq : c ∉ q) (h : (c :: q) <+: a :: x ++ c :: y) :
    (c :: q) <:+: a :: x := by
  obtain ⟨rest, hrest⟩ := h
  obtain ⟨rfl, htail⟩ := List.cons.inj hrest
  rcases List.append_eq_append_iff.mp htail with ⟨more, hmore, -⟩ | ⟨more, hmore, hrest⟩
  · exact ⟨[], more, by rw [hmore]; rfl⟩
  · cases more with
    | nil =>
      rw [List.append_nil] at hmore
      exact ⟨[], [], by rw [hmore]; simp⟩
    | cons d more =>
      have hd : c = d := (List.cons.inj hrest).1
      exact absurd (by rw [hmore, hd]; simp) hq

/-- The first place is where the pattern was put behind a text without it. -/
theorem cut_append {c : α} {q x : List α} (hq : c ∉ q) (hx : ¬ (c :: q) <:+: x) (y : List α) :
    cut (c :: q) (x ++ (c :: q) ++ y) = some (x, y) := by
  induction x with
  | nil =>
    have hprefix : (c :: q).isPrefixOf (c :: (q ++ y)) = true := List.isPrefixOf_iff_prefix.mpr ⟨y, rfl⟩
    rw [List.nil_append, List.cons_append, cut, if_pos hprefix, ← List.cons_append, List.drop_left]
  | cons a x ih =>
    have hnot : ¬ (c :: q).isPrefixOf (a :: (x ++ (c :: q) ++ y)) = true := by
      rw [List.isPrefixOf_iff_prefix, List.append_assoc]
      exact fun h => hx (infix_of_isPrefix hq h)
    have htail : ¬ (c :: q) <:+: x := fun h => hx (h.trans (List.suffix_cons a x).isInfix)
    rw [List.cons_append, List.cons_append, cut, if_neg hnot, ih htail]
    rfl

/-- What stands before the first place does not have the pattern. -/
theorem not_infix_of_cut {p l x y : List α} (h : cut p l = some (x, y)) (hp : p ≠ []) : ¬ p <:+: x := by
  induction l generalizing x with
  | nil =>
    unfold cut at h
    rw [if_neg hp] at h
    cases h
  | cons a l ih =>
    unfold cut at h
    split at h
    · obtain ⟨rfl, -⟩ := Prod.mk.inj (Option.some.inj h)
      rw [List.infix_nil]
      exact hp
    · rename_i hprefix
      obtain ⟨⟨x', y'⟩, hcut, heq⟩ := Option.map_eq_some_iff.mp h
      obtain ⟨rfl, rfl⟩ := Prod.mk.inj heq
      intro hinfix
      rcases List.infix_cons_iff.mp hinfix with hfront | hinfix
      · rw [List.isPrefixOf_iff_prefix, eq_of_cut hcut, List.append_assoc] at hprefix
        exact hprefix (hfront.trans ⟨p ++ y', by rw [List.cons_append]⟩)
      · exact ih hcut hinfix

/-- Nor does it stand there with less than its last letter behind. -/
theorem first_of_cut {p l x y : List α} (h : cut p l = some (x, y)) (hp : p ≠ []) :
    ¬ p <:+: x ++ p.dropLast := by
  have hlength : p.dropLast.length < p.length := by
    have hpos := List.length_pos_iff.mpr hp
    rw [List.length_dropLast]
    omega
  induction l generalizing x with
  | nil =>
    unfold cut at h
    rw [if_neg hp] at h
    cases h
  | cons a l ih =>
    unfold cut at h
    split at h
    · obtain ⟨rfl, -⟩ := Prod.mk.inj (Option.some.inj h)
      intro hinfix
      have hle := hinfix.length_le
      rw [List.nil_append] at hle
      omega
    · rename_i hnot
      obtain ⟨⟨x', y'⟩, hcut, heq⟩ := Option.map_eq_some_iff.mp h
      obtain ⟨rfl, rfl⟩ := Prod.mk.inj heq
      intro hinfix
      rcases List.infix_cons_iff.mp hinfix with hfront | hinfix
      · -- the letters behind are the pattern's own, so it stood at the front of the list
        have hbehind : a :: (x' ++ p.dropLast) <+: a :: l := by
          rw [eq_of_cut hcut, List.append_assoc, List.cons_prefix_cons, List.prefix_append_right_inj]
          exact ⟨rfl, (List.dropLast_prefix p).trans (List.prefix_append p y')⟩
        exact hnot (List.isPrefixOf_iff_prefix.mpr (hfront.trans hbehind))
      · exact ih hcut hinfix

omit [DecidableEq α] in
/-- A text without the pattern's first letter can be skipped. -/
theorem infix_of_append {c : α} {q x y : List α} (hx : c ∉ x) (h : (c :: q) <:+: x ++ y) :
    (c :: q) <:+: y := by
  induction x with
  | nil => exact h
  | cons a x ih =>
    rw [List.cons_append, List.infix_cons_iff] at h
    rcases h with ⟨rest, hrest⟩ | h
    · exact absurd (List.cons.inj hrest).1 (List.ne_of_not_mem_cons hx)
    · exact ih (List.not_mem_of_not_mem_cons hx) h

omit [DecidableEq α] in
theorem infix_append_cons {c : α} {q x y : List α} (hq : c ∉ q) (h : (c :: q) <:+: x ++ c :: y) :
    (c :: q) <:+: x ∨ (c :: q) <:+: c :: y := by
  induction x with
  | nil => exact .inr h
  | cons a x ih =>
    rw [List.cons_append, List.infix_cons_iff] at h
    rcases h with h | h
    · exact .inl (infix_of_isPrefix hq h)
    · rcases ih h with h | h
      · exact .inl (h.trans (List.suffix_cons a x).isInfix)
      · exact .inr h

end TextSearch
