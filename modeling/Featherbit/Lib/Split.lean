/-
  SPLITTING A LIST AT A SEPARATOR, as a library.

  `splitOnce c l` cuts `l` at the first occurrence of `c`, `rsplitOnce c l` at the last one; both
  drop the separator and answer `none` when there is none.  Each has the characterisation that
  its callers use instead of its recursion.
-/
import Mathlib.Algebra.GroupWithZero.Nat
import Mathlib.Data.List.Basic

namespace Split

variable {α : Type*} [DecidableEq α]

/-- Cut at the first `c`. -/
def splitOnce (c : α) : List α → Option (List α × List α)
  | [] => none
  | a :: l => if a = c then some ([], l) else (splitOnce c l).map fun p => (a :: p.1, p.2)

/-- Cut at the last `c`. -/
def rsplitOnce (c : α) : List α → Option (List α × List α)
  | [] => none
  | a :: l =>
    match rsplitOnce c l with
    | some (x, y) => some (a :: x, y)
    | none => if a = c then some ([], l) else none

/-- The first cut of `x ++ c :: y` is at that `c` when `x` has none. -/
theorem splitOnce_append {c : α} {x : List α} (hx : c ∉ x) (y : List α) :
    splitOnce c (x ++ c :: y) = some (x, y) := by
  induction x with
  | nil => simp [splitOnce]
  | cons a x ih =>
    have hac : a ≠ c := fun h => hx (by rw [h]; exact List.mem_cons_self)
    have hx' : c ∉ x := fun h => hx (List.mem_cons_of_mem a h)
    simp only [List.cons_append, splitOnce, if_neg hac, ih hx', Option.map_some]

theorem eq_of_splitOnce {c : α} {l x y : List α} (h : splitOnce c l = some (x, y)) :
    l = x ++ c :: y := by
  induction l generalizing x with
  | nil => nomatch h
  | cons a l ih =>
    rw [splitOnce] at h
    split at h
    · rename_i hac
      obtain ⟨rfl, rfl⟩ := Prod.mk.inj (Option.some.inj h)
      rw [hac]
      rfl
    · obtain ⟨⟨x', y'⟩, hrest, heq⟩ := Option.map_eq_some_iff.mp h
      obtain ⟨rfl, rfl⟩ := Prod.mk.inj heq
      rw [ih hrest]
      rfl

/-- What stands before the first cut has no `c`. -/
theorem not_mem_of_splitOnce {c : α} {l x y : List α} (h : splitOnce c l = some (x, y)) : c ∉ x := by
  induction l generalizing x with
  | nil => nomatch h
  | cons a l ih =>
    rw [splitOnce] at h
    split at h
    · obtain ⟨rfl, rfl⟩ := Prod.mk.inj (Option.some.inj h)
      exact List.not_mem_nil
    · rename_i hac
      obtain ⟨⟨x', y'⟩, hrest, heq⟩ := Option.map_eq_some_iff.mp h
      obtain ⟨rfl, rfl⟩ := Prod.mk.inj heq
      intro hmem
      rcases List.mem_cons.mp hmem with rfl | hmem
      · exact hac rfl
      · exact ih hrest hmem

theorem rsplitOnce_eq_none {c : α} {l : List α} (hl : c ∉ l) : rsplitOnce c l = none := by
  induction l with
  | nil => rfl
  | cons a l ih =>
    have hac : a ≠ c := fun h => hl (by rw [h]; exact List.mem_cons_self)
    have hl' : c ∉ l := fun h => hl (List.mem_cons_of_mem a h)
    simp only [rsplitOnce, ih hl', if_neg hac]

/-- The last cut of `x ++ c :: y` is at that `c` when `y` has none. -/
theorem rsplitOnce_append {c : α} {y : List α} (hy : c ∉ y) (x : List α) :
    rsplitOnce c (x ++ c :: y) = some (x, y) := by
  induction x with
  | nil => simp [rsplitOnce, rsplitOnce_eq_none hy]
  | cons a x ih => simp only [List.cons_append, rsplitOnce, ih]

/-- The last cut of a list gives the list back. -/
theorem eq_of_rsplitOnce {c : α} {l : List α} {p : List α × List α} (h : rsplitOnce c l = some p) :
    l = p.1 ++ c :: p.2 := by
  induction l generalizing p with
  | nil => nomatch h
  | cons a l ih =>
    rw [rsplitOnce] at h
    cases hl : rsplitOnce c l with
    | some q =>
      rw [hl] at h
      cases h
      exact congrArg (a :: ·) (ih hl)
    | none =>
      rw [hl] at h
      by_cases hac : a = c
      · simp only [if_pos hac] at h
        cases h
        rw [hac]
        rfl
      · simp only [if_neg hac] at h
        cases h

omit [DecidableEq α] in
/-- The parts are in the joined list. -/
theorem mem_intercalate_of_mem {sep c : α} {ls : List (List α)} {l : List α} (hl : l ∈ ls)
    (hc : c ∈ l) : c ∈ [sep].intercalate ls := by
  induction ls with
  | nil => cases hl
  | cons head ls ih =>
    cases ls with
    | nil =>
      rw [List.intercalate_singleton]
      exact List.mem_singleton.mp hl ▸ hc
    | cons next ls =>
      rw [List.intercalate_cons_cons, List.append_assoc]
      rcases List.mem_cons.mp hl with rfl | hl
      · exact List.mem_append_left _ hc
      · exact List.mem_append_right _ (List.mem_append_right _ (ih hl))

omit [DecidableEq α] in
/-- What is in a joined list is a separator or in one of the parts. -/
theorem mem_intercalate {sep c : α} {ls : List (List α)}
    (h : c ∈ [sep].intercalate ls) : c = sep ∨ ∃ l ∈ ls, c ∈ l := by
  induction ls with
  | nil => cases h
  | cons l ls ih =>
    cases ls with
    | nil =>
      rw [List.intercalate_singleton] at h
      exact Or.inr ⟨l, List.mem_cons_self, h⟩
    | cons m ls =>
      rw [List.intercalate_cons_cons, List.mem_append, List.mem_append, List.mem_singleton] at h
      rcases h with (h | h) | h
      · exact Or.inr ⟨l, List.mem_cons_self, h⟩
      · exact Or.inl h
      · rcases ih h with h | ⟨l', hl', h⟩
        · exact Or.inl h
        · exact Or.inr ⟨l', List.mem_cons_of_mem _ hl', h⟩

omit [DecidableEq α] in
/-- A part of a split has nothing that it was split at. -/
theorem forall_of_mem_splitOnP {p : α → Bool} {l x : List α} (h : x ∈ l.splitOnP p) :
    ∀ a ∈ x, p a = false := by
  induction l generalizing x with
  | nil =>
    rw [List.splitOnP_nil, List.mem_singleton] at h
    rw [h]
    exact fun a ha => by cases ha
  | cons b l ih =>
    rw [List.splitOnP_cons_eq_if_modifyHead] at h
    split at h
    · rcases List.mem_cons.mp h with rfl | h
      · exact fun a ha => by cases ha
      · exact ih h
    · rename_i hb
      rcases hl : l.splitOnP p with - | ⟨y, ys⟩
      · exact absurd hl (List.splitOnP_ne_nil p l)
      · rw [hl, List.modifyHead_cons] at h
        rcases List.mem_cons.mp h with rfl | h
        · intro a ha
          rcases List.mem_cons.mp ha with rfl | ha
          · simpa using hb
          · exact ih (hl ▸ List.mem_cons_self) a ha
        · exact ih (hl ▸ List.mem_cons_of_mem y h)

/-- A part of a text that is split at a separator has none. -/
theorem not_mem_of_mem_splitOn {sep : α} {l x : List α} (h : x ∈ l.splitOn sep) : sep ∉ x := by
  intro hmem
  have hsep := forall_of_mem_splitOnP h sep hmem
  rw [beq_self_eq_true] at hsep
  cases hsep

/-! ## Parts that are read back from their joint text -/

omit [DecidableEq α] in
/-- Parts with nothing to split at are read back. -/
theorem splitOnP_intercalate {p : α → Bool} {sep : α} (hsep : p sep = true) {ls : List (List α)}
    (hne : ls ≠ []) (hls : ∀ l ∈ ls, ∀ a ∈ l, p a = false) : ([sep].intercalate ls).splitOnP p = ls := by
  induction ls with
  | nil => exact absurd rfl hne
  | cons l ls ih =>
    have hl := hls l List.mem_cons_self
    cases ls with
    | nil => rw [List.intercalate_singleton, List.splitOnP_eq_singleton hl]
    | cons next ls =>
      have hrest := ih (List.cons_ne_nil _ _) fun l hl => hls l (List.mem_cons_of_mem _ hl)
      rw [List.intercalate_cons_cons, List.append_assoc, List.singleton_append,
        List.splitOnP_append_cons_of_forall_mem hl sep hsep, hrest]

/-- A joined list has the separators of its parts, and one between any two. -/
theorem count_intercalate (sep : α) {ls : List (List α)} (hne : ls ≠ []) :
    ([sep].intercalate ls).count sep + 1 = (ls.map (List.count sep)).sum + ls.length := by
  induction ls with
  | nil => exact absurd rfl hne
  | cons l ls ih =>
    cases ls with
    | nil => simp
    | cons next ls =>
      have hrest := ih (List.cons_ne_nil _ _)
      rw [List.intercalate_cons_cons, List.count_append, List.count_append, List.count_singleton_self,
        List.map_cons, List.sum_cons, List.length_cons]
      omega

/-- Among as many parts, those without a separator are the only ones with their joint text. -/
theorem eq_of_intercalate {sep : α} {ls ls' : List (List α)} (hls : ∀ l ∈ ls, sep ∉ l)
    (hlen : ls.length = ls'.length) (h : [sep].intercalate ls = [sep].intercalate ls') : ls' = ls := by
  by_cases hne : ls = []
  · rw [hne, List.length_nil] at hlen
    rw [hne, List.length_eq_zero_iff.mp hlen.symm]
  · have hne' : ls' ≠ [] := by
      intro hnil
      rw [hnil, List.length_nil] at hlen
      exact hne (List.length_eq_zero_iff.mp hlen)
    have hcount := count_intercalate sep hne
    have hcount' := count_intercalate sep hne'
    have hzero : (ls.map (List.count sep)).sum = 0 := by
      rw [List.sum_eq_zero_iff_forall_eq_nat]
      intro n hn
      obtain ⟨l, hl, rfl⟩ := List.mem_map.mp hn
      exact List.count_eq_zero.mpr (hls l hl)
    have hzero' : (ls'.map (List.count sep)).sum = 0 := by
      rw [h] at hcount
      omega
    have hls' : ∀ l ∈ ls', sep ∉ l := by
      intro l hl
      exact List.count_eq_zero.mp (List.sum_eq_zero_iff_forall_eq_nat.mp hzero' _ (List.mem_map_of_mem hl))
    rw [← List.splitOn_intercalate sep hls' hne', ← h, List.splitOn_intercalate sep hls hne]

omit [DecidableEq α] in
/-- Two parts or more, one of them with a separator, have a joint text that as many others have. -/
theorem exists_other_parts {sep : α} {ls : List (List α)} (hsep : ∃ l ∈ ls, sep ∈ l)
    (hlen : 1 < ls.length) :
    ∃ ls', ls'.length = ls.length ∧ ls' ≠ ls ∧ [sep].intercalate ls' = [sep].intercalate ls := by
  induction ls with
  | nil => cases hlen
  | cons p ls ih =>
    cases ls with
    | nil => exact absurd hlen (Nat.lt_irrefl _)
    | cons q rest =>
      by_cases hp : sep ∈ p
      · -- the cut moves into the first part
        obtain ⟨a, b, rfl⟩ := List.append_of_mem hp
        refine ⟨a :: (b ++ sep :: q) :: rest, rfl, fun heq => ?_, ?_⟩
        · have hlength := congrArg List.length (List.cons.inj heq).1
          rw [List.length_append, List.length_cons] at hlength
          omega
        · cases rest with
          | nil => simp [List.intercalate_cons_cons]
          | cons r rest => simp [List.intercalate_cons_cons]
      · have htail : ∃ l ∈ q :: rest, sep ∈ l := by
          obtain ⟨l, hl, hmem⟩ := hsep
          rcases List.mem_cons.mp hl with rfl | hl
          · exact absurd hmem hp
          · exact ⟨l, hl, hmem⟩
        cases rest with
        | nil =>
          -- the cut moves into the last part
          obtain ⟨l, hl, hmem⟩ := htail
          rw [List.mem_singleton.mp hl] at hmem
          obtain ⟨a, b, rfl⟩ := List.append_of_mem hmem
          refine ⟨[p ++ sep :: a, b], rfl, fun heq => ?_, ?_⟩
          · have hlength := congrArg List.length (List.cons.inj heq).1
            rw [List.length_append, List.length_cons] at hlength
            omega
          · simp [List.intercalate_cons_cons]
        | cons r rest =>
          obtain ⟨ls', hlen', hne, hjoin⟩ := ih htail (by simp)
          refine ⟨p :: ls', congrArg (· + 1) hlen', fun heq => hne (List.cons.inj heq).2, ?_⟩
          cases ls' with
          | nil => cases hlen'
          | cons head ls' =>
            rw [List.intercalate_cons_cons, List.intercalate_cons_cons, hjoin]

/-! ## Parts that end with the separator -/

/-- The parts a separator ends: what follows the last one is no part. -/
def endedParts (sep : α) (l : List α) : List (List α) := (l.splitOn sep).dropLast

theorem endedParts_append {sep : α} {part : List α} (hpart : sep ∉ part) (rest : List α) :
    endedParts sep (part ++ sep :: rest) = part :: endedParts sep rest := by
  unfold endedParts
  rw [List.splitOn_append_cons_self, List.splitOn_eq_singleton hpart, List.singleton_append,
    List.dropLast_cons_of_ne_nil (List.splitOn_ne_nil _ _)]

theorem endedParts_eq_nil {sep : α} {l : List α} (hl : sep ∉ l) : endedParts sep l = [] := by
  unfold endedParts
  rw [List.splitOn_eq_singleton hl]
  rfl

/-- **A stream that is cut off**, wherever that is: its parts are the first of those that were put
    into it. -/
theorem endedParts_prefix {sep : α} {parts : List (List α)} (hparts : ∀ part ∈ parts, sep ∉ part) :
    ∀ {l : List α}, l <+: parts.flatMap (· ++ [sep]) → endedParts sep l <+: parts := by
  induction parts with
  | nil =>
    intro l hl
    obtain rfl := List.prefix_nil.mp hl
    have hnone : endedParts sep ([] : List α) = [] := endedParts_eq_nil List.not_mem_nil
    exact hnone ▸ List.nil_prefix
  | cons part parts ih =>
    intro l hl
    have hpart := hparts part List.mem_cons_self
    rw [List.flatMap_cons, List.append_assoc] at hl
    rcases List.prefix_or_prefix_of_prefix hl (List.prefix_append part _) with hshort | ⟨rest, rfl⟩
    · -- cut off within this part
      rw [endedParts_eq_nil fun hmem => hpart (hshort.subset hmem)]
      exact List.nil_prefix
    · rw [List.prefix_append_right_inj, List.singleton_append] at hl
      rcases List.prefix_cons_iff.mp hl with rfl | ⟨rest, rfl, hrest⟩
      · rw [List.append_nil, endedParts_eq_nil hpart]
        exact List.nil_prefix
      · rw [endedParts_append hpart]
        exact List.cons_prefix_cons.mpr
          ⟨rfl, ih (fun p hp => hparts p (List.mem_cons_of_mem part hp)) hrest⟩

/-- A stream that is not cut off. -/
theorem endedParts_flatMap {sep : α} {parts : List (List α)} (hparts : ∀ part ∈ parts, sep ∉ part) :
    endedParts sep (parts.flatMap (· ++ [sep])) = parts := by
  induction parts with
  | nil => exact endedParts_eq_nil List.not_mem_nil
  | cons part parts ih =>
    rw [List.flatMap_cons, List.append_assoc, List.singleton_append,
      endedParts_append (hparts part List.mem_cons_self),
      ih fun p hp => hparts p (List.mem_cons_of_mem part hp)]

end Split
