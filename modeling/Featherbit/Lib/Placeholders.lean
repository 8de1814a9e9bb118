/-
  TEXT WITH PLACEHOLDERS, as a library.

  `replace p v` puts `v` in the place of every `p`, from left to right; a `Template` is text around named
  holes, which is written with a text for each hole.

  1. **One pattern after another** (`replace_append`) — a pattern that cannot run into `q` is replaced on
     both sides of `q` apart.
  2. **Templates** (`replace_write`) — so a hole that is written as its pattern is filled, and the text around
     the holes is replaced in apart.  Where that has no pattern, this is the template with the hole filled
     (`replace_write_of_clean`); where it has, it is not, whatever stands there (`clean_of_mapRuns_write`).
  3. **Reading a template** (`parse`) — finds all the patterns at once (`write_parse`, `parse_clean`).
-/
import Mathlib.Data.List.Basic
import Mathlib.Data.List.Infix
import Mathlib.Logic.Function.Basic

namespace Placeholders

section Replace

variable {α : Type*} [DecidableEq α]

/-! ## Replacing a pattern -/

/-- The rest of a replacement, of which so many letters belong to a match. -/
def replaceAux (p v : List α) : Nat → List α → List α
  | _, [] => []
  | k + 1, _ :: l => replaceAux p v k l
  | 0, a :: l =>
    if p.isPrefixOf (a :: l) then v ++ replaceAux p v (p.length - 1) l else a :: replaceAux p v 0 l

/-- Every `p`, which is not empty, replaced with `v` from left to right. -/
def replace (p v l : List α) : List α := replaceAux p v 0 l

variable {p v : List α}

theorem replaceAux_eq_drop (k : Nat) (l : List α) : replaceAux p v k l = replace p v (l.drop k) := by
  induction k generalizing l with
  | zero => rfl
  | succ k ih =>
    cases l with
    | nil => rfl
    | cons a l => exact ih l

theorem replace_nil : replace p v [] = [] := rfl

/-- At a match. -/
theorem replace_append_self (hp : p ≠ []) (l : List α) : replace p v (p ++ l) = v ++ replace p v l := by
  obtain ⟨a, q, rfl⟩ := List.exists_cons_of_ne_nil hp
  have hprefix : (a :: q).isPrefixOf (a :: (q ++ l)) = true := List.isPrefixOf_iff_prefix.mpr ⟨l, rfl⟩
  show replaceAux (a :: q) v 0 (a :: (q ++ l)) = _
  rw [replaceAux, if_pos hprefix, replaceAux_eq_drop, List.length_cons, Nat.add_sub_cancel, List.drop_left]

/-- At no match. -/
theorem replace_cons {a : α} {l : List α} (h : ¬ p <+: a :: l) : replace p v (a :: l) = a :: replace p v l := by
  show replaceAux p v 0 (a :: l) = _
  rw [replaceAux, if_neg fun hprefix => h (List.isPrefixOf_iff_prefix.mp hprefix)]
  rfl

/-- Letter by letter, or match by match. -/
theorem replace_induction (hp : p ≠ []) {motive : List α → Prop} (nil : motive [])
    (hit : ∀ l, motive l → motive (p ++ l)) (miss : ∀ a l, ¬ p <+: a :: l → motive l → motive (a :: l)) :
    ∀ l, motive l := by
  intro l
  induction hn : l.length using Nat.strong_induction_on generalizing l with
  | _ n ih =>
    cases l with
    | nil => exact nil
    | cons a l =>
      by_cases h : p <+: a :: l
      · obtain ⟨rest, hrest⟩ := h
        have hlength := congrArg List.length hrest
        have hpos := List.length_pos_iff.mpr hp
        rw [List.length_append] at hlength
        rw [← hrest]
        exact hit rest (ih rest.length (by omega) rest rfl)
      · exact miss a l h (ih l.length (by rw [← hn]; exact Nat.lt_succ_self _) l rfl)

/-- A text without the pattern is left as it is. -/
theorem replace_of_not_infix {l : List α} (h : ¬ p <:+: l) : replace p v l = l := by
  induction l with
  | nil => rfl
  | cons a l ih =>
    have hrest : ¬ p <:+: l := fun hrest => h (hrest.trans (List.suffix_cons a l).isInfix)
    rw [replace_cons fun hfront => h hfront.isInfix, ih hrest]

/-- A pattern in its own place changes nothing. -/
theorem replace_self (hp : p ≠ []) (l : List α) : replace p p l = l := by
  induction l using replace_induction hp with
  | nil => rfl
  | hit l ih => rw [replace_append_self hp, ih]
  | miss a l h ih => rw [replace_cons h, ih]

theorem length_replace_le (hp : p ≠ []) (hle : v.length ≤ p.length) (l : List α) :
    (replace p v l).length ≤ l.length := by
  induction l using replace_induction hp with
  | nil => exact Nat.le_refl _
  | hit l ih =>
    rw [replace_append_self hp, List.length_append, List.length_append]
    omega
  | miss a l h ih =>
    rw [replace_cons h, List.length_cons, List.length_cons]
    omega

theorem le_length_replace (hp : p ≠ []) (hle : p.length ≤ v.length) (l : List α) :
    l.length ≤ (replace p v l).length := by
  induction l using replace_induction hp with
  | nil => exact Nat.le_refl _
  | hit l ih =>
    rw [replace_append_self hp, List.length_append, List.length_append]
    omega
  | miss a l h ih =>
    rw [replace_cons h, List.length_cons, List.length_cons]
    omega

/-- Where the pattern is, only itself changes nothing. -/
theorem eq_of_replace_eq_self (hp : p ≠ []) {l : List α} (hl : p <:+: l) (h : replace p v l = l) : v = p := by
  induction l using replace_induction hp with
  | nil =>
    rw [List.infix_nil] at hl
    exact absurd hl hp
  | hit l ih =>
    rw [replace_append_self hp] at h
    have hlength := congrArg List.length h
    rw [List.length_append, List.length_append] at hlength
    have hsame : v.length = p.length := by
      rcases Nat.le_total v.length p.length with hle | hle
      · have hshort := length_replace_le hp hle l
        omega
      · have hlong := le_length_replace hp hle l
        omega
    exact (List.append_inj h hsame).1
  | miss a l hmiss ih =>
    rw [replace_cons hmiss] at h
    rcases List.infix_cons_iff.mp hl with hprefix | hinfix
    · exact absurd hprefix hmiss
    · exact ih hinfix (List.cons.inj h).2

omit [DecidableEq α] in
/-- What two texts begin with is what the first begins with, or reaches into the second. -/
theorem prefix_append_cases {x y : List α} (h : p <+: x ++ y) : p <+: x ∨ ∃ t, p = x ++ t ∧ t <+: y := by
  obtain ⟨rest, hrest⟩ := h
  rcases List.append_eq_append_iff.mp hrest with ⟨t, hx, -⟩ | ⟨t, hp, hy⟩
  · exact Or.inl ⟨t, hx.symm⟩
  · exact Or.inr ⟨t, hp, rest, hy.symm⟩

/-- No `p` that begins before a `q` runs into it. -/
def ClearBefore (p q : List α) : Prop := ∀ t ∈ p.tail.tails, t ≠ [] → ¬ t <+: q ∧ ¬ q <+: t

/-- No `p` begins in a `q`. -/
def ClearIn (p q : List α) : Prop := ∀ t ∈ q.tails, t ≠ [] → ¬ p <+: t ∧ ¬ t <+: p

instance (p q : List α) : Decidable (ClearBefore p q) := inferInstanceAs (Decidable (∀ t ∈ _, _))

instance (p q : List α) : Decidable (ClearIn p q) := inferInstanceAs (Decidable (∀ t ∈ _, _))

/-- **One after another.**  In front of a `q` that it does not run into, a pattern is replaced apart. -/
theorem replace_append (hp : p ≠ []) {q : List α} (hq : ClearBefore p q) (x y : List α) :
    replace p v (x ++ (q ++ y)) = replace p v x ++ replace p v (q ++ y) := by
  induction x using replace_induction hp with
  | nil => rfl
  | hit x ih => rw [List.append_assoc, replace_append_self hp, replace_append_self hp, ih, List.append_assoc]
  | miss a x h ih =>
    have hmiss : ¬ p <+: a :: (x ++ (q ++ y)) := by
      intro hprefix
      rcases prefix_append_cases (show p <+: (a :: x) ++ (q ++ y) from hprefix) with hshort | ⟨t, rfl, ht⟩
      · exact h hshort
      · by_cases hnil : t = []
        · rw [hnil, List.append_nil] at h
          exact h (List.prefix_refl _)
        · -- the rest of the pattern would begin as `q` does
          have hclear := hq t ((List.mem_tails _ _).mpr (List.suffix_append x t)) hnil
          rcases prefix_append_cases ht with hin | ⟨s, rfl, -⟩
          · exact hclear.1 hin
          · exact hclear.2 (List.prefix_append q s)
    rw [List.cons_append, replace_cons hmiss, replace_cons h, ih]
    rfl

/-- A `q` that it does not begin in is left as it is. -/
theorem replace_append_clear {q : List α} (hq : ClearIn p q) (y : List α) :
    replace p v (q ++ y) = q ++ replace p v y := by
  induction q with
  | nil => rfl
  | cons a q ih =>
    have hmiss : ¬ p <+: a :: (q ++ y) := by
      intro hprefix
      have hclear := hq (a :: q) ((List.mem_tails _ _).mpr List.suffix_rfl) (List.cons_ne_nil a q)
      rcases prefix_append_cases (show p <+: (a :: q) ++ y from hprefix) with hin | ⟨s, rfl, -⟩
      · exact hclear.1 hin
      · exact hclear.2 (List.prefix_append (a :: q) s)
    have hrest : ClearIn p q := fun t ht => hq t ((List.mem_tails _ _).mpr
      (((List.mem_tails _ _).mp ht).trans (List.suffix_cons a q)))
    rw [List.cons_append, replace_cons hmiss, ih hrest]
    rfl

end Replace

/-! ## Templates -/

/-- Text around holes that have names. -/
structure Template (α ι : Type*) where
  first : List α
  rest : List (ι × List α)
deriving DecidableEq

namespace Template

variable {α ι : Type*}

/-- The text between the holes. -/
def runs (t : Template α ι) : List (List α) := t.first :: t.rest.map Prod.snd

def holes (t : Template α ι) : List ι := t.rest.map Prod.fst

/-- The text of a template, with a text for each hole. -/
def write (f : ι → List α) (t : Template α ι) : List α :=
  t.first ++ t.rest.flatMap fun hole => f hole.1 ++ hole.2

def mapRuns (g : List α → List α) (t : Template α ι) : Template α ι where
  first := g t.first
  rest := t.rest.map fun hole => (hole.1, g hole.2)

theorem write_nil (f : ι → List α) (x : List α) : write f ⟨x, []⟩ = x := List.append_nil x

theorem write_cons (f : ι → List α) (x y : List α) (i : ι) (rest : List (ι × List α)) :
    write f ⟨x, (i, y) :: rest⟩ = x ++ (f i ++ write f ⟨y, rest⟩) := by
  unfold write
  rw [List.flatMap_cons, List.append_assoc]

/-- Only the texts of the holes count. -/
theorem write_congr {f g : ι → List α} {t : Template α ι} (h : ∀ i ∈ t.holes, f i = g i) :
    t.write f = t.write g := by
  unfold write
  refine congrArg (t.first ++ ·) (List.flatMap_congr fun hole hhole => ?_)
  rw [h hole.1 (List.mem_map_of_mem hhole)]

theorem mapRuns_of_forall {g : List α → List α} {t : Template α ι} (h : ∀ run ∈ t.runs, g run = run) :
    t.mapRuns g = t := by
  have hrest : (t.rest.map fun hole => (hole.1, g hole.2)) = t.rest := by
    refine List.map_congr_left (g := id) (fun hole hhole => ?_) |>.trans (List.map_id _)
    rw [h hole.2 (List.mem_cons_of_mem _ (List.mem_map_of_mem hhole))]
    rfl
  unfold mapRuns
  rw [h t.first List.mem_cons_self, hrest]

/-- The shorter the runs, the shorter the text. -/
theorem length_write_mapRuns_le {g h : List α → List α} {t : Template α ι} (f : ι → List α)
    (hle : ∀ run ∈ t.runs, (g run).length ≤ (h run).length) :
    ((t.mapRuns g).write f).length ≤ ((t.mapRuns h).write f).length := by
  obtain ⟨x, rest⟩ := t
  induction rest generalizing x with
  | nil =>
    have hfirst := hle x List.mem_cons_self
    rw [mapRuns, mapRuns, List.map_nil, List.map_nil, write_nil, write_nil]
    exact hfirst
  | cons hole rest ih =>
    obtain ⟨i, y⟩ := hole
    have hfirst := hle x List.mem_cons_self
    have hrest := ih y fun run hrun => hle run (List.mem_cons_of_mem _ hrun)
    have hcons : ∀ k : List α → List α, ((mapRuns k ⟨x, (i, y) :: rest⟩).write f).length =
        (k x).length + ((f i).length + ((mapRuns k ⟨y, rest⟩).write f).length) := by
      intro k
      show (write f ⟨k x, (i, k y) :: rest.map fun hole => (hole.1, k hole.2)⟩).length = _
      rw [write_cons, List.length_append, List.length_append]
      rfl
    rw [hcons, hcons]
    omega

/-- Runs that all shrink, or all grow, and leave the text as it is, are left as they are. -/
theorem eq_of_write_mapRuns {g : List α → List α} {f : ι → List α} {t : Template α ι}
    (hlen : (∀ run ∈ t.runs, (g run).length ≤ run.length) ∨ ∀ run ∈ t.runs, run.length ≤ (g run).length)
    (h : (t.mapRuns g).write f = t.write f) : ∀ run ∈ t.runs, g run = run := by
  obtain ⟨x, rest⟩ := t
  induction rest generalizing x with
  | nil =>
    intro run hrun
    obtain rfl := List.mem_singleton.mp hrun
    rw [mapRuns, List.map_nil, write_nil, write_nil] at h
    exact h
  | cons hole rest ih =>
    obtain ⟨i, y⟩ := hole
    have htail : ∀ run, run ∈ runs (⟨y, rest⟩ : Template α ι) → run ∈ runs ⟨x, (i, y) :: rest⟩ :=
      fun run hrun => List.mem_cons_of_mem _ hrun
    have hlen' : (∀ run ∈ runs (⟨y, rest⟩ : Template α ι), (g run).length ≤ run.length) ∨
        ∀ run ∈ runs (⟨y, rest⟩ : Template α ι), run.length ≤ (g run).length :=
      hlen.imp (fun hle run hrun => hle run (htail run hrun)) fun hle run hrun => hle run (htail run hrun)
    have hsplit : g x ++ (f i ++ (mapRuns g ⟨y, rest⟩).write f) = x ++ (f i ++ write f ⟨y, rest⟩) := by
      rw [← write_cons, ← write_cons]
      exact h
    have hfirst : (g x).length = x.length := by
      have htotal := congrArg List.length hsplit
      simp only [List.length_append] at htotal
      have hid : mapRuns id (⟨y, rest⟩ : Template α ι) = ⟨y, rest⟩ := mapRuns_of_forall fun _ _ => rfl
      rcases hlen with hle | hle
      · have hx := hle x List.mem_cons_self
        have hrest := length_write_mapRuns_le (h := id) f fun run hrun => hle run (htail run hrun)
        rw [hid] at hrest
        omega
      · have hx := hle x List.mem_cons_self
        have hrest := length_write_mapRuns_le (g := id) f fun run hrun => hle run (htail run hrun)
        rw [hid] at hrest
        omega
    obtain ⟨hx, hsplit⟩ := List.append_inj hsplit hfirst
    obtain ⟨-, hsplit⟩ := List.append_inj hsplit rfl
    intro run hrun
    rcases List.mem_cons.mp hrun with rfl | hrun
    · exact hx
    · exact ih y hlen' hsplit run hrun

/-! ## Filling a hole -/

section Fill

variable [DecidableEq ι] (i : ι) (v : List α)

/-- The runs of `x` and what follows, with the text in the holes of that name. -/
def fillRest : List α → List (ι × List α) → Template α ι
  | x, [] => ⟨x, []⟩
  | x, (j, y) :: rest =>
    if j = i then fillRest (x ++ v ++ y) rest
    else ⟨x, (j, (fillRest y rest).first) :: (fillRest y rest).rest⟩

/-- The template with the text in the holes of that name. -/
def fill (t : Template α ι) : Template α ι := fillRest i v t.first t.rest

theorem write_fill (f : ι → List α) (t : Template α ι) :
    (t.fill i v).write f = t.write (Function.update f i v) := by
  obtain ⟨x, rest⟩ := t
  unfold fill
  induction rest generalizing x with
  | nil => rfl
  | cons hole rest ih =>
    obtain ⟨j, y⟩ := hole
    dsimp only at ih ⊢
    rw [fillRest, write_cons]
    by_cases hj : j = i
    · have happend : ∀ g : ι → List α, write g ⟨x ++ v ++ y, rest⟩ = x ++ (v ++ write g ⟨y, rest⟩) := by
        intro g
        unfold write
        rw [List.append_assoc, List.append_assoc, List.append_assoc]
      rw [if_pos hj, ih, happend, hj, Function.update_self]
    · rw [if_neg hj, write_cons, Function.update_of_ne hj, ← ih y]

/-- The other holes stay. -/
theorem holes_fill {t : Template α ι} {j : ι} (hj : j ∈ (t.fill i v).holes) : j ∈ t.holes ∧ j ≠ i := by
  obtain ⟨x, rest⟩ := t
  unfold fill at hj
  induction rest generalizing x with
  | nil => cases hj
  | cons hole rest ih =>
    obtain ⟨k, y⟩ := hole
    dsimp only at ih hj
    rw [fillRest] at hj
    by_cases hk : k = i
    · rw [if_pos hk] at hj
      obtain ⟨hmem, hne⟩ := ih _ hj
      exact ⟨List.mem_cons_of_mem _ hmem, hne⟩
    · rw [if_neg hk] at hj
      rcases List.mem_cons.mp hj with rfl | hj
      · exact ⟨List.mem_cons_self, hk⟩
      · obtain ⟨hmem, hne⟩ := ih y hj
        exact ⟨List.mem_cons_of_mem _ hmem, hne⟩

end Fill

/-! ## Replacing in a template -/

section ReplaceWrite

variable [DecidableEq α] [DecidableEq ι] {P : ι → List α} {i : ι}

/-- Patterns that do not run into one another: this one into none, and into itself only as a whole. -/
structure Apart (P : ι → List α) (i : ι) : Prop where
  ne_nil : P i ≠ []
  before : ∀ j, ClearBefore (P i) (P j)
  inside : ∀ j, j ≠ i → ClearIn (P i) (P j)

/-- **A hole that is written as its pattern** is filled, and the text around the holes is replaced in. -/
theorem replace_write (h : Apart P i) (v : List α) (t : Template α ι) :
    replace (P i) v (t.write P) = (t.mapRuns (replace (P i) v)).write (Function.update P i v) := by
  obtain ⟨x, rest⟩ := t
  induction rest generalizing x with
  | nil => rw [mapRuns, List.map_nil, write_nil, write_nil]
  | cons hole rest ih =>
    obtain ⟨j, y⟩ := hole
    have hcons : (mapRuns (replace (P i) v) ⟨x, (j, y) :: rest⟩).write (Function.update P i v) =
        replace (P i) v x ++ (Function.update P i v j ++
          (mapRuns (replace (P i) v) ⟨y, rest⟩).write (Function.update P i v)) := write_cons ..
    rw [hcons, write_cons, replace_append h.ne_nil (h.before j), ← ih y]
    by_cases hj : j = i
    · rw [hj, Function.update_self, replace_append_self h.ne_nil]
    · rw [Function.update_of_ne hj, replace_append_clear (h.inside j hj)]

/-- Where no run has the pattern, the template with the hole filled. -/
theorem replace_write_of_clean (h : Apart P i) (v : List α) {t : Template α ι}
    (hclean : ∀ run ∈ t.runs, ¬ P i <:+: run) : replace (P i) v (t.write P) = (t.fill i v).write P := by
  have hruns : t.mapRuns (replace (P i) v) = t :=
    mapRuns_of_forall fun run hrun => replace_of_not_infix (hclean run hrun)
  rw [replace_write h, hruns, write_fill]

omit [DecidableEq ι] in
/-- **And only there**, unless the text is the pattern itself. -/
theorem clean_of_mapRuns_write (h : Apart P i) {v : List α} (f : ι → List α) {t : Template α ι}
    (hsame : (t.mapRuns (replace (P i) v)).write f = t.write f) :
    (∀ run ∈ t.runs, ¬ P i <:+: run) ∨ v = P i := by
  have hlen : (∀ run ∈ t.runs, (replace (P i) v run).length ≤ run.length) ∨
      ∀ run ∈ t.runs, run.length ≤ (replace (P i) v run).length := by
    rcases Nat.le_total v.length (P i).length with hle | hle
    · exact Or.inl fun run _ => length_replace_le h.ne_nil hle run
    · exact Or.inr fun run _ => le_length_replace h.ne_nil hle run
  have hruns := eq_of_write_mapRuns hlen hsame
  by_cases hclean : ∀ run ∈ t.runs, ¬ P i <:+: run
  · exact Or.inl hclean
  · push Not at hclean
    obtain ⟨run, hrun, hinfix⟩ := hclean
    exact Or.inr (eq_of_replace_eq_self h.ne_nil hinfix (hruns run hrun))

end ReplaceWrite

/-! ## Reading a template -/

section Parse

variable [DecidableEq α] (P : ι → List α) (names : List ι)

/-- The pattern that a text begins with. -/
def nameAt (l : List α) : Option ι := names.find? fun i => (P i).isPrefixOf l

/-- The rest of a text, of which so many letters belong to a pattern. -/
def parseAux : Nat → List α → Template α ι
  | _, [] => ⟨[], []⟩
  | k + 1, _ :: l => parseAux k l
  | 0, a :: l =>
    match nameAt P names (a :: l) with
    | some i => ⟨[], (i, (parseAux ((P i).length - 1) l).first) :: (parseAux ((P i).length - 1) l).rest⟩
    | none => ⟨a :: (parseAux 0 l).first, (parseAux 0 l).rest⟩

/-- The template of a text, whose holes are the patterns as they come from left to right. -/
def parse (l : List α) : Template α ι := parseAux P names 0 l

variable {P names}

theorem parseAux_eq_drop (k : Nat) (l : List α) : parseAux P names k l = parse P names (l.drop k) := by
  induction k generalizing l with
  | zero => rfl
  | succ k ih =>
    cases l with
    | nil => rfl
    | cons a l => exact ih l

/-- At a pattern. -/
theorem parse_some {i : ι} {l : List α} (hne : P i ≠ []) (h : nameAt P names (P i ++ l) = some i) :
    parse P names (P i ++ l) = ⟨[], (i, (parse P names l).first) :: (parse P names l).rest⟩ := by
  obtain ⟨a, q, hq⟩ := List.exists_cons_of_ne_nil hne
  rw [hq] at h
  rw [hq]
  show parseAux P names 0 (a :: (q ++ l)) = _
  rw [parseAux, show nameAt P names (a :: (q ++ l)) = some i from h]
  dsimp only
  rw [parseAux_eq_drop, hq, List.length_cons, Nat.add_sub_cancel, List.drop_left]

/-- At no pattern. -/
theorem parse_none {a : α} {l : List α} (h : nameAt P names (a :: l) = none) :
    parse P names (a :: l) = ⟨a :: (parse P names l).first, (parse P names l).rest⟩ := by
  show parseAux P names 0 (a :: l) = _
  rw [parseAux, h]
  rfl

variable (names)

/-- Letter by letter, or pattern by pattern. -/
theorem parse_induction (hne : ∀ i, P i ≠ []) {motive : List α → Prop} (nil : motive [])
    (hit : ∀ i l, nameAt P names (P i ++ l) = some i → motive l → motive (P i ++ l))
    (miss : ∀ a l, nameAt P names (a :: l) = none → motive l → motive (a :: l)) : ∀ l, motive l := by
  intro l
  induction hn : l.length using Nat.strong_induction_on generalizing l with
  | _ n ih =>
    cases l with
    | nil => exact nil
    | cons a l =>
      cases h : nameAt P names (a :: l) with
      | some i =>
        have hprefix : (P i).isPrefixOf (a :: l) = true :=
          List.find?_some (p := fun i => (P i).isPrefixOf (a :: l)) h
        obtain ⟨rest, hrest⟩ := List.isPrefixOf_iff_prefix.mp hprefix
        have hlength := congrArg List.length hrest
        have hpos := List.length_pos_iff.mpr (hne i)
        rw [List.length_append] at hlength
        rw [← hrest] at h ⊢
        exact hit i rest h (ih rest.length (by omega) rest rfl)
      | none => exact miss a l h (ih l.length (by rw [← hn]; exact Nat.lt_succ_self _) l rfl)

/-- A text is its template, with each hole written as its pattern. -/
theorem write_parse (hne : ∀ i, P i ≠ []) (l : List α) : (parse P names l).write P = l := by
  induction l using parse_induction names hne with
  | nil => rfl
  | hit i l h ih =>
    rw [parse_some (hne i) h, write_cons, List.nil_append]
    exact congrArg (P i ++ ·) ih
  | miss a l h ih =>
    rw [parse_none h]
    exact congrArg (a :: ·) ih

/-- A template's text begins with its first run. -/
theorem first_prefix_parse (hne : ∀ i, P i ≠ []) (l : List α) : (parse P names l).first <+: l := by
  conv_rhs => rw [← write_parse names hne l]
  exact List.prefix_append _ _

variable {names}

/-- No run has a pattern. -/
theorem parse_clean (hne : ∀ i, P i ≠ []) {i : ι} (hi : i ∈ names) (l : List α) :
    ∀ run ∈ (parse P names l).runs, ¬ P i <:+: run := by
  induction l using parse_induction names hne with
  | nil =>
    intro run hrun hinfix
    rw [List.mem_singleton.mp hrun] at hinfix
    exact hne i (List.eq_nil_of_infix_nil hinfix)
  | hit j l h ih =>
    rw [parse_some (hne j) h]
    intro run hrun hinfix
    rcases List.mem_cons.mp hrun with rfl | hrun
    · exact hne i (List.eq_nil_of_infix_nil hinfix)
    · exact ih run hrun hinfix
  | miss a l h ih =>
    rw [parse_none h]
    intro run hrun hinfix
    rcases List.mem_cons.mp hrun with rfl | hrun
    · rcases List.infix_cons_iff.mp hinfix with hprefix | hinfix
      · -- the pattern would have been found at this letter
        have hall : P i <+: a :: l :=
          hprefix.trans ((List.prefix_cons_inj a).mpr (first_prefix_parse names hne l))
        exact List.find?_eq_none.mp h i hi (List.isPrefixOf_iff_prefix.mpr hall)
      · exact ih _ List.mem_cons_self hinfix
    · exact ih run (List.mem_cons_of_mem _ hrun) hinfix

end Parse

end Template

end Placeholders
