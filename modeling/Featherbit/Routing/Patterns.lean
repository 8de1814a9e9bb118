/-
  THE PATTERN LANGUAGE OF PATHS (`routing/mod.rs`).

  A pattern is made of segments: `*` matches any one segment, a trailing `/*` anything below what stands
  before it, every other segment itself (`Documented`).

  `match_path` tells three shapes apart.  A pattern without a trailing `/*` is compared segment by
  segment (`matchPath_segments`); before a trailing `/*` the pattern is compared as text
  (`matchPath_below`), so that a `*` in there matches a `*` only.
-/
import Featherbit.Routing

namespace Featherbit

/-- Segments against those of a pattern, one by one. -/
def SegmentsMatch : List String → List String → Prop :=
  List.Forall₂ fun p s => p = "*" ∨ p = s

/-- The documented language. -/
def Documented (pattern path : String) : Prop :=
  match stripSuffix "/*" pattern with
  | some stem => ∃ leading below, splitChar '/' path = leading ++ below ∧
      SegmentsMatch (splitChar '/' stem) leading
  | none => SegmentsMatch (splitChar '/' pattern) (splitChar '/' path)

/-! ## Segments -/

theorem segmentsMatch_refl (segments : List String) : SegmentsMatch segments segments :=
  List.forall₂_same.mpr fun _ _ => Or.inr rfl

/-- Without a `*`, segments match themselves only. -/
theorem segmentsMatch_literal {segments leading : List String} (hstar : "*" ∉ segments) :
    SegmentsMatch segments leading ↔ leading = segments := by
  constructor
  · intro h
    induction h with
    | nil => rfl
    | @cons p s segments leading hp _ ih =>
      rcases hp with rfl | rfl
      · exact absurd List.mem_cons_self hstar
      · rw [ih fun hmem => hstar (List.mem_cons_of_mem _ hmem)]
  · rintro rfl
    exact segmentsMatch_refl _

/-- The comparison of the code, segment by segment. -/
theorem all_zip_iff {patternParts pathParts : List String} :
    (if patternParts.length ≠ pathParts.length then false
      else (patternParts.zip pathParts).all fun (p, s) => decide (p = "*") || decide (p = s)) = true ↔
      SegmentsMatch patternParts pathParts := by
  unfold SegmentsMatch
  rw [List.forall₂_iff_zip]
  by_cases hlength : patternParts.length = pathParts.length
  · rw [if_neg (not_not.mpr hlength), List.all_eq_true]
    constructor
    · intro h
      refine ⟨hlength, fun {p s} hmem => ?_⟩
      simpa using h (p, s) hmem
    · rintro ⟨-, h⟩ ⟨p, s⟩ hmem
      simpa using h hmem
  · rw [if_pos hlength]
    exact iff_of_false (by decide) fun h => hlength h.1

/-- A path is a stem, or begins with it and a slash: its segments begin with those of the stem. -/
theorem below_iff (stem path : String) :
    (path = stem ∨ startsWith path (stem ++ "/") = true) ↔
      ∃ below, splitChar '/' path = splitChar '/' stem ++ below := by
  constructor
  · rintro (rfl | hbelow)
    · exact ⟨[], (List.append_nil _).symm⟩
    · obtain ⟨rest, rfl⟩ := startsWith_iff.mp hbelow
      exact ⟨splitChar '/' rest, splitChar_append '/' stem rest⟩
  · rintro ⟨below, hbelow⟩
    rcases List.eq_nil_or_concat' below with rfl | ⟨_, _, rfl⟩
    · rw [List.append_nil, splitChar_inj] at hbelow
      exact Or.inl hbelow
    · obtain ⟨a, rest, rfl, ha, -⟩ := eq_append_of_splitChar hbelow (splitChar_ne_nil '/' stem)
        (List.concat_ne_nil _ _)
      obtain rfl := splitChar_inj.mp ha
      exact Or.inr (startsWith_iff.mpr ⟨rest, rfl⟩)

/-! ## The shapes of a pattern -/

/-- A pattern without a trailing `/*`. -/
theorem matchPath_segments {pattern : String} (h : stripSuffix "/*" pattern = none) (path : String) :
    matchPath pattern path = true ↔ SegmentsMatch (splitChar '/' pattern) (splitChar '/' path) := by
  unfold matchPath
  by_cases heq : pattern = path
  · rw [if_pos heq, heq]
    exact iff_of_true rfl (segmentsMatch_refl _)
  · rw [if_neg heq, h]
    exact all_zip_iff

/-- A trailing `/*`: the stem is compared as text. -/
theorem matchPath_below (stem path : String) :
    matchPath (stem ++ "/*") path = true ↔
      ∃ below, splitChar '/' path = splitChar '/' stem ++ below := by
  unfold matchPath
  by_cases heq : stem ++ "/*" = path
  · rw [if_pos heq, ← heq]
    refine iff_of_true rfl ⟨["*"], ?_⟩
    have hsplit := splitChar_append '/' stem "*"
    rw [String.append_assoc] at hsplit
    exact hsplit
  · rw [if_neg heq, stripSuffix_append]
    dsimp only
    rw [Bool.or_eq_true, decide_eq_true_eq]
    exact below_iff stem path

/-- The stem with its `*` segments emptied: a path that they match, and that is not the stem. -/
def emptied (stem : String) : List String :=
  (splitChar '/' stem).map fun segment => if segment = "*" then "" else segment

theorem emptied_spec (stem : String) :
    splitChar '/' ("/".intercalate (emptied stem)) = emptied stem ∧
      SegmentsMatch (splitChar '/' stem) (emptied stem) ∧ "*" ∉ emptied stem := by
  refine ⟨?_, ?_, ?_⟩
  · refine @splitChar_intercalate '/' _ ?_ fun segment hmem => ?_
    · unfold emptied
      rw [ne_eq, List.map_eq_nil_iff]
      exact splitChar_ne_nil '/' stem
    · obtain ⟨original, horiginal, rfl⟩ := List.mem_map.mp hmem
      split_ifs
      · decide
      · exact not_mem_of_mem_splitChar horiginal
  · unfold emptied SegmentsMatch
    rw [List.forall₂_map_right_iff, List.forall₂_same]
    intro segment _
    by_cases hstar : segment = "*"
    · exact Or.inl hstar
    · rw [if_neg hstar]
      exact Or.inr rfl
  · intro hmem
    obtain ⟨original, -, heq⟩ := List.mem_map.mp hmem
    split_ifs at heq with hstar
    · exact absurd heq (by decide)
    · exact hstar heq

/-- **The pattern language.**  For every pattern: `match_path` decides every path as documented exactly
    where no `*` segment stands before a trailing `/*`. -/
theorem matchPath_documented_iff (pattern : String) :
    (∀ path, matchPath pattern path = true ↔ Documented pattern path) ↔
      ∀ stem, pattern = stem ++ "/*" → "*" ∉ splitChar '/' stem := by
  constructor
  · rintro h stem rfl hstar
    obtain ⟨hsplit, hmatch, hnone⟩ := emptied_spec stem
    have hdocumented : Documented (stem ++ "/*") ("/".intercalate (emptied stem)) := by
      unfold Documented
      rw [stripSuffix_append]
      exact ⟨emptied stem, [], by rw [hsplit, List.append_nil], hmatch⟩
    obtain ⟨below, hbelow⟩ := (matchPath_below stem _).mp ((h _).mpr hdocumented)
    apply hnone
    rw [← hsplit, hbelow]
    exact List.mem_append_left _ hstar
  · intro h path
    unfold Documented
    cases hstrip : stripSuffix "/*" pattern with
    | none => exact matchPath_segments hstrip path
    | some stem =>
      obtain rfl := eq_of_stripSuffix hstrip
      dsimp only
      rw [matchPath_below]
      constructor
      · rintro ⟨below, hbelow⟩
        exact ⟨_, below, hbelow, segmentsMatch_refl _⟩
      · rintro ⟨leading, below, hsplit, hmatch⟩
        rw [segmentsMatch_literal (h stem rfl)] at hmatch
        exact ⟨below, by rw [hsplit, hmatch]⟩

/-- Both forms in one pattern. -/
theorem matchPath_combined :
    matchPath "/api/*/users/*" "/api/v1/users/5" = false ∧
      Documented "/api/*/users/*" "/api/v1/users/5" := by
  refine ⟨by decide, ["", "api", "v1", "users"], ["5"], by decide, ?_⟩
  exact .cons (Or.inr rfl) (.cons (Or.inr rfl) (.cons (Or.inl rfl) (.cons (Or.inr rfl) .nil)))

end Featherbit
