/-
  THE PATH OF A COOKIE (`path_covers` of `plugins/util/cookie_session.rs`) against the path-match of
  RFC 6265, by which a browser decides whether it sends the cookie.

  The slashes at the end of the cookie path are dropped before it is compared.

  1. **What is compared** (`pathCovers_iff`) — the cookie path without these slashes, as the RFC compares it.
  2. **No cookie is missed** (`covers_of_match`) — a path that the RFC matches is covered.
  3. **Where the two agree** (`pathCovers_match_iff`) — where the request path has the slashes too, or does not
     match without them.
-/
import Featherbit.Plugins.CookieSession

namespace Featherbit

/-- A cookie path matches a request path: they are equal, or the one begins with the other, and a slash ends
    the cookie path or follows it. -/
def PathMatch (cookiePath requestPath : String) : Prop :=
  requestPath = cookiePath ∨ cookiePath.toList <+: requestPath.toList ∧
    (cookiePath.toList.getLast? = some '/' ∨ requestPath.toList[cookiePath.toList.length]? = some '/')

/-- A cookie path without the slashes at its end. -/
def trimmedPath (cookiePath : String) : String := trimEndMatches '/' cookiePath

variable {c r : String}

/-! ## Slashes at the end -/

/-- What is followed by a letter, and begins with both. -/
theorem concat_prefix_iff {α : Type} {base path : List α} {a : α} :
    base ++ [a] <+: path ↔ base <+: path ∧ path[base.length]? = some a := by
  constructor
  · rintro ⟨rest, rfl⟩
    refine ⟨⟨a :: rest, by rw [List.append_assoc, List.singleton_append]⟩, ?_⟩
    rw [List.append_assoc, List.getElem?_append_right (Nat.le_refl _), Nat.sub_self]
    rfl
  · rintro ⟨⟨rest, rfl⟩, hnext⟩
    rw [List.getElem?_append_right (Nat.le_refl _), Nat.sub_self, ← List.head?_eq_getElem?] at hnext
    obtain ⟨rest, rfl⟩ := List.head?_eq_some_iff.mp hnext
    exact ⟨rest, by rw [List.append_assoc, List.singleton_append]⟩

theorem toList_trimmedPath (c : String) : (trimmedPath c).toList = c.toList.rdropWhile (· = '/') :=
  String.toList_ofList

theorem getLast_trimmedPath (c : String) : (trimmedPath c).toList.getLast? ≠ some '/' := by
  intro h
  rw [toList_trimmedPath] at h
  have hne : c.toList.rdropWhile (· = '/') ≠ [] := by
    intro hnil
    rw [hnil] at h
    cases h
  have hnot := List.rdropWhile_last_not (fun c => decide (c = '/')) c.toList hne
  rw [List.getLast?_eq_some_getLast hne, Option.some.injEq] at h
  exact hnot (decide_eq_true h)

/-- A cookie path is the trimmed one, or goes on with a slash. -/
theorem eq_or_slash (c : String) : trimmedPath c = c ∨
    (trimmedPath c).toList ++ ['/'] <+: c.toList ∧ c.toList.getLast? = some '/' := by
  have hsplit : (trimmedPath c).toList ++ c.toList.rtakeWhile (· = '/') = c.toList := by
    rw [toList_trimmedPath]
    exact List.rdropWhile_append_rtakeWhile
  have hslashes : ∀ a ∈ c.toList.rtakeWhile (· = '/'), a = '/' := by
    intro a ha
    have h := List.mem_rtakeWhile_imp ha
    exact of_decide_eq_true h
  generalize c.toList.rtakeWhile (· = '/') = slashes at hsplit hslashes
  cases slashes with
  | nil =>
    rw [List.append_nil] at hsplit
    exact Or.inl (String.toList_inj.mp hsplit)
  | cons a slashes =>
    obtain rfl := hslashes a List.mem_cons_self
    refine Or.inr ⟨⟨slashes, ?_⟩, ?_⟩
    · rw [List.append_assoc, List.singleton_append, hsplit]
    · rw [← hsplit, List.getLast?_append_of_ne_nil _ (List.cons_ne_nil _ _),
        List.getLast?_eq_some_getLast (List.cons_ne_nil _ _)]
      exact congrArg some (hslashes _ (List.getLast_mem _))

/-! ## What is compared -/

/-- A path that ends in no slash matches itself, and what goes on with one. -/
theorem pathMatch_iff_of_no_slash (h : c.toList.getLast? ≠ some '/') :
    PathMatch c r ↔ r = c ∨ c.toList ++ ['/'] <+: r.toList := by
  unfold PathMatch
  rw [concat_prefix_iff]
  exact or_congr_right (and_congr_right fun _ => or_iff_right h)

/-- A path that ends in a slash matches what it begins. -/
theorem pathMatch_iff_of_slash (h : c.toList.getLast? = some '/') :
    PathMatch c r ↔ c.toList <+: r.toList := by
  constructor
  · rintro (rfl | ⟨hbegins, -⟩)
    · exact List.prefix_rfl
    · exact hbegins
  · intro hbegins
    exact Or.inr ⟨hbegins, Or.inl h⟩

/-- **What is compared.** -/
theorem pathCovers_iff (c r : String) :
    pathCovers c r = true ↔ trimmedPath c = "" ∨ PathMatch (trimmedPath c) r := by
  rw [pathMatch_iff_of_no_slash (getLast_trimmedPath c)]
  unfold pathCovers
  dsimp only
  rw [Bool.or_eq_true, Bool.or_eq_true, decide_eq_true_iff, decide_eq_true_iff, or_assoc]
  refine or_congr_right (or_congr_right ?_)
  unfold startsWith
  rw [List.isPrefixOf_iff_prefix, String.toList_append]
  exact Iff.rfl

/-- **No cookie is missed.**  What the cookie is sent with is covered. -/
theorem covers_of_match (h : PathMatch c r) : pathCovers c r = true := by
  rw [pathCovers_iff]
  rcases eq_or_slash c with htrimmed | ⟨hslash, hlast⟩
  · rw [htrimmed]
    exact Or.inr h
  · have hbegins := (pathMatch_iff_of_slash hlast).mp h
    exact Or.inr ((pathMatch_iff_of_no_slash (getLast_trimmedPath c)).mpr (Or.inr (hslash.trans hbegins)))

/-- **Cookie paths.**  The gateway and a browser agree exactly where the request path has the slashes that end
    the cookie path, or does not match the cookie path without them; for a cookie path of slashes alone only
    where it has them, and for an empty one where it is empty or begins with one. -/
theorem pathCovers_match_iff (c r : String) : (pathCovers c r = true ↔ PathMatch c r) ↔
    (trimmedPath c = "" → c.toList <+: r.toList ∧ (c = "" → r = "" ∨ r.toList.head? = some '/')) ∧
    (trimmedPath c ≠ "" → trimmedPath c = c ∨ c.toList <+: r.toList ∨ ¬ PathMatch (trimmedPath c) r) := by
  have hcovers : (pathCovers c r = true ↔ PathMatch c r) ↔
      (trimmedPath c = "" → PathMatch c r) ∧ (PathMatch (trimmedPath c) r → PathMatch c r) := by
    rw [← or_imp, ← pathCovers_iff]
    exact ⟨Iff.mp, fun h => ⟨h, covers_of_match⟩⟩
  rw [hcovers]
  rcases eq_or_slash c with htrimmed | ⟨hslash, hlast⟩
  · -- nothing is dropped
    rw [htrimmed]
    have hempty : c = "" → (PathMatch c r ↔ r = "" ∨ r.toList.head? = some '/') := by
      rintro rfl
      rw [pathMatch_iff_of_no_slash (by decide)]
      refine or_congr_right ?_
      rw [concat_prefix_iff, String.toList_empty, List.length_nil, ← List.head?_eq_getElem?]
      exact and_iff_right (List.nil_prefix)
    constructor
    · rintro ⟨h, -⟩
      refine ⟨fun hc => ⟨?_, fun _ => (hempty hc).mp (h hc)⟩, fun _ => Or.inl rfl⟩
      rw [hc]
      exact List.nil_prefix
    · rintro ⟨h, -⟩
      exact ⟨fun hc => (hempty hc).mpr ((h hc).2 hc), id⟩
  · -- slashes are dropped: a browser asks for them, the gateway does not
    have hne : c ≠ "" := by
      rintro rfl
      cases hlast
    have htrim : trimmedPath c ≠ c := by
      intro htrim
      exact getLast_trimmedPath c (htrim.symm ▸ hlast)
    rw [pathMatch_iff_of_slash hlast]
    constructor
    · rintro ⟨hslashes, htrimmed⟩
      refine ⟨fun h => ⟨hslashes h, fun hc => absurd hc hne⟩, fun _ => Or.inr ?_⟩
      by_cases hmatch : PathMatch (trimmedPath c) r
      · exact Or.inl (htrimmed hmatch)
      · exact Or.inr hmatch
    · rintro ⟨hslashes, htrimmed⟩
      refine ⟨fun h => (hslashes h).1, fun hmatch => ?_⟩
      by_cases h : trimmedPath c = ""
      · exact (hslashes h).1
      · rcases htrimmed h with heq | hbegins | hnot
        · exact absurd heq htrim
        · exact hbegins
        · exact absurd hmatch hnot

/-- A cookie for `/app/` is taken to be sent to `/app`. -/
theorem slash_dropped : pathCovers "/app/" "/app" = true ∧ ¬ PathMatch "/app/" "/app" := by
  refine ⟨by decide +kernel, ?_⟩
  rw [pathMatch_iff_of_slash (by decide)]
  decide

end Featherbit
