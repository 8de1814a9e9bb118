/-
  THE COMPONENTS OF AN ABSOLUTE URI, as a library (the generic syntax
  `scheme://authority path ? query # fragment`).

  An authority ends at the first `/`, `?` or `#`, a path at the first `?` or `#`, a query at the
  first `#`.  A caller that builds a URI by concatenation gets back the parts it put in exactly
  when none of them holds a delimiter of its own (`takeWhile_append_eq_iff` for the authority,
  `pathOf_eq_iff` for the path).
-/
import Mathlib.Data.List.TakeWhile

namespace UriRef

/-- Ends an authority. -/
def endsAuthority (c : Char) : Bool := c = '/' || c = '?' || c = '#'

/-- Ends a path. -/
def endsPath (c : Char) : Bool := c = '?' || c = '#'

/-- The path of what follows the authority. -/
def pathOf (rest : List Char) : List Char := rest.takeWhile fun c => !endsPath c

/-- The query of what follows the authority, if there is one. -/
def queryOf (rest : List Char) : Option (List Char) :=
  match rest.dropWhile fun c => !endsPath c with
  | '?' :: query => some (query.takeWhile fun c => c ≠ '#')
  | _ => none

/-- The components of a URI, its fragment apart. -/
structure Parts where
  scheme : List Char
  authority : List Char
  path : List Char
  query : Option (List Char)
deriving DecidableEq

/-- What lies after `://`, taken apart. -/
def ofHier (scheme hier : List Char) : Parts where
  scheme := scheme
  authority := hier.takeWhile fun c => !endsAuthority c
  path := pathOf (hier.dropWhile fun c => !endsAuthority c)
  query := queryOf (hier.dropWhile fun c => !endsAuthority c)

def parse (uri : List Char) : Option Parts :=
  match uri.dropWhile fun c => c ≠ ':' with
  | ':' :: '/' :: '/' :: hier => some (ofHier (uri.takeWhile fun c => c ≠ ':') hier)
  | _ => none

variable {scheme auth rest : List Char}

theorem parse_append (hscheme : ':' ∉ scheme) (hier : List Char) :
    parse (scheme ++ ':' :: '/' :: '/' :: hier) = some (ofHier scheme hier) := by
  have hall : ∀ c ∈ scheme, decide (c ≠ ':') = true := by
    intro c hc
    exact decide_eq_true fun h => hscheme (h ▸ hc)
  rw [parse, List.dropWhile_append_of_pos hall, List.takeWhile_append_of_pos hall]
  simp

/-- A prefix is what is taken off iff it holds no delimiter and one follows it, or nothing. -/
theorem takeWhile_append_eq_iff {α : Type*} {p : α → Bool} {x y : List α} :
    (x ++ y).takeWhile p = x ↔ (∀ a ∈ x, p a = true) ∧ ∀ a, y.head? = some a → p a = false := by
  constructor
  · intro h
    have hx : ∀ a ∈ x, p a = true := by
      intro a ha
      rw [← h] at ha
      exact List.mem_takeWhile_imp ha
    refine ⟨hx, fun a ha => ?_⟩
    rw [List.takeWhile_append_of_pos hx] at h
    obtain ⟨y', rfl⟩ := List.head?_eq_some_iff.mp ha
    cases hpa : p a with
    | false => rfl
    | true =>
      rw [List.takeWhile_cons_of_pos hpa] at h
      simp at h
  · rintro ⟨hx, hy⟩
    rw [List.takeWhile_append_of_pos hx]
    cases y with
    | nil => simp
    | cons a y =>
      rw [List.takeWhile_cons_of_neg (by rw [hy a rfl]; exact Bool.false_ne_true), List.append_nil]

theorem dropWhile_append_of_takeWhile {α : Type*} {p : α → Bool} {x y : List α}
    (h : (x ++ y).takeWhile p = x) : (x ++ y).dropWhile p = y := by
  have hsplit := List.takeWhile_append_dropWhile (p := p) (l := x ++ y)
  rw [h] at hsplit
  exact List.append_cancel_left hsplit

/-- A path is read back whole iff it holds no delimiter. -/
theorem pathOf_eq_iff : pathOf rest = rest ↔ ∀ c ∈ rest, endsPath c = false := by
  rw [pathOf, List.takeWhile_eq_self_iff]
  simp

theorem queryOf_eq_none (h : ∀ c ∈ rest, endsPath c = false) : queryOf rest = none := by
  have hdrop : (rest.dropWhile fun c => !endsPath c) = [] :=
    List.dropWhile_eq_nil_iff.mpr fun c hc => by rw [h c hc]; rfl
  rw [queryOf, hdrop]

end UriRef
