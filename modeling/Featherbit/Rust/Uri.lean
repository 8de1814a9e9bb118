/-
  AN ABSOLUTE URI OF THE CONFIGURATION (`http::Uri`).  How a text is parsed is a parameter; of the
  components it is documented that a `?` ends what is before the query, and a `#` what is kept at all.
-/
import Featherbit.Rust.Std

namespace Featherbit

/-- Neither a `?` nor a `#`. -/
def BeforeQuery (s : String) : Prop := '?' ∉ s.toList ∧ '#' ∉ s.toList

instance (s : String) : Decidable (BeforeQuery s) :=
  inferInstanceAs (Decidable ('?' ∉ s.toList ∧ '#' ∉ s.toList))

/-- `http::Uri`. -/
structure Uri where
  scheme : Option String
  authority : Option String
  path : String
  query : Option String
  scheme_plain : ∀ s ∈ scheme, BeforeQuery s
  authority_plain : ∀ s ∈ authority, BeforeQuery s
  path_plain : BeforeQuery path

/-- `str::parse::<http::Uri>`, with the text of its error. -/
class UriParser where
  parseUri : String → Except String Uri

export UriParser (parseUri)

theorem BeforeQuery.append {s t : String} (hs : BeforeQuery s) (ht : BeforeQuery t) :
    BeforeQuery (s ++ t) := by
  unfold BeforeQuery
  rw [String.toList_append, List.mem_append, List.mem_append]
  exact ⟨fun h => h.elim hs.1 ht.1, fun h => h.elim hs.2 ht.2⟩

end Featherbit
