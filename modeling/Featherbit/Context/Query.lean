/-
  A QUERY TAKEN APART AND WRITTEN AGAIN.

  The gateway keeps a query as a map from each key to its values, and writes it again as the texts
  `key=value` in the order of those texts.

  1. **The pieces** (`splitPair_joinPair`) — a key holds no `=`, so a pair is read back from its text.
  2. **The order** (`valuesOf_sorted`) — texts behind one key are in the order of their values, so a
     sorted list brings the values of a key in ascending order.
  3. **Written again** (`ofPairs_sorted_iff`) — the map comes back exactly when its values were in
     ascending order from the start.
  4. **In a reference** (`HttpUri.ofReference_query`) — behind a path without a delimiter, the query
     is what was written there.
-/
import Featherbit.Context.FromHyper

namespace Featherbit

/-- `format!("{k}={v}")`. -/
def joinPair (pair : String × String) : String := pair.1 ++ "=" ++ pair.2

/-- The pieces of a query, as pairs. -/
def queryPieces (query : String) : List (String × String) := (splitChar '&' query).map splitPair

/-- The values of every key stand in ascending order. -/
def AscendingValues (pairs : List (String × String)) : Prop :=
  ∀ key, (Multimap.valuesOf key pairs).Pairwise (· ≤ ·)

/-! ## The pieces -/

theorem splitPair_joinPair {pair : String × String} (hkey : '=' ∉ pair.1.toList) :
    splitPair (joinPair pair) = pair := by
  unfold splitPair joinPair
  rw [show "=" = String.singleton '=' from rfl, splitOnceChar_append hkey]
  rfl

/-- A piece is the text of its pair, or a key alone. -/
theorem splitPair_cases (piece : String) :
    ('=' ∉ (splitPair piece).1.toList) ∧
      (piece = joinPair (splitPair piece) ∨ splitPair piece = (piece, "")) := by
  unfold splitPair
  cases hsplit : splitOnceChar '=' piece with
  | none =>
    refine ⟨fun hmem => ?_, Or.inr rfl⟩
    obtain ⟨a, b, hfound⟩ := exists_splitOnceChar hmem
    rw [Option.getD_none, hsplit] at hfound
    cases hfound
  | some pair =>
    obtain ⟨⟨x, y⟩, hlist, rfl⟩ := Option.map_eq_some_iff.mp hsplit
    refine ⟨?_, Or.inl ?_⟩
    · show '=' ∉ (String.ofList x).toList
      rw [String.toList_ofList]
      exact Split.not_mem_of_splitOnce hlist
    · exact eq_of_splitOnceChar hsplit

/-- No piece of a query holds the separator, in its key or in its value. -/
theorem queryPieces_chars {query : String} {pair : String × String} (h : pair ∈ queryPieces query) :
    '=' ∉ pair.1.toList ∧ '&' ∉ (joinPair pair).toList := by
  obtain ⟨piece, hpiece, rfl⟩ := List.mem_map.mp h
  have hsep := not_mem_of_mem_splitChar hpiece
  obtain ⟨hkey, hjoined | halone⟩ := splitPair_cases piece
  · exact ⟨hkey, hjoined ▸ hsep⟩
  · refine ⟨hkey, ?_⟩
    rw [halone, joinPair, String.toList_append, String.toList_append]
    intro hmem
    rcases List.mem_append.mp hmem with hmem | hmem
    · rcases List.mem_append.mp hmem with hmem | hmem
      · exact hsep hmem
      · exact absurd hmem (by decide)
    · exact absurd (show '&' ∈ "".toList from hmem) (by decide)

/-- A piece has the characters of the query, and at most the `=` that a key alone lacks. -/
theorem mem_joinPair {query : String} {pair : String × String} (h : pair ∈ queryPieces query) {c : Char}
    (hc : c ∈ (joinPair pair).toList) : c = '=' ∨ c ∈ query.toList := by
  obtain ⟨piece, hpiece, rfl⟩ := List.mem_map.mp h
  have hsub : ∀ c ∈ piece.toList, c ∈ query.toList := by
    intro c hc
    rw [← intercalate_splitChar '&' query, String.toList_intercalate]
    exact Split.mem_intercalate_of_mem (List.mem_map_of_mem hpiece) hc
  rcases (splitPair_cases piece).2 with hjoined | halone
  · rw [← hjoined] at hc
    exact Or.inr (hsub c hc)
  · rw [halone, joinPair, String.toList_append, String.toList_append] at hc
    rcases List.mem_append.mp hc with hc | hc
    · rcases List.mem_append.mp hc with hc | hc
      · exact Or.inr (hsub c hc)
      · exact Or.inl (List.mem_singleton.mp hc)
    · nomatch (show c ∈ ([] : List Char) from hc)

theorem queryPieces_ne_nil (query : String) : queryPieces query ≠ [] := by
  intro hnil
  exact splitChar_ne_nil '&' query (List.map_eq_nil_iff.mp hnil)

/-- A query has one piece more than it has separators. -/
theorem length_queryPieces (query : String) :
    (queryPieces query).length = query.toList.count '&' + 1 := by
  unfold queryPieces splitChar
  rw [List.length_map, List.length_map]
  induction query.toList with
  | nil => rfl
  | cons c l ih =>
    unfold List.splitOn at ih ⊢
    rw [List.splitOnP_cons_eq_if_modifyHead, List.count_cons]
    split
    · rw [List.length_cons, ih]
    · rw [List.length_modifyHead, ih]

/-! ## The order of the texts -/

theorem pairwise_sorted (texts : List String) :
    (texts.mergeSort fun a b => decide (a ≤ b)).Pairwise (· ≤ ·) := by
  have htrans : ∀ a b c : String, decide (a ≤ b) = true → decide (b ≤ c) = true →
      decide (a ≤ c) = true :=
    fun a b c hab hbc => decide_eq_true (le_trans (of_decide_eq_true hab) (of_decide_eq_true hbc))
  have htotal : ∀ a b : String, (decide (a ≤ b) || decide (b ≤ a)) = true := by
    intro a b
    rw [Bool.or_eq_true, decide_eq_true_iff, decide_eq_true_iff]
    exact le_total a b
  exact (List.pairwise_mergeSort htrans htotal texts).imp fun h => of_decide_eq_true h

/-- Texts behind the same key are in the order of their values. -/
theorem le_of_keyed {key a b : String} (h : key ++ "=" ++ a ≤ key ++ "=" ++ b) : a ≤ b := by
  by_contra hlt
  have hlist : b.toList < a.toList := String.lt_iff_toList_lt.mp (not_le.mp hlt)
  have hkeyed : (key ++ "=" ++ b).toList < (key ++ "=" ++ a).toList := by
    rw [String.toList_append, String.toList_append (s := key ++ "=")]
    exact List.append_left_lt hlist
  exact absurd h (not_le.mpr (String.lt_iff_toList_lt.mpr hkeyed))

theorem valuesOf_sorted {pairs : List (String × String)}
    (h : (pairs.map joinPair).Pairwise (· ≤ ·)) (key : String) :
    (Multimap.valuesOf key pairs).Pairwise (· ≤ ·) := by
  unfold Multimap.valuesOf
  rw [List.pairwise_map]
  rw [List.pairwise_map] at h
  apply (h.filter fun pair => decide (pair.1 = key)).imp_of_mem
  intro pair pair' hpair hpair' hle
  have hkey := of_decide_eq_true (List.mem_filter.mp hpair).2
  have hkey' := of_decide_eq_true (List.mem_filter.mp hpair').2
  unfold joinPair at hle
  rw [hkey, hkey'] at hle
  exact le_of_keyed hle

/-! ## Written again -/

section Written

variable {pairs : List (String × String)}

/-- The texts of the pairs of a map, in order. -/
def sortedTexts (queryParams : HashMap (List String)) : List String :=
  ((Multimap.toPairs queryParams).map joinPair).mergeSort fun a b => decide (a ≤ b)

theorem sortedTexts_perm (pairs : List (String × String)) :
    (sortedTexts (Multimap.ofPairs pairs)).Perm (pairs.map joinPair) :=
  (List.mergeSort_perm _ _).trans ((Multimap.toPairs_ofPairs_perm pairs).map joinPair)

theorem sortedTexts_empty : sortedTexts ∅ = [] := by
  unfold sortedTexts
  rw [show Multimap.toPairs (∅ : HashMap (List String)) = [] from rfl, List.map_nil, List.mergeSort_nil]

/-- A query has a piece. -/
theorem sortedTexts_ne_nil (query : String) : sortedTexts (Multimap.ofPairs (queryPieces query)) ≠ [] := by
  intro hnil
  have hperm := sortedTexts_perm (queryPieces query)
  rw [hnil] at hperm
  exact queryPieces_ne_nil query (List.map_eq_nil_iff.mp hperm.nil_eq.symm)

/-- The texts joined have the characters of the query, and the separators. -/
theorem mem_sortedTexts {query : String} {c : Char}
    (hc : c ∈ ("&".intercalate (sortedTexts (Multimap.ofPairs (queryPieces query)))).toList) :
    c = '&' ∨ c = '=' ∨ c ∈ query.toList := by
  rw [String.toList_intercalate] at hc
  rcases Split.mem_intercalate hc with hsep | ⟨l, hl, hmem⟩
  · exact Or.inl hsep
  · obtain ⟨text, htext, rfl⟩ := List.mem_map.mp hl
    obtain ⟨pair, hpair, rfl⟩ := List.mem_map.mp ((sortedTexts_perm _).mem_iff.mp htext)
    exact Or.inr (mem_joinPair hpair hmem)

/-- What is read back of the texts is the pairs, in another order. -/
theorem map_splitPair_sortedTexts (hkeys : ∀ pair ∈ pairs, '=' ∉ pair.1.toList) :
    ((sortedTexts (Multimap.ofPairs pairs)).map splitPair).Perm pairs := by
  have hperm := (sortedTexts_perm pairs).map splitPair
  rw [List.map_map] at hperm
  have hid : pairs.map (splitPair ∘ joinPair) = pairs := by
    conv_rhs => rw [← List.map_id pairs]
    exact List.map_congr_left fun pair hpair => splitPair_joinPair (hkeys pair hpair)
  rwa [hid] at hperm

/-- The values of a key are read back in ascending order. -/
theorem ascending_sortedTexts (hkeys : ∀ pair ∈ pairs, '=' ∉ pair.1.toList) :
    AscendingValues ((sortedTexts (Multimap.ofPairs pairs)).map splitPair) := by
  apply valuesOf_sorted
  have hback : ((sortedTexts (Multimap.ofPairs pairs)).map splitPair).map joinPair =
      sortedTexts (Multimap.ofPairs pairs) := by
    rw [List.map_map]
    conv_rhs => rw [← List.map_id (sortedTexts (Multimap.ofPairs pairs))]
    apply List.map_congr_left
    intro text htext
    obtain ⟨pair, hpair, rfl⟩ := List.mem_map.mp ((sortedTexts_perm pairs).mem_iff.mp htext)
    show joinPair (splitPair (joinPair pair)) = joinPair pair
    rw [splitPair_joinPair (hkeys pair hpair)]
  rw [hback]
  exact pairwise_sorted _

/-- The map comes back from its sorted texts exactly when the values of its keys were in ascending
    order. -/
theorem ofPairs_sorted_iff (hkeys : ∀ pair ∈ pairs, '=' ∉ pair.1.toList) :
    Multimap.ofPairs ((sortedTexts (Multimap.ofPairs pairs)).map splitPair) = Multimap.ofPairs pairs ↔
      AscendingValues pairs := by
  have hsorted := ascending_sortedTexts hkeys
  rw [Multimap.ofPairs_eq_iff]
  constructor
  · intro hsame key
    rw [← hsame]
    exact hsorted key
  · intro hascending key
    have hperm : (Multimap.valuesOf key _).Perm (Multimap.valuesOf key pairs) :=
      Multimap.valuesOf_perm (map_splitPair_sortedTexts hkeys)
    exact hperm.eq_of_pairwise (fun a b _ _ hab hba => le_antisymm hab hba) (hsorted key)
      (hascending key)

end Written

/-! ## The query of a reference -/

/-- The target a reference is requested with: the path and the query before the fragment. -/
def HttpUri.ofReference (reference : String) : HttpUri :=
  match splitOnceChar '?' (splitFirst '#' reference) with
  | some (path, query) => { scheme := none, path := path, query := some query }
  | none => { scheme := none, path := splitFirst '#' reference, query := none }

theorem HttpUri.ofReference_path {path : String} (hquery : '?' ∉ path.toList) (hfragment : '#' ∉ path.toList) :
    HttpUri.ofReference path = { scheme := none, path := path, query := none } := by
  unfold HttpUri.ofReference
  rw [splitFirst_eq_self hfragment, splitOnceChar_eq_none hquery]

theorem HttpUri.ofReference_query {path query : String} (hquery : '?' ∉ path.toList)
    (hfragment : '#' ∉ path.toList) (hsent : '#' ∉ query.toList) :
    HttpUri.ofReference (path ++ "?" ++ query) =
      { scheme := none, path := path, query := some query } := by
  have hall : '#' ∉ (path ++ "?" ++ query).toList := by
    rw [String.toList_append, String.toList_append, List.mem_append, List.mem_append]
    rintro ((h | h) | h)
    · exact hfragment h
    · exact absurd h (by decide)
    · exact hsent h
  unfold HttpUri.ofReference
  rw [splitFirst_eq_self hall, show "?" = String.singleton '?' from rfl, splitOnceChar_append hquery]

end Featherbit
