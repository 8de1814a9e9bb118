/-
  THE QUERY A FUNCTION IS CALLED WITH: the parameters of the request, encoded, in the order of their
  encoded names and values.

  1. **What is said** (`canonicalForm`) — a list of pairs of bytes, encoded and sorted.  Two lists have one
     form exactly when each is the other in another order (`canonicalForm_eq_iff`).
  2. **What is sent** (`sortedQuery_eq`) — the gateway encodes the pieces of the query as they came, so
     the form is that of the pieces before they are decoded.
  3. **Encoded twice** (`undecoded_perm_iff`) — the pieces are what the query says exactly when nothing in
     them is encoded, for decoding takes weight off what is.
-/
import Featherbit.Plugins.OidcAuthorize
import Featherbit.Vars.QueryString

namespace Featherbit

namespace Vars

open OpenidConnect (isUnreserved)

/-! ## What is said -/

/-- A pair of bytes, each percent-encoded. -/
def encodeBytes (pair : Bytes × Bytes) : String × String :=
  (percentBytes isUnreserved pair.1, percentBytes isUnreserved pair.2)

/-- The order of `Vec<(String, String)>::sort`. -/
def pairLe (a b : String × String) : Bool := toLex a ≤ toLex b

/-- `pairs.sort()`, and the texts `key=value` joined by `&`. -/
def joinSorted (pairs : List (String × String)) : String :=
  "&".intercalate ((pairs.mergeSort pairLe).map joinPair)

/-- The sorted form of what a query says. -/
def canonicalForm (pairs : List (Bytes × Bytes)) : String := joinSorted (pairs.map encodeBytes)

theorem pairLe_trans (a b c : String × String) (hab : pairLe a b = true) (hbc : pairLe b c = true) :
    pairLe a c = true :=
  decide_eq_true (le_trans (of_decide_eq_true hab) (of_decide_eq_true hbc))

theorem pairLe_total (a b : String × String) : (pairLe a b || pairLe b a) = true := by
  unfold pairLe
  rw [Bool.or_eq_true, decide_eq_true_iff, decide_eq_true_iff]
  exact le_total _ _

theorem pairLe_antisymm {a b : String × String} (hab : pairLe a b = true) (hba : pairLe b a = true) :
    a = b :=
  toLex.injective (le_antisymm (of_decide_eq_true hab) (of_decide_eq_true hba))

/-- What is sorted has no order of its own. -/
theorem joinSorted_perm {pairs pairs' : List (String × String)} (h : pairs.Perm pairs') :
    joinSorted pairs = joinSorted pairs' := by
  have hsorted := fun l => List.pairwise_mergeSort pairLe_trans pairLe_total l
  have hperm : (pairs.mergeSort pairLe).Perm (pairs'.mergeSort pairLe) :=
    (List.mergeSort_perm _ _).trans (h.trans (List.mergeSort_perm _ _).symm)
  have heq : pairs.mergeSort pairLe = pairs'.mergeSort pairLe :=
    hperm.eq_of_pairwise (fun a b _ _ hab hba => pairLe_antisymm hab hba) (hsorted pairs) (hsorted pairs')
  unfold joinSorted
  rw [heq]

/-! ## Reading it back -/

theorem percentBytes_chars (bytes : Bytes) :
    ∀ c ∈ (percentBytes isUnreserved bytes).toList, c ≠ '&' ∧ c ≠ '=' ∧ c ≠ '#' ∧ c ≠ '?' := by
  intro c hc
  have hchars : (percentBytes isUnreserved bytes).toList = bytes.flatMap OpenidConnect.formEncodeByte :=
    String.toList_ofList
  rw [hchars] at hc
  obtain ⟨b, -, hc⟩ := List.mem_flatMap.mp hc
  exact OpenidConnect.formEncodeByte_chars b c hc

theorem joinPair_encodeBytes_chars (pair : Bytes × Bytes) :
    ∀ c ∈ (joinPair (encodeBytes pair)).toList, c ≠ '&' ∧ c ≠ '#' ∧ c ≠ '?' := by
  intro c hc
  unfold joinPair encodeBytes at hc
  rw [String.toList_append, String.toList_append] at hc
  rcases List.mem_append.mp hc with hc | hc
  · rcases List.mem_append.mp hc with hc | hc
    · have hplain := percentBytes_chars _ c hc
      exact ⟨hplain.1, hplain.2.2⟩
    · rw [List.mem_singleton.mp hc]
      decide
  · have hplain := percentBytes_chars _ c hc
    exact ⟨hplain.1, hplain.2.2⟩

theorem urldecodeBytes_unreserved (bytes : Bytes) :
    urldecodeBytes (asBytes (percentBytes isUnreserved bytes)) = bytes :=
  urldecodeBytes_percentBytes (fun _ hb => OpenidConnect.isUnreserved_kept hb) bytes

theorem decodePair_encodeBytes (pair : Bytes × Bytes) : decodePair (encodeBytes pair) = pair := by
  unfold decodePair encodeBytes
  rw [urldecodeBytes_unreserved, urldecodeBytes_unreserved]

section Form

variable {pairs pairs' : List (Bytes × Bytes)}

/-- A sorted list of encoded pairs is one. -/
theorem mem_sorted {pair : String × String} (h : pair ∈ (pairs.map encodeBytes).mergeSort pairLe) :
    ∃ source ∈ pairs, pair = encodeBytes source := by
  obtain ⟨source, hsource, rfl⟩ := List.mem_map.mp ((List.mergeSort_perm _ _).mem_iff.mp h)
  exact ⟨source, hsource, rfl⟩

/-- The form says what it was made of. -/
theorem decodedPairs_canonicalForm (hne : pairs ≠ []) : (decodedPairs (canonicalForm pairs)).Perm pairs := by
  have hperm := List.mergeSort_perm (pairs.map encodeBytes) pairLe
  have hpieces : queryPieces (canonicalForm pairs) = (pairs.map encodeBytes).mergeSort pairLe := by
    apply queryPieces_joined
    · intro hnil
      rw [hnil] at hperm
      exact hne (List.map_eq_nil_iff.mp hperm.nil_eq.symm)
    · intro pair hpair
      obtain ⟨source, -, rfl⟩ := mem_sorted hpair
      exact ⟨fun h => (percentBytes_chars _ _ h).2.1 rfl, fun h => (joinPair_encodeBytes_chars _ _ h).1 rfl⟩
  have hback := hperm.map decodePair
  rw [List.map_map] at hback
  have hid : pairs.map (decodePair ∘ encodeBytes) = pairs := by
    conv_rhs => rw [← List.map_id pairs]
    exact List.map_congr_left fun pair _ => decodePair_encodeBytes pair
  rw [hid] at hback
  unfold decodedPairs
  rw [hpieces]
  exact hback

/-- **What is said.**  Two lists have one form exactly when each is the other in another order. -/
theorem canonicalForm_eq_iff (hne : pairs ≠ []) (hne' : pairs' ≠ []) :
    canonicalForm pairs = canonicalForm pairs' ↔ pairs.Perm pairs' := by
  constructor
  · intro heq
    have hback := decodedPairs_canonicalForm hne
    rw [heq] at hback
    exact hback.symm.trans (decodedPairs_canonicalForm hne')
  · intro hperm
    exact joinSorted_perm (hperm.map encodeBytes)

theorem canonicalForm_chars (pairs : List (Bytes × Bytes)) : '#' ∉ (canonicalForm pairs).toList := by
  unfold canonicalForm joinSorted
  rw [String.toList_intercalate]
  intro h
  rcases Split.mem_intercalate h with h | ⟨l, hl, h⟩
  · exact absurd h (by decide)
  · obtain ⟨text, htext, rfl⟩ := List.mem_map.mp hl
    obtain ⟨pair, hpair, rfl⟩ := List.mem_map.mp htext
    obtain ⟨source, -, rfl⟩ := mem_sorted hpair
    exact (joinPair_encodeBytes_chars source '#' h).2.1 rfl

theorem canonicalForm_ne_empty (hne : pairs ≠ []) : canonicalForm pairs ≠ "" := by
  intro hempty
  have hperm := List.mergeSort_perm (pairs.map encodeBytes) pairLe
  unfold canonicalForm joinSorted at hempty
  have hnil := (intercalate_eq_empty fun text htext => by
    obtain ⟨pair, -, rfl⟩ := List.mem_map.mp htext
    exact joinPair_ne_empty pair).mp hempty
  rw [List.map_eq_nil_iff.mp hnil] at hperm
  exact hne (List.map_eq_nil_iff.mp hperm.nil_eq.symm)

end Form

/-! ## What is sent -/

/-- `uri_encode`. -/
def uriEncode (s : String) : String := percentText isUnreserved s

/-- The parameters of a request, each name and value encoded as it stands, sorted and joined. -/
def sortedQuery (queryParams : HashMap (List String)) : String :=
  joinSorted (queryParams.toList.flatMap fun (name, values) =>
    values.map fun value => (uriEncode name, uriEncode value))

theorem sortedQuery_eq_form (queryParams : HashMap (List String)) :
    sortedQuery queryParams = canonicalForm ((Multimap.toPairs queryParams).map pairBytes) := by
  have hpairs : (queryParams.toList.flatMap fun (name, values) =>
      values.map fun value => (uriEncode name, uriEncode value)) =
      ((Multimap.toPairs queryParams).map pairBytes).map encodeBytes := by
    unfold Multimap.toPairs
    rw [List.map_map, List.map_flatMap]
    congr 1
    funext row
    rw [List.map_map]
    rfl
  unfold sortedQuery canonicalForm
  rw [hpairs]

theorem sortedQuery_empty : sortedQuery ∅ = "" := by
  unfold sortedQuery joinSorted
  rw [show (∅ : HashMap (List String)).toList = [] from rfl, List.flatMap_nil, List.mergeSort_nil]
  rfl

/-- The pieces of a query, before they are decoded. -/
def undecodedPairs (query : String) : List (Bytes × Bytes) := (queryPieces query).map pairBytes

theorem undecodedPairs_ne_nil (query : String) : undecodedPairs query ≠ [] :=
  fun h => queryPieces_ne_nil query (List.map_eq_nil_iff.mp h)

theorem decodedPairs_ne_nil (query : String) : decodedPairs query ≠ [] :=
  fun h => queryPieces_ne_nil query (List.map_eq_nil_iff.mp h)

/-- **What is sent.**  The form of the pieces before they are decoded. -/
theorem sortedQuery_eq (query : String) :
    sortedQuery (Multimap.ofPairs (queryPieces query)) = canonicalForm (undecodedPairs query) := by
  rw [sortedQuery_eq_form]
  exact joinSorted_perm (((Multimap.toPairs_ofPairs_perm _).map pairBytes).map encodeBytes)

/-! ## Encoded twice -/

/-- Nothing in a name or a value of the query is encoded: no `+`, and no `%` before two hexadecimal
    digits. -/
def Unescaped (query : String) : Prop :=
  ∀ pair ∈ queryPieces query,
    hasEscape (asBytes pair.1) = false ∧ hasEscape (asBytes pair.2) = false

instance (query : String) : Decidable (Unescaped query) :=
  inferInstanceAs (Decidable (∀ pair ∈ queryPieces query, _))

/-- A pair of bytes, decoded. -/
def decodeBytes (pair : Bytes × Bytes) : Bytes × Bytes := (urldecodeBytes pair.1, urldecodeBytes pair.2)

theorem decodedPairs_eq (query : String) : decodedPairs query = (undecodedPairs query).map decodeBytes := by
  unfold decodedPairs undecodedPairs
  rw [List.map_map]
  rfl

def pairWeight (pair : Bytes × Bytes) : Nat := weight pair.1 + weight pair.2

theorem pairWeight_decodeBytes_le (pair : Bytes × Bytes) : pairWeight (decodeBytes pair) ≤ pairWeight pair :=
  Nat.add_le_add (weight_urldecodeBytes pair.1).1 (weight_urldecodeBytes pair.2).1

/-- **Encoded twice.**  The pieces are what the query says exactly when nothing in them is encoded. -/
theorem undecoded_perm_iff (query : String) :
    (undecodedPairs query).Perm (decodedPairs query) ↔ Unescaped query := by
  rw [decodedPairs_eq]
  constructor
  · intro hperm pair hpair
    have hsize := Multimap.size_eq_of_map_perm' pairWeight pairWeight_decodeBytes_le hperm.symm
      (pairBytes pair) (List.mem_map_of_mem hpair)
    -- neither half has become lighter
    have hfirst := weight_urldecodeBytes (asBytes pair.1)
    have hsecond := weight_urldecodeBytes (asBytes pair.2)
    have hsum : weight (urldecodeBytes (asBytes pair.1)) + weight (urldecodeBytes (asBytes pair.2)) =
        weight (asBytes pair.1) + weight (asBytes pair.2) := hsize
    constructor
    · refine Bool.eq_false_iff.mpr fun hescape => ?_
      have hlt := hfirst.2 hescape
      omega
    · refine Bool.eq_false_iff.mpr fun hescape => ?_
      have hlt := hsecond.2 hescape
      omega
  · intro hplain
    have hid : (undecodedPairs query).map decodeBytes = undecodedPairs query := by
      conv_rhs => rw [← List.map_id (undecodedPairs query)]
      apply List.map_congr_left
      intro bytes hbytes
      obtain ⟨pair, hpair, rfl⟩ := List.mem_map.mp hbytes
      obtain ⟨hfirst, hsecond⟩ := hplain pair hpair
      exact Prod.ext ((urldecodeBytes_eq_self_iff _).mpr hfirst) ((urldecodeBytes_eq_self_iff _).mpr hsecond)
    rw [hid]

/-- The form that is sent is that of what the query says exactly when nothing is encoded. -/
theorem sortedQuery_canonical_iff (query : String) :
    sortedQuery (Multimap.ofPairs (queryPieces query)) = canonicalForm (decodedPairs query) ↔
      Unescaped query := by
  rw [sortedQuery_eq, canonicalForm_eq_iff (undecodedPairs_ne_nil query) (decodedPairs_ne_nil query)]
  exact undecoded_perm_iff query

/-- And so is what the form says. -/
theorem decodedPairs_sortedQuery_iff (query : String) :
    (decodedPairs (sortedQuery (Multimap.ofPairs (queryPieces query)))).Perm (decodedPairs query) ↔
      Unescaped query := by
  have hback := decodedPairs_canonicalForm (undecodedPairs_ne_nil query)
  rw [sortedQuery_eq, ← undecoded_perm_iff]
  exact ⟨hback.symm.trans, hback.trans⟩

end Vars

end Featherbit
