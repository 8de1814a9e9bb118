/-
  THE QUERY AS A VARIABLE (`query_string` of `vars/mod.rs`): what is left of the order of a query that is
  rebuilt.

  1. **The text** (`queryString_eq`) — the pairs of the map, in the order of their texts.  A request
     without a query has no such variable.
  2. **Taken apart again** (`parseQuery_resolve`) — the pieces are the texts, so the pairs come back,
     the values of each key in ascending order.
  3. **The round trip** (`queryString_kept_iff`) — the parameters come back exactly when the values of
     each key stood in ascending order in the query.
-/
import Featherbit.Context.Query
import Featherbit.Vars

namespace Featherbit

namespace Vars

/-! ## The text -/

theorem queryString_eq (ctx : Context) :
    queryString ctx = "&".intercalate (sortedTexts ctx.request.queryParams) := by
  unfold queryString sortedTexts Multimap.toPairs
  dsimp only
  rw [List.map_flatMap]
  congr 3
  funext row
  rw [List.map_map]
  rfl

/-- A text of a pair is not empty. -/
theorem joinPair_ne_empty (pair : String × String) : joinPair pair ≠ "" := by
  intro h
  have hlist := congrArg String.toList h
  unfold joinPair at hlist
  rw [String.toList_append, String.toList_append] at hlist
  simp at hlist

theorem intercalate_eq_empty {texts : List String} (htexts : ∀ text ∈ texts, text ≠ "") :
    "&".intercalate texts = "" ↔ texts = [] := by
  constructor
  · intro h
    cases texts with
    | nil => rfl
    | cons text more =>
      exfalso
      have hlist := congrArg String.toList h
      rw [String.toList_intercalate, List.map_cons] at hlist
      have htext : text.toList ≠ [] := by
        intro hnil
        exact htexts text List.mem_cons_self (String.toList_inj.mp hnil)
      cases more with
      | nil =>
        rw [List.map_nil, List.intercalate_singleton] at hlist
        exact htext hlist
      | cons next more =>
        rw [List.map_cons, List.intercalate_cons_cons, List.append_assoc] at hlist
        exact htext (List.append_eq_nil_iff.mp hlist).1
  · rintro rfl
    rfl

/-! ## Taken apart again -/

section Rebuilt

variable [CaseMapping] [JsonText]

/-- The variable of a request whose parameters were read from `query`. -/
theorem resolve_queryString {ctx : Context} {query : Option String}
    (h : ctx.request.queryParams = parseQuery query) :
    resolve ctx "query_string" = query.map fun query =>
      "&".intercalate (sortedTexts (Multimap.ofPairs (queryPieces query))) := by
  show (if queryString ctx = "" then none else some (queryString ctx)) = _
  rw [queryString_eq, h]
  cases query with
  | none =>
    rw [show parseQuery none = ∅ from rfl, sortedTexts_empty]
    rfl
  | some query =>
    have hperm := sortedTexts_perm (queryPieces query)
    have htexts : ∀ text ∈ sortedTexts (Multimap.ofPairs (queryPieces query)), text ≠ "" := by
      intro text htext
      obtain ⟨pair, -, rfl⟩ := List.mem_map.mp (hperm.mem_iff.mp htext)
      exact joinPair_ne_empty pair
    have hne := sortedTexts_ne_nil query
    show (if "&".intercalate (sortedTexts (Multimap.ofPairs (queryPieces query))) = "" then none
      else some _) = some _
    rw [if_neg fun h => hne ((intercalate_eq_empty htexts).mp h)]
    rfl

/-- The pieces of the text are the texts of the pairs. -/
theorem parseQuery_resolve {ctx : Context} {query : String}
    (h : ctx.request.queryParams = parseQuery (some query)) :
    parseQuery (resolve ctx "query_string") =
      Multimap.ofPairs ((sortedTexts (Multimap.ofPairs (queryPieces query))).map splitPair) := by
  have hperm := sortedTexts_perm (queryPieces query)
  have hne := sortedTexts_ne_nil query
  have hsep : ∀ text ∈ sortedTexts (Multimap.ofPairs (queryPieces query)), '&' ∉ text.toList := by
    intro text htext
    obtain ⟨pair, hpair, rfl⟩ := List.mem_map.mp (hperm.mem_iff.mp htext)
    exact (queryPieces_chars hpair).2
  rw [resolve_queryString h]
  show Multimap.ofPairs ((splitChar '&' ((String.singleton '&').intercalate _)).map splitPair) = _
  rw [splitChar_intercalate hne hsep]

/-- The parameters are read back exactly when the values of each key stood in ascending order. -/
theorem parseQuery_resolve_same_iff {ctx : Context} {query : String}
    (h : ctx.request.queryParams = parseQuery (some query)) :
    parseQuery (resolve ctx "query_string") = parseQuery (some query) ↔
      AscendingValues (queryPieces query) := by
  rw [parseQuery_resolve h]
  exact ofPairs_sorted_iff fun pair hpair => (queryPieces_chars hpair).1

/-! ## The round trip -/

/-- **The round trip.**  A request with the rebuilt query has the parameters of the one it was rebuilt
    from exactly when the values of each key stood in ascending order. -/
theorem queryString_kept_iff (ctx : Context) (parts : HttpParts) (body : Bytes)
    (remoteAddr : String) :
    (∀ (rebuilt : HttpParts) (sent : Bytes) (sender : String),
      rebuilt.uri.query = resolve { ctx with
        request := GatewayRequest.fromHyper parts body remoteAddr } "query_string" →
      (GatewayRequest.fromHyper rebuilt sent sender).queryParams =
        (GatewayRequest.fromHyper parts body remoteAddr).queryParams) ↔
    ∀ query, parts.uri.query = some query → AscendingValues (queryPieces query) := by
  set received : Context := { ctx with request := GatewayRequest.fromHyper parts body remoteAddr }
    with hreceived
  have hparams : received.request.queryParams = parseQuery parts.uri.query := rfl
  have hcomponent : (∀ (rebuilt : HttpParts) (sent : Bytes) (sender : String),
      rebuilt.uri.query = resolve received "query_string" →
      (GatewayRequest.fromHyper rebuilt sent sender).queryParams = parseQuery parts.uri.query) ↔
      parseQuery (resolve received "query_string") = parseQuery parts.uri.query := by
    constructor
    · intro h
      exact h { parts with uri := { parts.uri with query := resolve received "query_string" } } [] "" rfl
    · intro h rebuilt sent sender hrebuilt
      show parseQuery rebuilt.uri.query = _
      rw [hrebuilt, h]
  refine hcomponent.trans ?_
  cases hquery : parts.uri.query with
  | none =>
    rw [hquery] at hparams
    constructor
    · intro _ query h
      cases h
    · intro _
      rw [resolve_queryString hparams]
      rfl
  | some query =>
    rw [hquery] at hparams
    rw [parseQuery_resolve_same_iff hparams]
    constructor
    · rintro h query' hsome
      obtain rfl := Option.some.inj hsome
      exact h
    · intro h
      exact h query rfl

end Rebuilt

/-- Two values of one key, the larger one first, come back the other way round. -/
theorem queryString_reorders :
    let _ : CaseMapping := asciiCaseMapping
    let _ : JsonText := oneFieldText
    ¬ ∀ (parts rebuilt : HttpParts) (body : Bytes) (remoteAddr : String),
      rebuilt.uri.query = resolve (Context.new (GatewayRequest.fromHyper parts body remoteAddr))
        "query_string" →
      (GatewayRequest.fromHyper rebuilt body remoteAddr).queryParams =
        (GatewayRequest.fromHyper parts body remoteAddr).queryParams := by
  intro _ _ h
  let parts : HttpParts := {
    method := "GET"
    uri := { scheme := none, path := "/", query := some "a=2&a=1" }
    version := .http11
    headers := [] }
  let ctx := Context.new (GatewayRequest.fromHyper parts [] "10.0.0.1:50000")
  have hsent := h parts { parts with uri := { parts.uri with query := resolve ctx "query_string" } } []
    "10.0.0.1:50000" rfl
  have hascending := (parseQuery_resolve_same_iff (show ctx.request.queryParams = _ from rfl)).mp hsent
  have hvalues := hascending "a"
  revert hvalues
  decide +kernel

end Vars

end Featherbit
