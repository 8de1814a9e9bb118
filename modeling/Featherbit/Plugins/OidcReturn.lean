/-
  BACK TO WHERE THE USER WAS (`request_uri` and the redirect of `handle_callback`,
  `plugins/native/openid_connect.rs`).

  1. **The reference** a login ends with is the path and the query of the request that began it, the
     query encoded and sorted pair by pair.

  2. **What is read back of it** (`splitPairs_same_iff`) — the pairs are found again, but encoded and in
     the order of their texts.  No text gets shorter by encoding, so parameters that are the same again
     had nothing to encode.

  3. **Of a login** (`login_returns_iff`) — over the two executions of the node, the one that seals the flow
     state and the one that opens it.
-/
import Featherbit.Context.Query
import Featherbit.Plugins.OidcLogin

namespace Featherbit

/-! ## A reference as a request target -/

/-- What `http::Uri` promises of its components: `?` ends the path, and `#` what is sent. -/
structure HttpUri.Parsed (uri : HttpUri) : Prop where
  path : '?' ∉ uri.path.toList ∧ '#' ∉ uri.path.toList
  query : ∀ query, uri.query = some query → '#' ∉ query.toList

/-- An absolute path on the same host: two slashes would name another one, and a client reads a
    backslash as a slash. -/
def isAbsolutePath (reference : String) : Bool :=
  match reference.toList with
  | c :: rest => c = '/' && rest.head?.all fun next => next ≠ '/' && next ≠ '\\'
  | [] => false

namespace OpenidConnect

/-- The bytes `form_encode` keeps. -/
def Unreserved (s : String) : Prop := ∀ b ∈ asBytes s, isUnreserved b = true

/-- Parameters that come through the reference as they are: texts `form_encode` keeps, and the values of
    each key in ascending order. -/
def ComesBack (queryParams : HashMap (List String)) : Prop :=
  ∀ key values, queryParams[key]? = some values →
    Unreserved key ∧ (∀ v ∈ values, Unreserved v) ∧ values.Pairwise (· ≤ ·)

/-- The reference leads to the request: it names no other host, and what it requests has its path and its
    parameters. -/
def LeadsTo (location : String) (original : GatewayRequest) : Prop :=
  isAbsolutePath location = true ∧ ∀ (parts : HttpParts) (body : Bytes) (remoteAddr : String),
    parts.uri = HttpUri.ofReference location →
      (GatewayRequest.fromHyper parts body remoteAddr).path = original.path ∧
      (GatewayRequest.fromHyper parts body remoteAddr).queryParams = original.queryParams

/-! ## Encoded texts -/

theorem formEncodeByte_size (b : UInt8) :
    (formEncodeByte b).length = if isUnreserved b = true then 1 else 3 := by
  unfold formEncodeByte
  split
  · rfl
  · rfl

/-- The characters of an encoded byte: none that separates. -/
theorem formEncodeByte_chars (b : UInt8) :
    ∀ c ∈ formEncodeByte b, c ≠ '&' ∧ c ≠ '=' ∧ c ≠ '#' ∧ c ≠ '?' := by
  have hplain : ∀ n < 256, isUnreserved (UInt8.ofNat n) = true →
      Char.ofNat n ≠ '&' ∧ Char.ofNat n ≠ '=' ∧ Char.ofNat n ≠ '#' ∧ Char.ofNat n ≠ '?' := by
    decide +kernel
  have hdigit : ∀ n < 16, upperHexDigit n ≠ '&' ∧ upperHexDigit n ≠ '=' ∧ upperHexDigit n ≠ '#' ∧
      upperHexDigit n ≠ '?' := by
    decide
  have hb := b.toNat_lt
  unfold formEncodeByte
  split
  · rename_i hunreserved
    intro c hc
    rw [List.mem_singleton.mp hc]
    exact hplain b.toNat hb (by rwa [UInt8.ofNat_toNat])
  · intro c hc
    rcases List.mem_cons.mp hc with rfl | hc
    · decide
    · rcases List.mem_cons.mp hc with rfl | hc
      · exact hdigit _ (by omega)
      · rw [List.mem_singleton.mp hc]
        exact hdigit _ (by omega)

theorem formEncode_chars (s : String) :
    ∀ c ∈ (formEncode s).toList, c ≠ '&' ∧ c ≠ '=' ∧ c ≠ '#' ∧ c ≠ '?' := by
  intro c hc
  unfold formEncode at hc
  rw [String.toList_ofList] at hc
  obtain ⟨b, -, hc⟩ := List.mem_flatMap.mp hc
  exact formEncodeByte_chars b c hc

theorem isUnreserved_ascii {b : UInt8} (h : isUnreserved b = true) : b.toNat < 128 := by
  have hall : ∀ n < 256, isUnreserved (UInt8.ofNat n) = true → n < 128 := by decide +kernel
  have hb := hall b.toNat b.toNat_lt
  rw [UInt8.ofNat_toNat] at hb
  exact hb h

/-- What has no byte to encode is kept. -/
theorem formEncode_unreserved {s : String} (h : Unreserved s) : formEncode s = s := by
  have hmap : ∀ bytes : Bytes, (∀ b ∈ bytes, isUnreserved b = true) →
      bytes.flatMap formEncodeByte = bytes.map fun b => Char.ofNat b.toNat := by
    intro bytes hbytes
    induction bytes with
    | nil => rfl
    | cons b bytes ih =>
      rw [List.flatMap_cons, List.map_cons, ih fun b' hb' => hbytes b' (List.mem_cons_of_mem _ hb'),
        formEncodeByte, if_pos (hbytes b List.mem_cons_self)]
      rfl
  apply asBytes_inj.mp
  unfold formEncode
  rw [hmap _ h]
  exact asBytes_ascii fun b hb => isUnreserved_ascii (h b hb)

/-- An encoded text is no shorter, and longer where a byte is encoded. -/
theorem formEncode_length (s : String) : (asBytes s).length ≤ (asBytes (formEncode s)).length ∧
    ((asBytes (formEncode s)).length = (asBytes s).length → Unreserved s) := by
  have hbytes : ∀ bytes : Bytes, bytes.length ≤ (bytes.flatMap formEncodeByte).length ∧
      ((bytes.flatMap formEncodeByte).length ≤ bytes.length → ∀ b ∈ bytes, isUnreserved b = true) := by
    intro bytes
    induction bytes with
    | nil => exact ⟨Nat.le_refl _, fun _ b hb => nomatch hb⟩
    | cons b bytes ih =>
      rw [List.flatMap_cons, List.length_append, List.length_cons, formEncodeByte_size]
      split
      · rename_i hb
        refine ⟨by omega, fun h b' hb' => ?_⟩
        rcases List.mem_cons.mp hb' with rfl | hb'
        · exact hb
        · exact ih.2 (by omega) b' hb'
      · exact ⟨by omega, fun h => by omega⟩
  have hchars := length_asBytes_ofList ((asBytes s).flatMap formEncodeByte)
  have hs := hbytes (asBytes s)
  unfold formEncode
  exact ⟨by omega, fun h => hs.2 (by omega)⟩

/-! ## The query that is sent back -/

/-- A pair of the query as it is written. -/
def renderPair (pair : String × String) : String := formEncode pair.1 ++ "=" ++ formEncode pair.2

def encodePair (pair : String × String) : String × String := (formEncode pair.1, formEncode pair.2)

theorem queryPairs_eq (queryParams : HashMap (List String)) :
    queryPairs queryParams = (Multimap.toPairs queryParams).map renderPair := by
  unfold queryPairs Multimap.toPairs
  rw [List.map_flatMap]
  congr 1
  funext row
  rw [List.map_map]
  rfl

theorem splitPair_renderPair (pair : String × String) : splitPair (renderPair pair) = encodePair pair := by
  have hkey : '=' ∉ (formEncode pair.1).toList := fun h => (formEncode_chars _ _ h).2.1 rfl
  unfold splitPair renderPair
  rw [show "=" = String.singleton '=' from rfl, splitOnceChar_append hkey]
  rfl

theorem renderPair_chars (pair : String × String) :
    ∀ c ∈ (renderPair pair).toList, c ≠ '&' ∧ c ≠ '#' := by
  intro c hc
  unfold renderPair at hc
  rw [String.toList_append, String.toList_append, List.mem_append, List.mem_append] at hc
  rcases hc with (hc | hc) | hc
  · exact ⟨(formEncode_chars _ _ hc).1, (formEncode_chars _ _ hc).2.2.1⟩
  · rw [List.mem_singleton.mp hc]
    decide
  · exact ⟨(formEncode_chars _ _ hc).1, (formEncode_chars _ _ hc).2.2.1⟩

/-- The pairs of the query as they are sorted. -/
def sortedPairs (queryParams : HashMap (List String)) : List String :=
  (queryPairs queryParams).mergeSort fun a b => decide (a ≤ b)

theorem sortedPairs_perm (queryParams : HashMap (List String)) :
    (sortedPairs queryParams).Perm ((Multimap.toPairs queryParams).map renderPair) := by
  rw [← queryPairs_eq]
  exact List.mergeSort_perm _ _

theorem sortedPairs_sorted (queryParams : HashMap (List String)) :
    (sortedPairs queryParams).Pairwise (· ≤ ·) :=
  pairwise_sorted _

/-- What is read back of them. -/
theorem splitPairs_perm (queryParams : HashMap (List String)) :
    ((sortedPairs queryParams).map splitPair).Perm
      ((Multimap.toPairs queryParams).map encodePair) := by
  have hperm := (sortedPairs_perm queryParams).map splitPair
  rwa [List.map_map, show splitPair ∘ renderPair = encodePair from funext splitPair_renderPair] at hperm

/-- The values of a key are read back in ascending order. -/
theorem splitPairs_sorted (queryParams : HashMap (List String)) (key : String) :
    (Multimap.valuesOf key ((sortedPairs queryParams).map splitPair)).Pairwise (· ≤ ·) := by
  apply valuesOf_sorted
  have hback : ((sortedPairs queryParams).map splitPair).map joinPair =
      sortedPairs queryParams := by
    rw [List.map_map]
    conv_rhs => rw [← List.map_id (sortedPairs queryParams)]
    apply List.map_congr_left
    intro s hs
    obtain ⟨pair, hpair, rfl⟩ := List.mem_map.mp ((sortedPairs_perm queryParams).mem_iff.mp hs)
    show joinPair (splitPair (renderPair pair)) = renderPair pair
    rw [splitPair_renderPair]
    rfl
  rw [hback]
  exact sortedPairs_sorted queryParams

/-- A pair is unreserved where both its texts are. -/
def UnreservedPair (pair : String × String) : Prop := Unreserved pair.1 ∧ Unreserved pair.2

theorem encodePair_unreserved {pair : String × String} (h : UnreservedPair pair) :
    encodePair pair = pair :=
  Prod.ext (formEncode_unreserved h.1) (formEncode_unreserved h.2)

/-- The values of a key, as they are in the map. -/
theorem values_of_pair {pairs : List (String × String)} {pair : String × String}
    (h : pair ∈ Multimap.toPairs (Multimap.ofPairs pairs)) :
    (Multimap.ofPairs pairs)[pair.1]? = some (Multimap.valuesOf pair.1 pairs) ∧
      pair.2 ∈ Multimap.valuesOf pair.1 pairs := by
  have hmem : pair.2 ∈ Multimap.valuesOf pair.1 (Multimap.toPairs (Multimap.ofPairs pairs)) :=
    List.mem_map.mpr ⟨pair, List.mem_filter.mpr ⟨h, decide_eq_true rfl⟩, rfl⟩
  rw [Multimap.valuesOf_toPairs, Multimap.getElem?_ofPairs] at hmem
  split at hmem
  · cases hmem
  · rename_i hne
    exact ⟨by rw [Multimap.getElem?_ofPairs, if_neg hne], hmem⟩

/-- **The parameters.**  They are read back from the sorted and encoded query exactly when they come
    back. -/
theorem splitPairs_same_iff (pairs : List (String × String)) :
    Multimap.ofPairs ((sortedPairs (Multimap.ofPairs pairs)).map splitPair) = Multimap.ofPairs pairs ↔
      ComesBack (Multimap.ofPairs pairs) := by
  have hlisted : ∀ key, Multimap.valuesOf key (Multimap.toPairs (Multimap.ofPairs pairs)) =
      Multimap.valuesOf key pairs := fun key => Multimap.valuesOf_toPairs_ofPairs key pairs
  have hperm := splitPairs_perm (Multimap.ofPairs pairs)
  have hsorted := splitPairs_sorted (Multimap.ofPairs pairs)
  rw [Multimap.ofPairs_eq_iff]
  constructor
  · intro hsame key values hvalues
    have hback := Multimap.perm_of_valuesOf fun key => (hsame key).trans (hlisted key).symm
    -- the texts together have not grown, so none was encoded
    have hsize := Multimap.size_eq_of_map_perm
      (fun pair => (asBytes pair.1).length + (asBytes pair.2).length)
      (fun pair => Nat.add_le_add (formEncode_length pair.1).1 (formEncode_length pair.2).1)
      (hperm.symm.trans hback)
    have hplain : ∀ pair ∈ Multimap.toPairs (Multimap.ofPairs pairs), UnreservedPair pair := by
      intro pair hpair
      have hpairSize := hsize pair hpair
      have hkeySize := formEncode_length pair.1
      have hvalueSize := formEncode_length pair.2
      simp only [encodePair] at hpairSize
      exact ⟨hkeySize.2 (by omega), hvalueSize.2 (by omega)⟩
    have hof : values = Multimap.valuesOf key pairs ∧ values ≠ [] := by
      rw [Multimap.getElem?_ofPairs] at hvalues
      split at hvalues
      · cases hvalues
      · rename_i hne
        rw [← Option.some.inj hvalues]
        exact ⟨rfl, hne⟩
    have hpairs : ∀ v ∈ values, UnreservedPair (key, v) := by
      intro v hv
      rw [hof.1, ← hlisted] at hv
      obtain ⟨pair, hpair, rfl⟩ := List.mem_map.mp hv
      obtain ⟨hlist, hkey⟩ := List.mem_filter.mp hpair
      obtain rfl := of_decide_eq_true hkey
      exact hplain pair hlist
    obtain ⟨v, hv⟩ := List.exists_mem_of_ne_nil values hof.2
    refine ⟨(hpairs v hv).1, fun v hv => (hpairs v hv).2, ?_⟩
    rw [hof.1, ← hsame]
    exact hsorted key
  · intro hcomes key
    have hplain : ∀ pair ∈ Multimap.toPairs (Multimap.ofPairs pairs), UnreservedPair pair := by
      intro pair hpair
      obtain ⟨hvalues, hv⟩ := values_of_pair hpair
      obtain ⟨hkey, hall, -⟩ := hcomes pair.1 _ hvalues
      exact ⟨hkey, hall pair.2 hv⟩
    rw [List.map_congr_left fun pair hpair => encodePair_unreserved (hplain pair hpair),
      List.map_id'] at hperm
    have hvalues : (Multimap.valuesOf key _).Perm (Multimap.valuesOf key _) :=
      Multimap.valuesOf_perm hperm
    rw [hlisted] at hvalues
    have hascending : (Multimap.valuesOf key pairs).Pairwise (· ≤ ·) := by
      by_cases hnil : Multimap.valuesOf key pairs = []
      · rw [hnil]
        exact List.Pairwise.nil
      · exact (hcomes key _ (by rw [Multimap.getElem?_ofPairs, if_neg hnil])).2.2
    exact hvalues.eq_of_pairwise (fun a b _ _ hab hba => le_antisymm hab hba) (hsorted key) hascending

/-! ## The reference -/

theorem sortedPairs_chars (queryParams : HashMap (List String)) :
    ∀ s ∈ sortedPairs queryParams, '&' ∉ s.toList ∧ '#' ∉ s.toList := by
  intro s hs
  obtain ⟨pair, -, rfl⟩ := List.mem_map.mp ((sortedPairs_perm queryParams).mem_iff.mp hs)
  exact ⟨fun h => (renderPair_chars pair _ h).1 rfl, fun h => (renderPair_chars pair _ h).2 rfl⟩

theorem query_chars (queryParams : HashMap (List String)) :
    '#' ∉ ("&".intercalate (sortedPairs queryParams)).toList := by
  rw [String.toList_intercalate]
  intro h
  rcases Split.mem_intercalate h with h | ⟨l, hl, h⟩
  · exact absurd h (by decide)
  · obtain ⟨s, hs, rfl⟩ := List.mem_map.mp hl
    exact (sortedPairs_chars queryParams s hs).2 h

/-- A query behind the path makes it no more and no less absolute. -/
theorem isAbsolutePath_query (path query : String) :
    isAbsolutePath (path ++ "?" ++ query) = isAbsolutePath path := by
  unfold isAbsolutePath
  rw [String.toList_append, String.toList_append]
  cases path.toList with
  | nil => rfl
  | cons c rest =>
    cases rest with
    | nil =>
      show (decide (c = '/') && true) = (decide (c = '/') && true)
      rfl
    | cons next rest => rfl

theorem leadsTo_iff_components {location : String} {original : GatewayRequest} :
    LeadsTo location original ↔ isAbsolutePath location = true ∧
      (HttpUri.ofReference location).path = original.path ∧
      parseQuery (HttpUri.ofReference location).query = original.queryParams := by
  constructor
  · rintro ⟨habsolute, h⟩
    refine ⟨habsolute, ?_⟩
    generalize HttpUri.ofReference location = uri at h ⊢
    have hsent := h { method := "GET", uri := uri, version := .http11, headers := [] } [] "" rfl
    exact ⟨hsent.1, hsent.2⟩
  · rintro ⟨habsolute, hpath, hquery⟩
    refine ⟨habsolute, fun parts body remoteAddr huri => ?_⟩
    rw [← huri] at hpath hquery
    exact ⟨hpath, hquery⟩

theorem sortedPairs_empty : sortedPairs (parseQuery none) = [] := by
  unfold sortedPairs
  rw [show queryPairs (parseQuery none) = [] from rfl, List.mergeSort_nil]

/-- A query has a pair. -/
theorem sortedPairs_ne_nil (query : String) : sortedPairs (parseQuery (some query)) ≠ [] := by
  intro hnil
  have hperm := sortedPairs_perm (parseQuery (some query))
  rw [hnil] at hperm
  have hpairs : Multimap.toPairs (parseQuery (some query)) = [] :=
    List.map_eq_nil_iff.mp hperm.nil_eq.symm
  obtain ⟨piece, rest, hpieces⟩ := List.exists_cons_of_ne_nil
    (show splitChar '&' query ≠ [] by simp [splitChar])
  have hvalues : Multimap.valuesOf (splitPair piece).1 (Multimap.toPairs (parseQuery (some query))) =
      (parseQuery (some query))[(splitPair piece).1]?.getD [] := Multimap.valuesOf_toPairs _
  rw [hpairs, parseQuery, Multimap.getElem?_ofPairs, hpieces, List.map_cons, Multimap.valuesOf_cons,
    if_pos rfl, if_neg (List.cons_ne_nil _ _)] at hvalues
  cases hvalues

/-- Of a request without parameters it keeps the path. -/
theorem requestUri_of_nil {ctx : Context} (h : sortedPairs ctx.request.queryParams = []) :
    requestUri ctx = ctx.request.path := by
  unfold requestUri
  rw [show (queryPairs ctx.request.queryParams).mergeSort (fun a b => decide (a ≤ b)) = [] from h]

/-- Of a request with parameters it keeps the path and the pairs. -/
theorem requestUri_of_ne_nil {ctx : Context} (h : sortedPairs ctx.request.queryParams ≠ []) :
    requestUri ctx =
      ctx.request.path ++ "?" ++ "&".intercalate (sortedPairs ctx.request.queryParams) := by
  obtain ⟨pair, pairs, hpairs⟩ := List.exists_cons_of_ne_nil h
  unfold requestUri
  rw [hpairs, show (queryPairs ctx.request.queryParams).mergeSort (fun a b => decide (a ≤ b)) =
    pair :: pairs from hpairs]

/-- **The reference.**  What the callback redirects to leads back to the request exactly when the path is
    absolute and the parameters come back. -/
theorem leadsTo_iff {uri : HttpUri} (huri : uri.Parsed) {ctx : Context}
    (hpath : ctx.request.path = uri.path) (hquery : ctx.request.queryParams = parseQuery uri.query)
    {flowState : FlowState} (hflow : flowState.originalUri = requestUri ctx)
    {original : GatewayRequest} (hsame : original.path = uri.path)
    (hparams : original.queryParams = parseQuery uri.query) :
    LeadsTo (OpenidConnectPlugin.callbackTarget flowState) original ↔
      isAbsolutePath uri.path = true ∧ ComesBack (parseQuery uri.query) := by
  unfold OpenidConnectPlugin.callbackTarget
  rw [hflow, leadsTo_iff_components, hsame, hparams]
  cases hq : uri.query with
  | none =>
    -- no query, so no parameters to come back
    have hcomes : ComesBack (parseQuery none) := by
      intro key values h
      cases (show none = some values from h)
    have hnil : sortedPairs ctx.request.queryParams = [] := by rw [hquery, hq, sortedPairs_empty]
    rw [requestUri_of_nil hnil, hpath]
    by_cases hempty : uri.path = ""
    · -- the callback redirects to the root in place of an empty path
      rw [if_pos hempty, hempty, HttpUri.ofReference_path (by decide) (by decide)]
      constructor
      · rintro ⟨-, h, -⟩
        exact absurd h (show ¬ "/" = "" by decide)
      · rintro ⟨h, -⟩
        cases h
    · rw [if_neg hempty, HttpUri.ofReference_path huri.path.1 huri.path.2]
      constructor
      · rintro ⟨h, -⟩
        exact ⟨h, hcomes⟩
      · rintro ⟨h, -⟩
        exact ⟨h, rfl, rfl⟩
  | some query =>
    -- the reference has a query, whose pairs are sorted
    have hne := sortedPairs_ne_nil query
    have hchars := sortedPairs_chars (parseQuery (some query))
    have hsent := query_chars (parseQuery (some query))
    have hiff := splitPairs_same_iff ((splitChar '&' query).map splitPair)
    have hread : parseQuery (some ("&".intercalate (sortedPairs (parseQuery (some query))))) =
        Multimap.ofPairs ((sortedPairs (parseQuery (some query))).map splitPair) := by
      show Multimap.ofPairs ((splitChar '&' ((String.singleton '&').intercalate _)).map splitPair) = _
      rw [splitChar_intercalate hne fun s hs => (hchars s hs).1]
    have huse : requestUri ctx =
        uri.path ++ "?" ++ "&".intercalate (sortedPairs (parseQuery (some query))) := by
      rw [← hq, ← hquery] at hne
      rw [requestUri_of_ne_nil hne, hpath, hquery, hq]
    have hnonempty : requestUri ctx ≠ "" := by
      rw [huse]
      intro h
      have hlist := congrArg String.toList h
      rw [String.toList_append, String.toList_append] at hlist
      simp at hlist
    rw [if_neg hnonempty, huse, isAbsolutePath_query, HttpUri.ofReference_query huri.path.1 huri.path.2 hsent,
      hread]
    constructor
    · rintro ⟨h, -, hback⟩
      exact ⟨h, hiff.mp hback⟩
    · rintro ⟨h, hcomes⟩
      exact ⟨h, rfl, hiff.mpr hcomes⟩

end OpenidConnect

namespace OpenidConnectPlugin

open OpenidConnect

/-! ## Of a login -/

section Login

variable [Sha256] [Aes256Gcm] [Base64Url] [Base64Codec] [JsonStructCodec] [JsonWebToken]
  [DurationText]

/-- A login: the first request begins it and is given a flow state in a sealed cookie, and the callback
    that brings the cookie, opened as what was sealed, ends in a session and redirects to `location`. -/
structure Login (plugin : OpenidConnectPlugin) (start callback : Context) (flow : Interactive)
    (flowState : FlowState) (cookie : String) (begun called : List OidcEvent) (first : PluginResult)
    (last : PluginExecutionError) (location : String) : Prop where
  interactive : plugin.interactive = some flow
  begins : (plugin.execute start).Ran begun first
  givesFlow : ∃ ttl, Did begun (.sealCookie flow.sealer (.flow flowState) ttl) cookie
  carried : requestCookie callback flow.flowCookie = some cookie
  returns : (plugin.execute callback).Ran called (.error last)
  opensFlow : ∀ answer, Did called (.openCookie flow.sealer cookie) answer →
    answer = .ok (CookiePayload.flow flowState).toVec
  endsInSession : ∃ sealer session ttl value,
    Did called (.sealCookie sealer (.session session) ttl) value
  redirects : last.context.response.headers["location"]? = some [location]

/-- A login that the request begins redirects to `location`. -/
def LoginEndsAt (plugin : OpenidConnectPlugin) (start : Context) (location : String) : Prop :=
  ∃ callback flow flowState cookie begun called first last,
    plugin.Login start callback flow flowState cookie begun called first last location

variable {plugin : OpenidConnectPlugin} {start callback : Context} {flow : Interactive}
  {flowState : FlowState} {cookie : String} {begun called : List OidcEvent} {first : PluginResult}
  {last : PluginExecutionError} {location : String}

/-- The flow state has the URI of the request that began. -/
theorem Login.originalUri
    (h : plugin.Login start callback flow flowState cookie begun called first last location) :
    flowState.originalUri = requestUri start := by
  obtain ⟨ttl, e, he, hwhat⟩ := h.givesFlow
  obtain ⟨before, after, hsplit⟩ := List.append_of_mem he
  have hallowed := ((execute_keeps plugin start).ran h.begins).2 before e after hsplit
  rw [hwhat] at hallowed
  obtain ⟨flow', -, -, ⟨state, nonce, verifier, -, -, -, hflow⟩, -⟩ := hallowed
  rw [hflow]
  rfl

/-- The callback redirects to it. -/
theorem Login.location_eq
    (h : plugin.Login start callback flow flowState cookie begun called first last location) :
    location = callbackTarget flowState := by
  obtain ⟨sealer, session, ttl, value, hdid⟩ := h.endsInSession
  obtain ⟨flow', flowState', hinteractive, hcompleted, hlocation⟩ :=
    ((execute_keeps plugin callback).ran h.returns).1 sealer session ttl value hdid
  rw [h.interactive] at hinteractive
  obtain rfl := Option.some.inj hinteractive
  obtain ⟨bytes, ⟨value, hvalue, hopened⟩, hread⟩ := hcompleted.opened
  rw [requestCookie_stripUserinfo, h.carried] at hvalue
  obtain rfl := Option.some.inj hvalue
  rw [Except.ok.inj (h.opensFlow _ hopened), FlowState.fromSlice_flow] at hread
  rw [h.redirects] at hlocation
  rw [Option.some.inj hread]
  exact List.head_eq_of_cons_eq (Option.some.inj hlocation)

/-- **Back to where the user was.**  The redirect of a login leads to the request that began it exactly
    when the path of that request begins with one slash, no text of its query has a character to encode,
    and the values of each of its keys are in ascending order. -/
theorem login_returns_iff (hlogin : plugin.LoginEndsAt start location)
    (parts : HttpParts) (body : Bytes) (remoteAddr : String) (hparsed : parts.uri.Parsed)
    (hpath : start.request.path = parts.uri.path)
    (hquery : start.request.queryParams = parseQuery parts.uri.query) :
    LeadsTo location (GatewayRequest.fromHyper parts body remoteAddr) ↔
      isAbsolutePath parts.uri.path = true ∧ ComesBack (parseQuery parts.uri.query) := by
  obtain ⟨callback, flow, flowState, cookie, begun, called, first, last, h⟩ := hlogin
  rw [h.location_eq]
  exact leadsTo_iff hparsed hpath hquery h.originalUri rfl rfl

end Login

/-! ### Three logins -/

/-- A first request without cookies. -/
def startParts (path : String) (query : Option String) : HttpParts where
  method := "GET"
  uri := { scheme := none, path := path, query := query }
  version := .http11
  headers := []

def startRequest (path : String) (query : Option String) : Context :=
  Context.new (GatewayRequest.fromHyper (startParts path query) [] "1.2.3.4:5")

theorem redirect_location (ctx : Context) (location : String) (cookies : List String) :
    ∃ err, redirect ctx location cookies = .error err ∧
      err.context.response.headers["location"]? = some [location] := by
  refine ⟨_, rfl, ?_⟩
  show (if cookies = [] then ctx.response.headers.insert "location" [location]
    else (ctx.response.headers.insert "location" [location]).insert "set-cookie" cookies)["location"]? = _
  split
  · rw [HashMap.get_insert, if_pos rfl]
  · rw [HashMap.get_insert, if_neg (by decide), HashMap.get_insert, if_pos rfl]

section Example

variable [Sha256] [Aes256Gcm] [Base64Url] [Base64Codec] [JsonStructCodec] [DurationText]

/-- What is sealed for it. -/
def startFlow (path : String) (query : Option String) : FlowState :=
  { aliceFlow with originalUri := requestUri (startRequest path query) }

attribute [local instance] aliceToken

theorem login_ran (hstate : aliceFlow.state ≠ "") {path : String} (hpath : path ≠ "/a/callback")
    (query : Option String) :
    (appNode "a").LoginEndsAt (startRequest path query) (callbackTarget (startFlow path query)) := by
  have hplain : ∀ c ∈ "c1".toList, c ∈ Rfc4648.digits Rfc4648.urlSafe := by
    have hchars : ∀ i : Fin "c1".toList.length,
        "c1".toList.get i ∈ Rfc4648.digits Rfc4648.urlSafe := by
      decide +kernel
    intro c hc
    obtain ⟨i, rfl⟩ := List.mem_iff_get.mp hc
    exact hchars i
  have hcallback : ¬ IsCallback (appFlow "a") (startRequest path query) := fun h => hpath h.1
  have hlogout : ¬ IsLogout (appFlow "a") (startRequest path query) := fun h => by
    cases (show none = some _ from h)
  have hcookie : requestCookie (stripUserinfo (startRequest path query)) "oidc_session" = none := by
    rw [requestCookie_stripUserinfo]
    rfl
  obtain ⟨first, hbegun⟩ := beginAuth_ran (show (appNode "a").interactive = some (appFlow "a") from rfl)
    hlogout hcallback hcookie rfl ⟨100, 0⟩ (List.replicate 32 1) (List.replicate 32 2)
    (List.replicate 32 3) "c1"
  obtain ⟨cookies, hcalled⟩ :=
    callback_ran_flow hplain (show (startFlow path query).nonce = aliceFlow.nonce from rfl) hstate
  obtain ⟨last, hlast, hlocation⟩ := redirect_location
    (stripUserinfo (callbackRequest (startFlow path query) "c1")) (callbackTarget (startFlow path query))
    cookies
  rw [hlast] at hcalled
  refine ⟨_, appFlow "a", startFlow path query, "c1", _, _, first, last, rfl, hbegun,
    ⟨flowTtl, _, List.mem_of_getLast? rfl, rfl⟩, requestCookie_cookieHeader flowCookie_plain hplain,
    hcalled, ?_, ⟨_, _, _, _, _, List.mem_of_getLast? rfl, rfl⟩, hlocation⟩
  rintro answer ⟨e, he, hwhat⟩
  simp only [callbackEventsOf, keyEvents, List.cons_append, List.nil_append, List.mem_cons,
    List.not_mem_nil, or_false] at he
  rcases he with rfl | rfl | rfl | rfl | rfl | rfl | rfl | rfl | rfl
  · cases hwhat
    rfl
  all_goals cases hwhat

end Example

/-- The parameters of a query with one pair. -/
theorem parseQuery_single {query key value : String}
    (h : (splitChar '&' query).map splitPair = [(key, value)]) (k : String) (values : List String) :
    (parseQuery (some query))[k]? = some values ↔ k = key ∧ values = [value] := by
  show (Multimap.ofPairs ((splitChar '&' query).map splitPair))[k]? = some values ↔ _
  rw [h, Multimap.getElem?_ofPairs, Multimap.valuesOf_cons, Multimap.valuesOf_nil]
  by_cases hkey : key = k
  · rw [if_pos hkey, if_neg (List.cons_ne_nil _ _)]
    constructor
    · intro hvalues
      exact ⟨hkey.symm, (Option.some.inj hvalues).symm⟩
    · rintro ⟨-, rfl⟩
      rfl
  · rw [if_neg hkey, if_pos rfl]
    constructor
    · intro hvalues
      cases hvalues
    · rintro ⟨rfl, -⟩
      exact absurd rfl hkey

/-- A path below `/a` with a parameter. -/
theorem login_returns_iff_home :
    let _ : Sha256 := cutDigest
    let _ : Aes256Gcm := keyTagged
    let _ : Base64Url := urlSafeBase64
    let _ : Base64Codec := standardBase64
    let _ : JsonStructCodec := compactStructs
    let _ : DurationText := ⟨fun _ => "3s"⟩
    let _ : JsonWebToken := aliceToken
    ∃ location, (appNode "a").LoginEndsAt (startRequest "/a/home" (some "tab=1")) location ∧
      LeadsTo location
        (GatewayRequest.fromHyper (startParts "/a/home" (some "tab=1")) [] "1.2.3.4:5") := by
  intro _ _ _ _ _ _ _
  have hlogin := login_ran (by decide +kernel) (show "/a/home" ≠ "/a/callback" by decide) (some "tab=1")
  have hpairs : (splitChar '&' "tab=1").map splitPair = [("tab", "1")] := by decide
  refine ⟨_, hlogin, (login_returns_iff hlogin (startParts "/a/home" (some "tab=1")) [] "1.2.3.4:5"
    ⟨⟨by decide, by decide⟩, ?_⟩ rfl rfl).mpr ⟨by decide, ?_⟩⟩
  · intro query h
    rw [← Option.some.inj h]
    decide
  · intro key values h
    obtain ⟨rfl, rfl⟩ := (parseQuery_single hpairs key values).mp h
    refine ⟨by unfold Unreserved; decide +kernel, fun v hv => ?_, List.pairwise_singleton _ _⟩
    rw [List.mem_singleton.mp hv]
    unfold Unreserved
    decide +kernel

/-- A path that names another host, and a parameter that is encoded once more. -/
theorem login_leads_elsewhere :
    let _ : Sha256 := cutDigest
    let _ : Aes256Gcm := keyTagged
    let _ : Base64Url := urlSafeBase64
    let _ : Base64Codec := standardBase64
    let _ : JsonStructCodec := compactStructs
    let _ : DurationText := ⟨fun _ => "3s"⟩
    let _ : JsonWebToken := aliceToken
    (startParts "//evil.example/x" none).uri.Parsed ∧
    (startParts "/a/home" (some "q=a%20b")).uri.Parsed ∧
    (∃ location, (appNode "a").LoginEndsAt (startRequest "//evil.example/x" none) location ∧
      ¬ LeadsTo location
        (GatewayRequest.fromHyper (startParts "//evil.example/x" none) [] "1.2.3.4:5")) ∧
    ∃ location, (appNode "a").LoginEndsAt (startRequest "/a/home" (some "q=a%20b")) location ∧
      ¬ LeadsTo location
        (GatewayRequest.fromHyper (startParts "/a/home" (some "q=a%20b")) [] "1.2.3.4:5") := by
  intro _ _ _ _ _ _ _
  have hhost : (startParts "//evil.example/x" none).uri.Parsed := by
    refine ⟨⟨by decide, by decide⟩, ?_⟩
    rintro query ⟨⟩
  have hencoded : (startParts "/a/home" (some "q=a%20b")).uri.Parsed := by
    refine ⟨⟨by decide, by decide⟩, ?_⟩
    rintro query h
    rw [← Option.some.inj h]
    decide
  have hpairs : (splitChar '&' "q=a%20b").map splitPair = [("q", "a%20b")] := by decide
  refine ⟨hhost, hencoded,
    ⟨_, login_ran (by decide +kernel) (by decide) none, ?_⟩,
    ⟨_, login_ran (by decide +kernel) (by decide) (some "q=a%20b"), ?_⟩⟩
  · rw [leadsTo_iff hhost rfl rfl rfl rfl rfl]
    rintro ⟨h, -⟩
    exact absurd h (by decide)
  · rw [leadsTo_iff hencoded rfl rfl rfl rfl rfl]
    rintro ⟨-, h⟩
    have hvalue := (h "q" ["a%20b"] ((parseQuery_single hpairs _ _).mpr ⟨rfl, rfl⟩)).2.1 "a%20b"
      List.mem_cons_self
    exact absurd (hvalue 0x25 (by decide +kernel)) (by decide)

end OpenidConnectPlugin

end Featherbit
