/-
  WHERE THE BROWSER IS SENT TO LOG IN (`begin_auth` of `plugins/native/openid_connect.rs`).

  The node appends its parameters to the authorization endpoint behind a `?`, whatever the endpoint holds
  already.

  1. **The URL** (`authorizationUrl_eq`) — the endpoint, a `?`, and the encoded parameters.
  2. **Counting pairs** — an endpoint with a query of its own loses a pair, since the second `?` runs two
     of them together; behind a fragment nothing of what is appended is a query.
  3. **The redirect** (`authorization_query_iff`) — of every run of `begin_auth`, over every endpoint.
-/
import Featherbit.Plugins.OidcReturn
import Featherbit.Vars.FormDecode

namespace Featherbit

open Tasks Vars

/-- The bytes of a pair of texts. -/
def pairBytes (pair : String × String) : Bytes × Bytes := (asBytes pair.1, asBytes pair.2)

namespace OpenidConnect

theorem formEncode_eq (s : String) : formEncode s = percentText isUnreserved s := rfl

/-- What is not escaped is ASCII, and the reader does not read it as an escape. -/
theorem isUnreserved_kept {b : UInt8} (hb : isUnreserved b = true) : b.toNat < 128 ∧ b ≠ 0x2B ∧ b ≠ 0x25 := by
  have hall : ∀ n < 256, isUnreserved (UInt8.ofNat n) = true →
      UInt8.ofNat n ≠ 0x2B ∧ UInt8.ofNat n ≠ 0x25 := by
    decide +kernel
  have hbyte := hall b.toNat b.toNat_lt
  rw [UInt8.ofNat_toNat] at hbyte
  exact ⟨isUnreserved_ascii hb, hbyte hb⟩

/-- The reader takes back what `form_encode` wrote. -/
theorem urldecodeBytes_formEncode (s : String) : urldecodeBytes (asBytes (formEncode s)) = asBytes s := by
  rw [formEncode_eq]
  exact urldecodeBytes_percentText (fun _ hb => isUnreserved_kept hb) s

theorem decodePair_encodePair (pair : String × String) : decodePair (encodePair pair) = pairBytes pair := by
  unfold decodePair encodePair pairBytes
  rw [urldecodeBytes_formEncode, urldecodeBytes_formEncode]

/-- A query of encoded pairs. -/
def encodedQuery (pairs : List (String × String)) : String :=
  "&".intercalate ((pairs.map encodePair).map joinPair)

theorem queryPieces_encodedQuery {pairs : List (String × String)} (hne : pairs ≠ []) :
    queryPieces (encodedQuery pairs) = pairs.map encodePair := by
  refine queryPieces_joined (fun h => hne (List.map_eq_nil_iff.mp h)) fun pair hpair => ?_
  obtain ⟨source, -, rfl⟩ := List.mem_map.mp hpair
  refine ⟨fun h => (formEncode_chars _ _ h).2.1 rfl, fun h => ?_⟩
  exact (renderPair_chars source '&' h).1 rfl

theorem encodedQuery_chars (pairs : List (String × String)) :
    '#' ∉ (encodedQuery pairs).toList := by
  unfold encodedQuery
  rw [String.toList_intercalate]
  intro h
  rcases Split.mem_intercalate h with h | ⟨l, hl, h⟩
  · exact absurd h (by decide)
  · obtain ⟨text, htext, rfl⟩ := List.mem_map.mp hl
    obtain ⟨pair, hpair, rfl⟩ := List.mem_map.mp htext
    obtain ⟨source, -, rfl⟩ := List.mem_map.mp hpair
    exact (renderPair_chars source '#' h).2 rfl

theorem decodedPairs_encodedQuery {pairs : List (String × String)} (hne : pairs ≠ []) :
    decodedPairs (encodedQuery pairs) = pairs.map pairBytes := by
  unfold decodedPairs
  rw [queryPieces_encodedQuery hne, List.map_map]
  exact List.map_congr_left fun pair _ => decodePair_encodePair pair

/-! ## What is appended to a reference -/

theorem decodedQuery_of_query {path query : String} (hquery : '?' ∉ path.toList)
    (hfragment : '#' ∉ path.toList) (hsent : '#' ∉ query.toList) :
    decodedQuery (path ++ "?" ++ query) = decodedPairs query := by
  unfold decodedQuery
  rw [HttpUri.ofReference_query hquery hfragment hsent]

theorem decodedQuery_of_path {path : String} (hquery : '?' ∉ path.toList)
    (hfragment : '#' ∉ path.toList) : decodedQuery path = [] := by
  unfold decodedQuery
  rw [HttpUri.ofReference_path hquery hfragment]

/-- Behind a fragment nothing is part of the query. -/
theorem decodedQuery_of_fragment {authz : String} (h : '#' ∈ authz.toList) (more : String) :
    decodedQuery (authz ++ more) = decodedQuery authz := by
  have hfirst : splitFirst '#' (authz ++ more) = splitFirst '#' authz := by
    obtain ⟨x, y, hsplit, hx⟩ := List.eq_append_cons_of_mem h
    have hkeep : ∀ c ∈ x, decide (c ≠ '#') = true := fun c hc => decide_eq_true fun heq => hx (heq ▸ hc)
    unfold splitFirst
    rw [String.toList_append, hsplit, List.append_assoc, List.takeWhile_append_of_pos hkeep,
      List.takeWhile_append_of_pos hkeep]
    rfl
  unfold decodedQuery HttpUri.ofReference
  rw [hfirst]

/-- **Counting pairs.**  As many pairs as the endpoint's own and the appended ones together are only there
    when the endpoint has neither a query nor a fragment. -/
theorem plain_of_length {authz : String} {pairs : List (String × String)} (hne : pairs ≠ [])
    (hlength : (decodedQuery (authz ++ "?" ++ encodedQuery pairs)).length =
      (decodedQuery authz).length + pairs.length) : '?' ∉ authz.toList ∧ '#' ∉ authz.toList := by
  have hpositive : 0 < pairs.length := List.length_pos_iff.mpr hne
  have hfragment : '#' ∉ authz.toList := by
    intro h
    rw [String.append_assoc, decodedQuery_of_fragment h] at hlength
    omega
  refine ⟨fun h => ?_, hfragment⟩
  obtain ⟨path, own, hsplit⟩ := exists_splitOnceChar h
  have hauthz := eq_of_splitOnceChar hsplit
  have hpath : '?' ∉ path.toList := by
    obtain ⟨⟨x, y⟩, hlist, heq⟩ := Option.map_eq_some_iff.mp hsplit
    rw [← (Prod.mk.inj heq).1, String.toList_ofList]
    exact Split.not_mem_of_splitOnce hlist
  have hparts : '#' ∉ path.toList ∧ '#' ∉ own.toList := by
    rw [hauthz, String.toList_append, String.toList_append] at hfragment
    exact ⟨fun h => hfragment (List.mem_append_left _ (List.mem_append_left _ h)),
      fun h => hfragment (List.mem_append_right _ h)⟩
  -- the second `?` is part of the query, so two pairs run together
  have hown := length_queryPieces own
  have hall := length_queryPieces (own ++ "?" ++ encodedQuery pairs)
  have happended := length_queryPieces (encodedQuery pairs)
  rw [queryPieces_encodedQuery hne, List.length_map] at happended
  rw [String.toList_append, String.toList_append, List.count_append, List.count_append,
    show "?".toList.count '&' = 0 from rfl] at hall
  have hsent : '#' ∉ (own ++ "?" ++ encodedQuery pairs).toList := by
    rw [String.toList_append, String.toList_append]
    intro h
    rcases List.mem_append.mp h with h | h
    · rcases List.mem_append.mp h with h | h
      · exact hparts.2 h
      · exact absurd h (by decide)
    · exact encodedQuery_chars pairs h
  have hurl : authz ++ "?" ++ encodedQuery pairs = path ++ "?" ++ (own ++ "?" ++ encodedQuery pairs) := by
    rw [hauthz, show String.singleton '?' = "?" from rfl]
    simp only [String.append_assoc]
  rw [hurl, decodedQuery_of_query hpath hparts.1 hsent, hauthz,
    show String.singleton '?' = "?" from rfl, decodedQuery_of_query hpath hparts.1 hparts.2] at hlength
  unfold decodedPairs at hlength
  rw [List.length_map, List.length_map] at hlength
  omega

/-- The pairs are the endpoint's own and the appended ones exactly when the endpoint has neither a query nor
    a fragment. -/
theorem decodedQuery_append_iff (authz : String) {pairs : List (String × String)} (hne : pairs ≠ []) :
    decodedQuery (authz ++ "?" ++ encodedQuery pairs) = decodedQuery authz ++ pairs.map pairBytes ↔
      '?' ∉ authz.toList ∧ '#' ∉ authz.toList := by
  constructor
  · intro hsame
    apply plain_of_length hne
    rw [hsame, List.length_append, List.length_map]
  · rintro ⟨hquery, hfragment⟩
    rw [decodedQuery_of_query hquery hfragment (encodedQuery_chars pairs),
      decodedQuery_of_path hquery hfragment, decodedPairs_encodedQuery hne, List.nil_append]

end OpenidConnect

namespace OpenidConnectPlugin

open OpenidConnect

/-! ## The redirect -/

/-- What the browser is to bring to the endpoint. -/
def authorizationParams (plugin : OpenidConnectPlugin) (flow : Interactive)
    (state nonce challenge : String) : List (String × String) :=
  [("response_type", "code"), ("client_id", plugin.clientId.getD ""),
    ("redirect_uri", flow.redirectUri), ("scope", flow.scope), ("state", state), ("nonce", nonce),
    ("code_challenge", challenge), ("code_challenge_method", "S256")]

/-- **The URL.**  The parameters follow the endpoint and a `?`. -/
theorem authorizationUrl_eq (plugin : OpenidConnectPlugin) (flow : Interactive)
    (authz state nonce challenge : String) :
    plugin.authorizationUrl flow authz state nonce challenge =
      authz ++ "?" ++ encodedQuery (plugin.authorizationParams flow state nonce challenge) := by
  have hplain : ∀ name ∈ ["response_type", "code", "client_id", "redirect_uri", "scope", "state", "nonce",
      "code_challenge", "code_challenge_method", "S256"], formEncode name = name := by
    intro name hname
    refine formEncode_unreserved fun b hb => ?_
    revert b hb name
    decide +kernel
  simp only [List.forall_mem_cons, List.not_mem_nil, false_implies, implies_true, and_true] at hplain
  obtain ⟨htype, hcode, hclient, hredirect, hscope, hstate, hnonce, hchallenge, hmethod, hs256⟩ := hplain
  unfold authorizationUrl encodedQuery authorizationParams
  simp only [List.map_cons, List.map_nil, encodePair, joinPair, htype, hcode, hclient, hredirect, hscope,
    hstate, hnonce, hchallenge, hmethod, hs256]
  rw [← String.toList_inj]
  simp [String.toList_append]

section Runs

variable [Sha256] [Base64Url] [JsonStructCodec] [DurationText] {plugin : OpenidConnectPlugin} {flow : Interactive} {ctx : Context}
  {events : List OidcEvent} {result : PluginResult}

/-- A run of `begin_auth` asks for the endpoint, and sends the browser there or turns it away. -/
theorem beginAuth_sends (hran : (plugin.beginAuth flow ctx).Ran events result) :
    (∃ message, result = reject ctx message) ∨
    ∃ before authz state nonce verifier, before <+: events ∧
      (plugin.authorizationEndpoint flow).Ran before (.ok authz) ∧
      (PluginResult.context result).response.headers["location"]? =
        some [plugin.authorizationUrl flow authz (randomToken state) (randomToken nonce)
          (pkceChallenge (randomToken verifier))] := by
  unfold beginAuth at hran
  obtain ⟨before, rest, found, rfl, hfound, hrest⟩ := Task.ran_bind.mp hran
  cases found with
  | error message =>
    cases hrest with
    | done _ => exact Or.inl ⟨message, rfl⟩
  | ok authz =>
    -- the three tokens are drawn, the flow state is sealed
    cases hrest with
    | @call _ _ _ state _ _ hrest =>
    cases hrest with
    | @call _ _ _ nonce _ _ hrest =>
    cases hrest with
    | @call _ _ _ verifier _ _ hrest =>
    cases hrest with
    | @call _ _ _ value _ _ hrest =>
    cases hrest with
    | done _ =>
      obtain ⟨last, hlast, hlocation⟩ := redirect_location ctx
        (plugin.authorizationUrl flow authz (randomToken state) (randomToken nonce)
          (pkceChallenge (randomToken verifier))) [sealedCookie flow ctx flow.flowCookie value flowTtl]
      refine Or.inr ⟨before, authz, state, nonce, verifier, List.prefix_append _ _, hfound, ?_⟩
      exact (congrArg (fun sent => (PluginResult.context sent).response.headers["location"]?) hlast).trans
        hlocation

/-- **The redirect.**  The URL says what the endpoint says and then the node's own parameters exactly when
    the endpoint has neither a query nor a fragment, and this is the URL a run of `begin_auth` sends the
    browser to. -/
theorem authorization_query_iff (plugin : OpenidConnectPlugin) (flow : Interactive) :
    (∀ authz state nonce challenge : String,
      decodedQuery (plugin.authorizationUrl flow authz state nonce challenge) =
        decodedQuery authz ++ (plugin.authorizationParams flow state nonce challenge).map pairBytes ↔
      '?' ∉ authz.toList ∧ '#' ∉ authz.toList) ∧
    ∀ (ctx : Context) (events : List OidcEvent) (result : PluginResult),
      (plugin.beginAuth flow ctx).Ran events result →
      (∃ message, result = reject ctx message) ∨
      ∃ before authz state nonce verifier, before <+: events ∧
        (plugin.authorizationEndpoint flow).Ran before (.ok authz) ∧
        (PluginResult.context result).response.headers["location"]? =
          some [plugin.authorizationUrl flow authz (randomToken state) (randomToken nonce)
            (pkceChallenge (randomToken verifier))] := by
  refine ⟨fun authz state nonce challenge => ?_, fun ctx events result hran => beginAuth_sends hran⟩
  rw [authorizationUrl_eq]
  exact decodedQuery_append_iff authz (List.cons_ne_nil _ _)

end Runs

/-- An endpoint with a parameter of its own: that parameter takes in the first one that is appended. -/
theorem authorization_query_lost :
    let _ : Sha256 := cutDigest
    decodedQuery ((appNode "a").authorizationUrl (appFlow "a")
        "https://idp.example.com/authorize?tenant=a" "s" "n" "c") ≠
      decodedQuery "https://idp.example.com/authorize?tenant=a" ++
        ((appNode "a").authorizationParams (appFlow "a") "s" "n" "c").map pairBytes := by
  intro _ hsame
  rw [authorizationUrl_eq] at hsame
  have hplain := (decodedQuery_append_iff _ (List.cons_ne_nil _ _)).mp hsame
  exact hplain.1 (by decide)

end OpenidConnectPlugin

end Featherbit
