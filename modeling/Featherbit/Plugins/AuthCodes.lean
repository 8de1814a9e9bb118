/-
  CODES AND TICKETS (`openid-connect`, `authz-casdoor`, `feishu-auth`, `cas-auth`), from the callback URL
  to the provider that redeems them.

  1. **At the callback** (`CallbackOf`) — a provider appends a value percent-encoded, and the gateway keeps the
     text of the query as it stands (`first_eq`).  So a node knows the value exactly when nothing in it
     was escaped (`text_eq_iff`).
  2. **To the provider** — a form (`decodedPairs_written`), a query and a JSON body are read back as what was
     put in.
  3. **A node** — which requests it makes at a callback: of `openid-connect` over a run
     (`handleCallback_asks`), of the others by what their outcome depends on (`Asks`).
-/
import Featherbit.Plugins.AuthzCasdoor
import Featherbit.Plugins.ExternalAuth
import Featherbit.Plugins.OidcAuthorize
import Featherbit.Rust.Utf8Prefix

namespace Featherbit

open Tasks Vars

/-! ## At the callback -/

/-- A byte that may stand in the value of a parameter as it is. -/
def standsInQuery (b : UInt8) : Bool := 0x21 ≤ b && b ≤ 0x7E && b ≠ 0x23 && b ≠ 0x25 && b ≠ 0x26

/-- A text of bytes, some of them as they are and the others escaped. -/
inductive PercentEncodes : Bytes → Bytes → Prop where
  | nil : PercentEncodes [] []
  | kept {b : UInt8} {bytes text : Bytes} (hb : standsInQuery b = true) (rest : PercentEncodes bytes text) :
      PercentEncodes (b :: bytes) (b :: text)
  | escaped {hi lo h l : UInt8} {bytes text : Bytes} (hhi : hexVal hi = some h) (hlo : hexVal lo = some l)
      (rest : PercentEncodes bytes text) : PercentEncodes ((h * 16 + l) :: bytes) (0x25 :: hi :: lo :: text)

theorem PercentEncodes.length_le {bytes text : Bytes} (h : PercentEncodes bytes text) :
    bytes.length ≤ text.length := by
  induction h with
  | nil => exact Nat.le_refl _
  | kept hb rest ih =>
    simp only [List.length_cons]
    omega
  | escaped hhi hlo rest ih =>
    simp only [List.length_cons]
    omega

/-- The text is the bytes where nothing is escaped, and only there. -/
theorem PercentEncodes.eq_iff {bytes text : Bytes} (h : PercentEncodes bytes text) :
    text = bytes ↔ 0x25 ∉ text := by
  induction h with
  | nil => exact iff_of_true rfl List.not_mem_nil
  | @kept b bytes text hb rest ih =>
    have hpercent : (0x25 : UInt8) ≠ b := by
      rintro rfl
      exact absurd hb (by decide)
    rw [List.cons.injEq, List.mem_cons, not_or, ih]
    exact and_congr_left fun _ => iff_of_true rfl hpercent
  | escaped hhi hlo rest ih =>
    refine iff_of_false (fun heq => ?_) fun hmem => hmem List.mem_cons_self
    have hlength := congrArg List.length heq
    have hle := rest.length_le
    simp only [List.length_cons] at hlength
    omega

/-- A callback with a value under a name, that the provider appended to the callback URL. -/
structure CallbackOf (ctx : Context) (key value : String) where
  parts : HttpParts
  body : Bytes
  remoteAddr : String
  /-- nothing on the way to the node has changed the parameters -/
  arrived : ctx.request.queryParams = (GatewayRequest.fromHyper parts body remoteAddr).queryParams
  query : String
  has_query : parts.uri.query = some query
  /-- the parameters of the callback URL, and what the provider puts in front -/
  before : List (String × String)
  after : List (String × String)
  /-- the value, encoded -/
  text : String
  pieces : queryPieces query = before ++ (key, text) :: after
  first : ∀ pair ∈ before, pair.1 ≠ key
  encodes : PercentEncodes (asBytes value) (asBytes text)

namespace CallbackOf

variable {ctx : Context} {key value : String}

/-- Nothing in the value is escaped. -/
def Unescaped (callback : CallbackOf ctx key value) : Prop := '%' ∉ callback.text.toList

/-- The gateway keeps the text of the parameter. -/
theorem first_eq (callback : CallbackOf ctx key value) :
    ctx.request.queryParams[key]?.bind List.head? = some callback.text := by
  have hvalues : Multimap.valuesOf key (queryPieces callback.query) =
      callback.text :: Multimap.valuesOf key callback.after := by
    rw [callback.pieces, Multimap.valuesOf_append, Multimap.valuesOf_eq_nil.mpr callback.first,
      List.nil_append, Multimap.valuesOf_cons, if_pos rfl]
  rw [callback.arrived]
  show ((parseQuery callback.parts.uri.query)[key]?).bind _ = _
  rw [callback.has_query]
  show ((Multimap.ofPairs (queryPieces callback.query))[key]?).bind _ = _
  rw [Multimap.getElem?_ofPairs, hvalues, if_neg (List.cons_ne_nil _ _)]
  rfl

/-- The text is the value exactly when nothing in it is escaped. -/
theorem text_eq_iff (callback : CallbackOf ctx key value) : callback.text = value ↔ callback.Unescaped := by
  have hpercent := mem_asBytes_iff (show '%'.toNat < 128 by decide) callback.text
  rw [← asBytes_inj, callback.encodes.eq_iff]
  exact hpercent.not

end CallbackOf

/-! ## To the provider -/

/-- The fields of a form. -/
def formPairs (body : Bytes) : List (Bytes × Bytes) := ((fromUtf8 body).map decodedPairs).getD []

/-- Under this name there is this value, and no other. -/
def Says (pairs : List (Bytes × Bytes)) (key value : String) : Prop :=
  (pairs.filter fun pair => pair.1 = asBytes key).map Prod.snd = [asBytes value]

/-- An encoder for the fields of a form: it is undone, and writes nothing that separates. -/
structure FormEncoder (encode : String → String) : Prop where
  decoded : ∀ s, urldecodeBytes (asBytes (encode s)) = asBytes s
  plain : ∀ s, '=' ∉ (encode s).toList ∧ '&' ∉ (encode s).toList

/-- A pair, written. -/
def writePair (encode : String → String) (pair : String × String) : String × String :=
  (encode pair.1, encode pair.2)

/-- Written fields are read back. -/
theorem decodedPairs_written {encode : String → String} (hencode : FormEncoder encode)
    {pairs : List (String × String)} (hne : pairs ≠ []) :
    decodedPairs ("&".intercalate ((pairs.map (writePair encode)).map joinPair)) = pairs.map pairBytes := by
  unfold decodedPairs
  rw [queryPieces_joined fun h => hne (List.map_eq_nil_iff.mp h), List.map_map]
  · refine List.map_congr_left fun pair _ => ?_
    exact Prod.ext (hencode.decoded pair.1) (hencode.decoded pair.2)
  · intro pair hpair
    obtain ⟨source, -, rfl⟩ := List.mem_map.mp hpair
    refine ⟨(hencode.plain source.1).1, fun hmem => ?_⟩
    rw [joinPair, String.toList_append, String.toList_append] at hmem
    rcases List.mem_append.mp hmem with hmem | hmem
    · rcases List.mem_append.mp hmem with hmem | hmem
      · exact (hencode.plain source.1).2 hmem
      · exact absurd hmem (by decide)
    · exact (hencode.plain source.2).2 hmem

/-- Fields that were written say what was put in. -/
theorem says_map_iff (pairs : List (String × String)) (key value : String) :
    Says (pairs.map pairBytes) key value ↔ Multimap.valuesOf key pairs = [value] := by
  have hvalues : ((pairs.map pairBytes).filter fun pair => pair.1 = asBytes key).map Prod.snd =
      (Multimap.valuesOf key pairs).map asBytes := by
    induction pairs with
    | nil => rfl
    | cons pair pairs ih =>
      rw [List.map_cons, List.filter_cons, Multimap.valuesOf_cons]
      by_cases hkey : pair.1 = key
      · have hbytes : (pairBytes pair).1 = asBytes key := congrArg asBytes hkey
        rw [if_pos hkey, if_pos (decide_eq_true hbytes), List.map_cons, List.map_cons, ih]
        rfl
      · have hbytes : (pairBytes pair).1 ≠ asBytes key := fun h => hkey (asBytes_inj.mp h)
        rw [if_neg hkey, if_neg (by simpa using hbytes), ih]
  have hinj : Function.Injective asBytes := fun _ _ h => asBytes_inj.mp h
  unfold Says
  rw [hvalues]
  exact (List.map_injective_iff.mpr hinj).eq_iff (b := [value])

/-- The fields of a form that was written. -/
theorem formPairs_written {encode : String → String} (hencode : FormEncoder encode)
    {pairs : List (String × String)} (hne : pairs ≠ []) {form : String}
    (hform : form = "&".intercalate ((pairs.map (writePair encode)).map joinPair)) :
    formPairs (asBytes form) = pairs.map pairBytes := by
  unfold formPairs
  rw [fromUtf8_asBytes, Option.map_some, Option.getD_some, hform, decodedPairs_written hencode hne]

namespace OpenidConnect

theorem formEncoder : FormEncoder formEncode where
  decoded := urldecodeBytes_formEncode
  plain s := ⟨fun h => (formEncode_chars s _ h).2.1 rfl, fun h => (formEncode_chars s _ h).1 rfl⟩

end OpenidConnect

namespace AuthzCasdoorPlugin

/-- The text of one byte, as bytes, is read back. -/
theorem urldecodeBytes_formEncodeByte (b : UInt8) (rest : Bytes) :
    urldecodeBytes ((formEncodeByte b).flatMap String.utf8EncodeChar ++ rest) = b :: urldecodeBytes rest := by
  unfold formEncodeByte
  split
  · rename_i hspace
    rw [hspace]
    exact urldecodeBytes_plus rest
  · have hone := asBytes_ofList (OpenidConnect.formEncodeByte b)
    have hsingle : OpenidConnect.formEncodeByte b =
        (percentBytes OpenidConnect.isUnreserved [b]).toList := by
      rw [percentBytes, String.toList_ofList, List.flatMap_singleton]
      rfl
    rw [← hone, hsingle, String.ofList_toList,
      asBytes_percentBytes (fun c hc => OpenidConnect.isUnreserved_ascii hc), List.flatMap_singleton]
    split
    · rename_i hkept
      refine urldecodeBytes_cons ?_ fun h => ?_
      · rintro rfl
        exact absurd hkept (by decide)
      · subst h
        exact absurd hkept (by decide)
    · exact urldecodeBytes_percentByte b rest

theorem formEncoder : FormEncoder formEncode where
  decoded s := by
    unfold formEncode
    rw [asBytes_ofList, List.flatMap_assoc]
    exact urldecodeBytes_flatMap urldecodeBytes_formEncodeByte (asBytes s)
  plain s := by
    have hchars : ∀ c ∈ (formEncode s).toList, c ≠ '=' ∧ c ≠ '&' := by
      intro c hc
      unfold formEncode at hc
      rw [String.toList_ofList] at hc
      obtain ⟨b, -, hc⟩ := List.mem_flatMap.mp hc
      unfold formEncodeByte at hc
      split at hc
      · rw [List.mem_singleton.mp hc]
        decide
      · obtain ⟨hamp, heq, -⟩ := OpenidConnect.formEncodeByte_chars b c hc
        exact ⟨heq, hamp⟩
    exact ⟨fun h => (hchars _ h).1 rfl, fun h => (hchars _ h).2 rfl⟩

end AuthzCasdoorPlugin

/-! ## What a node asks for -/

/-- The outcome depends on the answer to this request. -/
def Asks (run : OutboundClient → PluginResult) (request : OutboundRequest) : Prop :=
  ∃ client client' : OutboundClient, (∀ other, other ≠ request → client other = client' other) ∧
    run client ≠ run client'

/-- A run that depends on nothing but some requests asks for one of these. -/
theorem Asks.mem {run : OutboundClient → PluginResult} {request : OutboundRequest}
    (h : Asks run request) (made : OutboundRequest → Prop)
    (hmade : ∀ client client' : OutboundClient, (∀ other, made other → client other = client' other) →
      run client = run client') : made request := by
  obtain ⟨client, client', hsame, hdiff⟩ := h
  by_contra hnot
  exact hdiff (hmade client client' fun other hother => hsame other fun heq => hnot (heq ▸ hother))

namespace OpenidConnectPlugin

open OpenidConnect

section Requests

variable {plugin : OpenidConnectPlugin}

/-- A request without a body, or no request. -/
def GetsOnly (_ : List OidcEvent) : OidcCall → Prop
  | .request r => r.body = []
  | _ => True

variable [JsonStructCodec]

theorem readFlow_gets (past : List OidcEvent) (flow : Interactive) (ctx : Context) :
    (readFlow flow ctx).Keeps GetsOnly (fun _ _ => True) past := by
  have hopened : (openedCookie flow ctx flow.flowCookie).Keeps GetsOnly (fun _ _ => True) past := by
    unfold openedCookie
    cases requestCookie ctx flow.flowCookie with
    | none => trivial
    | some raw =>
      refine Task.Keeps.bind (M := fun _ _ => True) ⟨trivial, fun _ _ => trivial⟩ fun past opened _ _ => ?_
      cases opened with
      | error e => trivial
      | ok bytes => trivial
  exact hopened.bind fun _ _ _ _ => trivial

variable [DurationText]

theorem discover_gets (past : List OidcEvent) (cell : UriCell) (field missing : String) :
    (plugin.discover cell field missing).Keeps GetsOnly (fun _ _ => True) past := by
  refine Task.Keeps.bind (M := fun _ _ => True) ⟨trivial, fun _ _ => trivial⟩ fun past uri _ _ => ?_
  cases uri with
  | some uri => trivial
  | none =>
    cases plugin.discovery with
    | none => trivial
    | some discovery =>
      refine Task.Keeps.bind (M := fun _ _ => True) ⟨rfl, fun _ _ => trivial⟩ fun past resp _ _ => ?_
      cases resp with
      | error e => trivial
      | ok resp =>
        dsimp only
        cases readDiscovery field resp with
        | error e => trivial
        | ok uri => exact ⟨trivial, fun _ _ => trivial⟩

theorem tokenEndpoint_gets (past : List OidcEvent) (flow : Interactive) :
    (plugin.tokenEndpoint flow).Keeps GetsOnly (fun _ _ => True) past := by
  unfold tokenEndpoint
  cases flow.tokenEndpointCfg with
  | some uri => trivial
  | none => exact discover_gets past _ _ _

theorem fetchJwks_gets (past : List OidcEvent) :
    plugin.fetchJwks.Keeps GetsOnly (fun _ _ => True) past := by
  have huri : plugin.jwksUri.Keeps GetsOnly (fun _ _ => True) past := by
    unfold jwksUri
    cases plugin.jwksUriCfg with
    | some uri => trivial
    | none => exact discover_gets past _ _ _
  refine huri.bind fun past uri _ _ => ?_
  cases uri with
  | error e => trivial
  | ok uri =>
    refine Task.Keeps.bind (M := fun _ _ => True) ⟨rfl, fun _ _ => trivial⟩ fun past resp _ _ => ?_
    cases resp with
    | error e => trivial
    | ok resp => trivial

theorem getJwks_gets (past : List OidcEvent) (force : Bool) :
    (plugin.getJwks force).Keeps GetsOnly (fun _ _ => True) past := by
  refine Task.Keeps.bind (M := fun _ _ => True) ⟨trivial, fun _ _ => trivial⟩ fun past cache _ _ => ?_
  refine Task.Keeps.bind (M := fun _ _ => True) ⟨trivial, fun _ _ => trivial⟩ fun past now _ _ => ?_
  cases cache.filter fun c => !force && decide (now - c.fetchedAt < plugin.jwkTtl) with
  | some fresh => exact ⟨trivial, fun _ _ => trivial⟩
  | none =>
    refine (fetchJwks_gets past).bind fun past found _ _ => ?_
    cases found with
    | error e => exact ⟨trivial, fun _ _ => trivial⟩
    | ok keys => exact ⟨trivial, fun _ _ => ⟨trivial, fun _ _ => trivial⟩⟩

variable [JsonWebToken]

theorem validateViaJwks_gets (past : List OidcEvent) (token : String) :
    (plugin.validateViaJwks token).Keeps GetsOnly (fun _ _ => True) past := by
  have hjwk : ∀ (kid : Option String) (past : List OidcEvent),
      (plugin.jwkFor kid).Keeps GetsOnly (fun _ _ => True) past := by
    intro kid past
    refine (getJwks_gets past false).bind fun past found _ _ => ?_
    cases found with
    | error e => trivial
    | ok keys =>
      cases hselect : selectJwk keys kid with
      | some jwk =>
        simp only [hselect]
        trivial
      | none =>
        simp only [hselect]
        refine (getJwks_gets past true).bind fun past found _ _ => ?_
        cases found with
        | error e => trivial
        | ok keys =>
          cases hselect : selectJwk keys kid with
          | some jwk =>
            simp only [hselect]
            trivial
          | none =>
            simp only [hselect]
            trivial
  unfold validateViaJwks
  cases JsonWebToken.decodeHeader token with
  | error e => trivial
  | ok kid =>
    refine (hjwk kid past).bind fun past found _ _ => ?_
    cases found with
    | error e => trivial
    | ok jwk => exact ⟨trivial, fun _ _ => trivial⟩

theorem finishLogin_gets (past : List OidcEvent) (flow : Interactive) (ctx : Context)
    (flowState : FlowState) (tokens : Json) :
    (plugin.finishLogin flow ctx flowState tokens).Keeps GetsOnly (fun _ _ => True) past := by
  unfold finishLogin
  cases (tokens.get "id_token").bind Json.asStr with
  | none => trivial
  | some idToken =>
    refine (validateViaJwks_gets past idToken).bind fun past found _ _ => ?_
    cases found with
    | error e => trivial
    | ok claims =>
      show Task.Keeps _ _ _ (if claims["nonce"]?.bind Json.asStr ≠ some flowState.nonce then _ else _)
      split
      · trivial
      · exact ⟨trivial, fun _ _ => trivial⟩

end Requests

section Callback

variable [Base64Codec] {plugin : OpenidConnectPlugin}

/-- A request without a body, or the one that exchanges this code. -/
def Exchanges (plugin : OpenidConnectPlugin) (code : String) (_ : List OidcEvent) : OidcCall → Prop
  | .request r => r.body = [] ∨ ∃ endpoint verifier redirectUri,
      r = plugin.exchangeRequest endpoint code verifier redirectUri
  | _ => True

theorem GetsOnly.exchanges {code : String} {past : List OidcEvent} {call : OidcCall}
    (h : GetsOnly past call) : plugin.Exchanges code past call := by
  cases call with
  | request r => exact Or.inl h
  | _ => trivial

/-- A task that makes no other request than gets, among those of the callback. -/
theorem exchanges_of_gets {α : Type} {task : OidcTask α} {past : List OidcEvent} (code : String)
    (h : task.Keeps GetsOnly (fun _ _ => True) past) :
    task.Keeps (plugin.Exchanges code) (fun _ _ => True) past :=
  (h.weaken fun _ _ hgets => hgets.exchanges).mono fun _ _ _ _ => trivial

variable [JsonStructCodec] [JsonWebToken] [DurationText]

/-- **At a callback** only the request that exchanges the code has a body. -/
theorem handleCallback_asks (past : List OidcEvent) (flow : Interactive) (ctx : Context) :
    (plugin.handleCallback flow ctx).Keeps (plugin.Exchanges ((firstQuery ctx "code").getD ""))
      (fun _ _ => True) past := by
  unfold handleCallback
  refine (exchanges_of_gets _ (readFlow_gets past flow ctx)).bind fun past found _ _ => ?_
  cases found with
  | none => trivial
  | some flowState =>
    show Task.Keeps _ _ _ (if flowState.state ≠ (firstQuery ctx "state").getD "" ∨
      (firstQuery ctx "state").getD "" = "" then _ else _)
    split
    · trivial
    · refine (exchanges_of_gets _ (tokenEndpoint_gets past flow)).bind fun past endpoint _ _ => ?_
      cases endpoint with
      | error e => trivial
      | ok endpoint =>
        have hexchange : (plugin.exchangeCode endpoint ((firstQuery ctx "code").getD "")
            flowState.verifier flow.redirectUri).Keeps
            (plugin.Exchanges ((firstQuery ctx "code").getD "")) (fun _ _ => True) past := by
          refine Task.Keeps.bind (M := fun _ _ => True)
            ⟨Or.inr ⟨_, _, _, rfl⟩, fun _ _ => trivial⟩ fun past resp _ _ => ?_
          cases resp with
          | error e => trivial
          | ok resp =>
            show Task.Keeps _ _ _ (if resp.status ≠ 200 then _ else _)
            split
            · trivial
            · cases JsonCodec.parse resp.body with
              | none => trivial
              | some tokens => trivial
        refine hexchange.bind fun past tokens _ _ => ?_
        cases tokens with
        | error e => trivial
        | ok tokens => exact exchanges_of_gets _ (finishLogin_gets past flow ctx flowState tokens)

omit [JsonStructCodec] [JsonWebToken] [DurationText] in
/-- The form that exchanges a code. -/
theorem formPairs_exchangeRequest (endpoint code verifier redirectUri : String) :
    formPairs (plugin.exchangeRequest endpoint code verifier redirectUri).body =
      [("grant_type", "authorization_code"), ("code", code), ("redirect_uri", redirectUri),
        ("code_verifier", verifier), ("client_id", plugin.clientId.getD "")].map pairBytes := by
  have hplain : ∀ name ∈ ["grant_type", "authorization_code", "code", "redirect_uri", "code_verifier",
      "client_id"], formEncode name = name := by
    intro name hname
    refine formEncode_unreserved fun b hb => ?_
    revert b hb name
    decide +kernel
  simp only [List.forall_mem_cons, List.not_mem_nil, false_implies, implies_true, and_true] at hplain
  obtain ⟨htype, hauthorization, hcode, hredirect, hverifier, hclient⟩ := hplain
  refine formPairs_written formEncoder (List.cons_ne_nil _ _) ?_
  simp only [List.map_cons, List.map_nil, writePair, joinPair, htype, hauthorization, hcode, hredirect,
    hverifier, hclient]
  rw [← String.toList_inj]
  simp [String.toList_append]

/-- A request with a body says the code exactly when nothing in it is escaped. -/
theorem exchange_says_iff {flow : Interactive} {ctx : Context} {code : String}
    (callback : CallbackOf ctx "code" code) {events : List OidcEvent} {result : PluginResult}
    (hran : (plugin.handleCallback flow ctx).Ran events result) {r : OutboundRequest}
    {answer : Except OutboundError OutboundResponse} (hdid : Did events (.request r) answer)
    (hbody : r.body ≠ []) : Says (formPairs r.body) "code" code ↔ callback.Unescaped := by
  obtain ⟨e, he, hwhat⟩ := hdid
  obtain ⟨before, after, hsplit⟩ := List.append_of_mem he
  have hasked := ((handleCallback_asks [] flow ctx).ran hran).2 before e after hsplit
  rw [hwhat] at hasked
  obtain ⟨endpoint, verifier, redirectUri, rfl⟩ := hasked.resolve_left hbody
  have hcode : (firstQuery ctx "code").getD "" = callback.text := by
    rw [firstQuery, callback.first_eq, Option.getD_some]
  rw [hcode, formPairs_exchangeRequest, says_map_iff, ← callback.text_eq_iff]
  simp [Multimap.valuesOf_cons]

end Callback

end OpenidConnectPlugin

namespace AuthzCasdoorPlugin

section Callback

variable [Aes256Gcm] [Base64Url] [JsonStructCodec] [DurationText] {plugin : AuthzCasdoorPlugin}

omit [Aes256Gcm] [Base64Url] [JsonStructCodec] [DurationText] in
theorem formPairs_exchangeRequest (code : String) :
    formPairs (plugin.exchangeRequest code).body =
      [("grant_type", "authorization_code"), ("code", code), ("client_id", plugin.clientId),
        ("client_secret", plugin.clientSecret)].map pairBytes := by
  have hplain : formEncode "grant_type" = "grant_type" ∧
      formEncode "authorization_code" = "authorization_code" ∧ formEncode "code" = "code" ∧
      formEncode "client_id" = "client_id" ∧ formEncode "client_secret" = "client_secret" := by
    decide +kernel
  obtain ⟨htype, hauthorization, hcode, hclient, hsecret⟩ := hplain
  refine formPairs_written formEncoder (List.cons_ne_nil _ _) ?_
  unfold accessTokenBody
  simp only [List.map_cons, List.map_nil, writePair, joinPair, htype, hauthorization, hcode, hclient, hsecret]
  rw [← String.toList_inj]
  simp [String.toList_append]

omit [DurationText] in
/-- The code that is exchanged is the text of the parameter. -/
theorem text_of_exchangedCode {turn : CasdoorTurn} {ctx : Context} {code value : String}
    (callback : CallbackOf ctx "code" value) (h : plugin.exchangedCode turn ctx = some code) :
    code = callback.text := by
  unfold exchangedCode at h
  obtain ⟨sealer, -, h⟩ := Option.bind_eq_some_iff.mp h
  split at h
  · cases h
  · obtain ⟨flow, -, h⟩ := Option.bind_eq_some_iff.mp h
    split at h
    · cases h
    · rw [queryFirst, callback.first_eq] at h
      exact (Option.some.inj (Option.filter_eq_some_iff.mp h).1).symm

theorem exchange_says_iff (hsealer : plugin.sealer.isSome = true) {turn : CasdoorTurn} {ctx : Context}
    {code : String} (callback : CallbackOf ctx "code" code) {r : OutboundRequest}
    (hasks : Asks (fun client => plugin.execute client turn ctx) r) :
    Says (formPairs r.body) "code" code ↔ callback.Unescaped := by
  obtain ⟨sent, hsent, rfl⟩ := hasks.mem
    (fun r => ∃ sent, plugin.exchangedCode turn ctx = some sent ∧ r = plugin.exchangeRequest sent)
    fun client client' hsame => plugin.execute_congr hsealer fun sent hsent => hsame _ ⟨sent, hsent, rfl⟩
  rw [text_of_exchangedCode callback hsent, formPairs_exchangeRequest, says_map_iff,
    ← callback.text_eq_iff]
  simp [Multimap.valuesOf_cons]

end Callback

end AuthzCasdoorPlugin

namespace CasAuthPlugin

/-- The parameters of the URL that validates a ticket. -/
def validateParams (ticket service : String) : List (String × String) :=
  [("ticket", ticket), ("service", service)]

theorem buildValidateUrl_eq (idpUri ticket service : String) :
    buildValidateUrl idpUri ticket service =
      idpUri ++ "/serviceValidate" ++ "?" ++ OpenidConnect.encodedQuery (validateParams ticket service) := by
  have hplain : OpenidConnect.formEncode "ticket" = "ticket" ∧ OpenidConnect.formEncode "service" = "service" := by
    decide +kernel
  have hencode : ∀ s, percentEncode s = OpenidConnect.formEncode s := fun s => rfl
  unfold buildValidateUrl OpenidConnect.encodedQuery validateParams
  simp only [List.map_cons, List.map_nil, OpenidConnect.encodePair, joinPair, hplain.1, hplain.2, hencode]
  rw [← String.toList_inj]
  simp [String.toList_append]

/-- The URL says a ticket and the service, besides what the endpoint says, exactly when the endpoint has
    neither a query nor a fragment and this is the ticket. -/
theorem validate_says_iff (idpUri sent ticket service : String) :
    decodedQuery (buildValidateUrl idpUri sent service) =
        decodedQuery (idpUri ++ "/serviceValidate") ++ (validateParams ticket service).map pairBytes ↔
      ('?' ∉ idpUri.toList ∧ '#' ∉ idpUri.toList) ∧ sent = ticket := by
  have hend : ('?' ∉ (idpUri ++ "/serviceValidate").toList ∧ '#' ∉ (idpUri ++ "/serviceValidate").toList) ↔
      '?' ∉ idpUri.toList ∧ '#' ∉ idpUri.toList := by
    rw [String.toList_append, List.mem_append, List.mem_append]
    have hsuffix : '?' ∉ "/serviceValidate".toList ∧ '#' ∉ "/serviceValidate".toList := by decide +kernel
    simp only [hsuffix.1, hsuffix.2, or_false]
  have hne : validateParams sent service ≠ [] := List.cons_ne_nil _ _
  rw [buildValidateUrl_eq, ← hend]
  constructor
  · intro hsays
    have hplain := OpenidConnect.plain_of_length hne
      ((congrArg List.length hsays).trans (by rw [List.length_append, List.length_map]; rfl))
    refine ⟨hplain, ?_⟩
    rw [(OpenidConnect.decodedQuery_append_iff _ hne).mpr hplain] at hsays
    have hpair := (List.cons.inj (List.append_cancel_left hsays)).1
    exact asBytes_inj.mp (Prod.mk.inj hpair).2
  · rintro ⟨hplain, rfl⟩
    exact (OpenidConnect.decodedQuery_append_iff _ hne).mpr hplain

section Callback

variable [Aes256Gcm] [Base64Url] [JsonStructCodec] [DurationText] {plugin : CasAuthPlugin}

/-- The node asks for nothing but the validation of its ticket. -/
theorem execute_congr {client client' : OutboundClient} {now issued : UInt64} {nonce : Nonce} {ctx : Context}
    (h : ∀ ticket, extractTicket ctx.request.queryParams plugin.ticketParam = some ticket →
      client (plugin.validateRequest ctx ticket) = client' (plugin.validateRequest ctx ticket)) :
    plugin.execute client now issued nonce ctx = plugin.execute client' now issued nonce ctx := by
  have hvalidate : ∀ ticket, extractTicket ctx.request.queryParams plugin.ticketParam = some ticket →
      plugin.casValidate client ctx ticket = plugin.casValidate client' ctx ticket := by
    intro ticket hticket
    unfold casValidate
    rw [h ticket hticket]
  unfold execute executeInteractive executeStateless
  cases hticket : extractTicket ctx.request.queryParams plugin.ticketParam with
  | none => rfl
  | some ticket =>
    dsimp only
    rw [hvalidate ticket hticket]

/-- A node without sessions asks for the validation of its ticket. -/
theorem asks_ticket (plugin : CasAuthPlugin) (hsealer : plugin.sealer = none) (now issued : UInt64)
    (nonce : Nonce) {ctx : Context} {ticket : String} (hticket : extractTicket ctx.request.queryParams plugin.ticketParam = some ticket) :
    Asks (fun client => plugin.execute client now issued nonce ctx) (plugin.validateRequest ctx ticket) := by
  -- two answers that are not the same error
  refine ⟨fun _ => .error (.transport "a"),
    fun r => .error (.transport (if r = plugin.validateRequest ctx ticket then "b" else "a")),
    fun other hother => ?_, fun hsame => ?_⟩
  · dsimp only
    rw [if_neg hother]
  · unfold execute executeStateless casValidate at hsame
    rw [hsealer, hticket] at hsame
    dsimp only at hsame
    rw [if_pos rfl] at hsame
    have hmessage := Except.error.inj hsame
    injection hmessage with _ hmessage
    injection hmessage with _ _ hmessage
    have htext := String.append_right_inj _ |>.mp hmessage
    exact absurd (String.append_right_inj _ |>.mp htext) (by decide)

theorem ticket_says_iff {now issued : UInt64} {nonce : Nonce} {ctx : Context} {ticket : String}
    (callback : CallbackOf ctx plugin.ticketParam ticket) {r : OutboundRequest}
    (hasks : Asks (fun client => plugin.execute client now issued nonce ctx) r) :
    decodedQuery r.url = decodedQuery (plugin.idpUri ++ "/serviceValidate") ++
        (validateParams ticket (plugin.serviceUrl ctx)).map pairBytes ↔
      ('?' ∉ plugin.idpUri.toList ∧ '#' ∉ plugin.idpUri.toList) ∧ callback.Unescaped := by
  obtain ⟨sent, hsent, rfl⟩ := hasks.mem
    (fun r => ∃ sent, extractTicket ctx.request.queryParams plugin.ticketParam = some sent ∧
      r = plugin.validateRequest ctx sent)
    fun client client' hsame => execute_congr fun sent hsent => hsame _ ⟨sent, hsent, rfl⟩
  have htext : callback.text = sent := by
    rw [extractTicket, callback.first_eq] at hsent
    exact Option.some.inj (Option.filter_eq_some_iff.mp hsent).1
  rw [← callback.text_eq_iff, htext]
  exact validate_says_iff plugin.idpUri sent ticket (plugin.serviceUrl ctx)

end Callback

end CasAuthPlugin

namespace FeishuAuthPlugin

section Callback

variable [JsonCodec] [JsonErrorText] [Base64Codec] [DurationText] {plugin : FeishuAuthPlugin}

omit [JsonErrorText] [Base64Codec] [DurationText] in
/-- The body is read back. -/
theorem tokenRequest_code (code : String) :
    (JsonCodec.parse (plugin.tokenRequest code).body).bind (Json.get "code") = some (.string code) := by
  have hkeys : ["client_id", "client_secret", "code", "grant_type", "redirect_uri"].Pairwise (· < ·) := by
    decide
  have hcanonical : (plugin.tokenRequestBody code).Canonical :=
    ⟨hkeys, ⟨trivial, trivial, trivial, trivial, trivial, trivial⟩⟩
  have hparse := JsonCodec.parse_toText (plugin.tokenRequestBody code) hcanonical (by
    show (plugin.tokenRequestBody code).depth < 128
    simp [tokenRequestBody, Json.depth, Json.depthFields])
  rw [tokenRequest, hparse]
  rfl

/-- The node asks for nothing but the token of its code, and then for user data. -/
theorem execute_congr {client client' : OutboundClient} {ctx : Context}
    (h : ∀ code, plugin.extractCode (stripped ctx) = some code →
      client (plugin.tokenRequest code) = client' (plugin.tokenRequest code))
    (huser : ∀ token, client (plugin.userinfoRequest token) = client' (plugin.userinfoRequest token)) :
    plugin.execute client ctx = plugin.execute client' ctx := by
  unfold execute
  dsimp only
  cases hcode : plugin.extractCode (stripped ctx) with
  | none => rfl
  | some code =>
    have htoken : plugin.fetchAccessToken client code = plugin.fetchAccessToken client' code := by
      unfold fetchAccessToken
      rw [h code hcode]
    have huserinfo : ∀ token, plugin.fetchUserinfo client token = plugin.fetchUserinfo client' token := by
      intro token
      unfold fetchUserinfo
      rw [huser token]
    simp only [htoken, huserinfo]

/-- Without a code in a header, the request that exchanges one says the code exactly when nothing in it is
    escaped. -/
theorem exchange_says_iff {ctx : Context} {code : String} (callback : CallbackOf ctx plugin.codeQuery code)
    (hheader : ctx.request.headers[plugin.codeHeader]? = none) {r : OutboundRequest}
    (hasks : Asks (fun client => plugin.execute client ctx) r) (hpost : r.method = "POST") :
    (JsonCodec.parse r.body).bind (Json.get "code") = some (.string code) ↔ callback.Unescaped := by
  have hmade := hasks.mem
    (fun r => (∃ sent, plugin.extractCode (stripped ctx) = some sent ∧ r = plugin.tokenRequest sent) ∨
      ∃ token, r = plugin.userinfoRequest token)
    fun client client' hsame => execute_congr (fun sent hsent => hsame _ (Or.inl ⟨sent, hsent, rfl⟩))
      fun token => hsame _ (Or.inr ⟨token, rfl⟩)
  rcases hmade with ⟨sent, hsent, rfl⟩ | ⟨token, rfl⟩
  · have hstripped : (stripped ctx).request.headers[plugin.codeHeader]? = none := by
      show (ctx.request.headers.erase "x-userinfo")[plugin.codeHeader]? = none
      rw [HashMap.get_erase, hheader]
      exact ite_self none
    have hquery : ((stripped ctx).request.queryParams[plugin.codeQuery]?).bind List.head? =
        some callback.text := callback.first_eq
    have htext : callback.text = sent := by
      rw [extractCode, hstripped, hquery] at hsent
      exact Option.some.inj (Option.filter_eq_some_iff.mp hsent).1
    rw [tokenRequest_code, ← callback.text_eq_iff, htext, Option.some.injEq, Json.string.injEq]
  · exact absurd hpost (show ¬ "GET" = "POST" by decide)

end Callback

end FeishuAuthPlugin

/-! ## The four nodes -/

section Nodes

variable [Aes256Gcm] [Base64Url] [Base64Codec] [JsonStructCodec] [JsonErrorText] [JsonWebToken]
  [DurationText]

/-- **Codes and tickets.**  What a node sends to redeem the code or ticket of a callback is read back as this
    code or ticket exactly when nothing in it was escaped on the way to the gateway (and, of `cas-auth`, the
    server is configured with neither a query nor a fragment). -/
theorem codes_reach_provider_iff :
    (∀ (plugin : OpenidConnectPlugin) (flow : Interactive) (ctx : Context) (code : String)
        (callback : CallbackOf ctx "code" code) (events : List OidcEvent) (result : PluginResult),
      (plugin.handleCallback flow ctx).Ran events result →
      ∀ (r : OutboundRequest) (answer : Except OutboundError OutboundResponse),
        OpenidConnectPlugin.Did events (.request r) answer → r.body ≠ [] →
        (Says (formPairs r.body) "code" code ↔ callback.Unescaped)) ∧
    (∀ (plugin : AuthzCasdoorPlugin) (turn : CasdoorTurn) (ctx : Context) (code : String)
        (callback : CallbackOf ctx "code" code), plugin.sealer.isSome = true →
      ∀ r, Asks (fun client => plugin.execute client turn ctx) r →
        (Says (formPairs r.body) "code" code ↔ callback.Unescaped)) ∧
    (∀ (plugin : FeishuAuthPlugin) (ctx : Context) (code : String)
        (callback : CallbackOf ctx plugin.codeQuery code),
      ctx.request.headers[plugin.codeHeader]? = none →
      ∀ r, Asks (fun client => plugin.execute client ctx) r → r.method = "POST" →
        ((JsonCodec.parse r.body).bind (Json.get "code") = some (.string code) ↔ callback.Unescaped)) ∧
    ∀ (plugin : CasAuthPlugin) (now issued : UInt64) (nonce : Nonce) (ctx : Context) (ticket : String)
        (callback : CallbackOf ctx plugin.ticketParam ticket),
      ∀ r, Asks (fun client => plugin.execute client now issued nonce ctx) r →
        (decodedQuery r.url = decodedQuery (plugin.idpUri ++ "/serviceValidate") ++
            (CasAuthPlugin.validateParams ticket (plugin.serviceUrl ctx)).map pairBytes ↔
          ('?' ∉ plugin.idpUri.toList ∧ '#' ∉ plugin.idpUri.toList) ∧ callback.Unescaped) := by
  refine ⟨?_, ?_, ?_, ?_⟩
  · intro plugin flow ctx code callback events result hran r answer hdid hbody
    exact OpenidConnectPlugin.exchange_says_iff callback hran hdid hbody
  · intro plugin turn ctx code callback hsealer r hasks
    exact AuthzCasdoorPlugin.exchange_says_iff hsealer callback hasks
  · intro plugin ctx code callback hheader r hasks hpost
    exact FeishuAuthPlugin.exchange_says_iff callback hheader hasks hpost
  · intro plugin now issued nonce ctx ticket callback r hasks
    exact CasAuthPlugin.ticket_says_iff callback hasks

end Nodes

/-! ## A ticket with a slash -/

/-- A request with this query. -/
def callbackParts (query : String) : HttpParts where
  method := "GET"
  uri := { scheme := none, path := "/app", query := some query }
  version := .http11
  headers := []

def callbackRequest (query : String) : Context :=
  Context.new (GatewayRequest.fromHyper (callbackParts query) [] "10.1.2.3:44321")

/-- A callback with one parameter. -/
def callbackOf {key value : String} (query text : String) (hpieces : queryPieces query = [(key, text)])
    (hencodes : PercentEncodes (asBytes value) (asBytes text)) :
    CallbackOf (callbackRequest query) key value where
  parts := callbackParts query
  body := []
  remoteAddr := "10.1.2.3:44321"
  arrived := rfl
  query := query
  has_query := rfl
  before := []
  after := []
  text := text
  pieces := hpieces
  first := nofun
  encodes := hencodes

/-- A ticket as it stands. -/
def plainTicket : CallbackOf (callbackRequest "ticket=ST-1") "ticket" "ST-1" :=
  callbackOf "ticket=ST-1" "ST-1" (by decide +kernel)
    (.kept rfl (.kept rfl (.kept rfl (.kept rfl .nil))))

/-- A ticket with a slash, which is escaped. -/
def slashTicket : CallbackOf (callbackRequest "ticket=4%2F1") "ticket" "4/1" :=
  callbackOf "ticket=4%2F1" "4%2F1" (by decide +kernel)
    (.kept rfl (.escaped (show hexVal 0x32 = some 2 from rfl) (show hexVal 0x46 = some 15 from rfl)
      (.kept rfl .nil)))

/-- A node without sessions. -/
def casNode : CasAuthPlugin where
  idpUri := "https://cas.example.com"
  service := some "https://app.example.com/"
  ticketParam := "ticket"
  sslVerify := true
  timeout := 3000000000
  sealer := none
  cookieName := "cas_session"
  cookiePath := "/"
  cookieLifetime := 3600
  logoutPath := none

theorem extractTicket_callback (query text : String) (hpieces : queryPieces query = [("ticket", text)])
    (hne : text ≠ "") :
    CasAuthPlugin.extractTicket (callbackRequest query).request.queryParams casNode.ticketParam = some text := by
  have hparams : (callbackRequest query).request.queryParams["ticket"]? = some [text] := by
    show (Multimap.ofPairs (queryPieces query))["ticket"]? = some [text]
    rw [hpieces, Multimap.getElem?_ofPairs]
    simp [Multimap.valuesOf_cons]
  rw [CasAuthPlugin.extractTicket, show casNode.ticketParam = "ticket" from rfl, hparams, Option.bind_some]
  exact Option.filter_eq_some_iff.mpr ⟨rfl, decide_eq_true hne⟩

theorem codes_reach_provider_iff_plain :
    ∀ (_ : Aes256Gcm) (_ : Base64Url) (_ : Base64Codec) (_ : JsonStructCodec)
      (_ : JsonErrorText) (_ : JsonWebToken) (_ : DurationText) (now issued : UInt64) (nonce : Nonce),
      ∃ r, Asks (fun client => casNode.execute client now issued nonce (callbackRequest "ticket=ST-1")) r ∧
        decodedQuery r.url = decodedQuery "https://cas.example.com/serviceValidate" ++
          (CasAuthPlugin.validateParams "ST-1" "https://app.example.com/").map pairBytes := by
  intro _ _ _ _ _ _ _ now issued nonce
  have hasks := casNode.asks_ticket rfl now issued nonce
    (extractTicket_callback "ticket=ST-1" "ST-1" (by decide +kernel) (by decide))
  refine ⟨_, hasks, ?_⟩
  refine (codes_reach_provider_iff.2.2.2 casNode now issued nonce _ "ST-1" plainTicket _ hasks).mpr ⟨?_, ?_⟩
  · decide +kernel
  · show '%' ∉ "ST-1".toList
    decide

/-- A slash that was escaped on the way is sent as three characters. -/
theorem slash_sent_escaped :
    PercentEncodes (asBytes "4/1") (asBytes slashTicket.text) ∧
    ∀ (_ : Aes256Gcm) (_ : Base64Url) (_ : Base64Codec) (_ : JsonStructCodec)
      (_ : JsonErrorText) (_ : JsonWebToken) (_ : DurationText),
      (∀ (now issued : UInt64) (nonce : Nonce), ∃ r,
        Asks (fun client => casNode.execute client now issued nonce (callbackRequest "ticket=4%2F1")) r ∧
        decodedQuery r.url ≠ decodedQuery "https://cas.example.com/serviceValidate" ++
          (CasAuthPlugin.validateParams "4/1" "https://app.example.com/").map pairBytes) ∧
      (∀ (plugin : OpenidConnectPlugin) (endpoint verifier redirectUri : String), ¬ Says (formPairs
        (plugin.exchangeRequest endpoint slashTicket.text verifier redirectUri).body) "code" "4/1") ∧
      (∀ plugin : AuthzCasdoorPlugin,
        ¬ Says (formPairs (plugin.exchangeRequest slashTicket.text).body) "code" "4/1") ∧
      ∀ plugin : FeishuAuthPlugin,
        (JsonCodec.parse (plugin.tokenRequest slashTicket.text).body).bind (Json.get "code") ≠
          some (.string "4/1") := by
  refine ⟨slashTicket.encodes, ?_⟩
  intro _ _ _ _ _ _ _
  have hdiff : slashTicket.text ≠ "4/1" := by decide
  refine ⟨fun now issued nonce => ?_, fun plugin endpoint verifier redirectUri => ?_,
    fun plugin => ?_, fun plugin => ?_⟩
  · have hasks := CasAuthPlugin.asks_ticket casNode rfl now issued nonce
      (extractTicket_callback "ticket=4%2F1" "4%2F1" (by decide +kernel) (by decide))
    refine ⟨_, hasks, fun hsays => ?_⟩
    exact hdiff ((CasAuthPlugin.validate_says_iff _ _ _ _).mp hsays).2
  · rw [OpenidConnectPlugin.formPairs_exchangeRequest, says_map_iff]
    simpa [Multimap.valuesOf_cons] using hdiff
  · rw [AuthzCasdoorPlugin.formPairs_exchangeRequest, says_map_iff]
    simpa [Multimap.valuesOf_cons] using hdiff
  · rw [FeishuAuthPlugin.tokenRequest_code]
    simpa using hdiff

end Featherbit
