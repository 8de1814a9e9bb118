/-
  WHAT ONE EXECUTION OF `openid-connect` DOES, in light of what happened in it before.

  `Allowed` is the condition each call meets when it is made: a flow cookie is sealed for this
  request (`Began`), a session cookie only when the whole login went through (`Completed`), and the
  key cache is only filled with keys that were seen.  `Returned` is what holds of the result.  Both
  are proved along the functions of the node, one lemma each, up to `execute_keeps`.
-/
import Featherbit.Plugins.OpenidConnect

namespace Featherbit

open Tasks

set_option linter.unusedSectionVars false

/-- The two clocks. -/
structure Stamp where
  unix : UInt64
  instant : Nat
deriving DecidableEq

abbrev OidcEvent := Event Stamp OidcCall.Answer

namespace OpenidConnectPlugin

open OpenidConnect

variable [Sha256] [Aes256Gcm] [Base64Url] [Base64Codec] [JsonStructCodec] [JsonWebToken]
  [DurationText] (plugin : OpenidConnectPlugin)

/-! ## What the events say -/

/-- The call was made and answered so. -/
def Did (past : List OidcEvent) (call : OidcCall) (answer : call.Answer) : Prop :=
  ∃ e ∈ past, e.what = ⟨call, answer⟩

theorem Did.later {past past' : List OidcEvent} {call : OidcCall} {answer : call.Answer}
    (h : Did past call answer) (hpast : past <+: past') : Did past' call answer := by
  obtain ⟨e, he, hwhat⟩ := h
  exact ⟨e, hpast.mem he, hwhat⟩

theorem did_last (past : List OidcEvent) (time : Stamp) (call : OidcCall) (answer : call.Answer) :
    Did (past ++ [⟨time, ⟨call, answer⟩⟩]) call answer :=
  ⟨_, List.mem_append_right _ (List.mem_singleton.mpr rfl), rfl⟩

/-- The keys were fetched from the provider. -/
def KeysFetched (past : List OidcEvent) (keys : List Jwk) : Prop :=
  ∃ url resp, Did past (.request (plugin.getRequest url)) (.ok resp) ∧ readJwks resp = .ok keys ∧
    ∀ uri, plugin.jwksUriCfg = some uri → url = uri

/-- The keys were fetched, or were in the cache. -/
def KeysSeen (past : List OidcEvent) (keys : List Jwk) : Prop :=
  plugin.KeysFetched past keys ∨
    ∃ cached : CachedJwks, Did past .lockJwks (some cached) ∧ cached.keys = keys

/-- The token was verified under one of the keys, and its claims were accepted. -/
def TokenValidated (past : List OidcEvent) (token : String) (claims : HashMap Json) : Prop :=
  ∃ kid keys jwk now, JsonWebToken.decodeHeader token = .ok kid ∧ plugin.KeysSeen past keys ∧
    selectJwk keys kid = some jwk ∧ Did past .unixNow now ∧
    plugin.checkToken now token jwk = .ok claims

/-- The provider answered the introspection of the token with claims that were accepted. -/
def TokenIntrospected (past : List OidcEvent) (token : String) (claims : HashMap Json) : Prop :=
  ∃ endpoint resp, Did past (.request (plugin.introspectionRequest endpoint token)) (.ok resp) ∧
    plugin.readIntrospection resp = .ok claims

/-- A sealed cookie of the request was opened. -/
def Opened (flow : Interactive) (ctx : Context) (past : List OidcEvent) (name : String)
    (bytes : Bytes) : Prop :=
  ∃ value, requestCookie ctx name = some value ∧ Did past (.openCookie flow.sealer value) (.ok bytes)

/-- A flow state that `begin_auth` made for this request, of its random bytes. -/
def Began (ctx : Context) (past : List OidcEvent) (flowState : FlowState) : Prop :=
  ∃ state nonce verifier, Did past (.random 32) state ∧ Did past (.random 32) nonce ∧
    Did past (.random 32) verifier ∧
    flowState = {
      state := randomToken state, nonce := randomToken nonce, verifier := randomToken verifier
      originalUri := requestUri ctx }

section Later

variable {plugin} {past past' : List OidcEvent}

theorem KeysFetched.later {keys : List Jwk} (h : plugin.KeysFetched past keys) (hpast : past <+: past') :
    plugin.KeysFetched past' keys := by
  obtain ⟨url, resp, hdid, hrest⟩ := h
  exact ⟨url, resp, hdid.later hpast, hrest⟩

theorem KeysSeen.later {keys : List Jwk} (h : plugin.KeysSeen past keys) (hpast : past <+: past') :
    plugin.KeysSeen past' keys := by
  rcases h with hfetched | ⟨cached, hdid, hcached⟩
  · exact Or.inl (hfetched.later hpast)
  · exact Or.inr ⟨cached, hdid.later hpast, hcached⟩

theorem TokenValidated.later {token : String} {claims : HashMap Json}
    (h : plugin.TokenValidated past token claims) (hpast : past <+: past') :
    plugin.TokenValidated past' token claims := by
  obtain ⟨kid, keys, jwk, now, hheader, hkeys, hselect, hnow, hcheck⟩ := h
  exact ⟨kid, keys, jwk, now, hheader, hkeys.later hpast, hselect, hnow.later hpast, hcheck⟩

theorem Opened.later {flow : Interactive} {ctx : Context} {name : String} {bytes : Bytes}
    (h : Opened flow ctx past name bytes) (hpast : past <+: past') : Opened flow ctx past' name bytes := by
  obtain ⟨value, hvalue, hdid⟩ := h
  exact ⟨value, hvalue, hdid.later hpast⟩

end Later

/-- A login that went through, from the flow cookie to the session. -/
structure Completed (flow : Interactive) (ctx : Context) (past : List OidcEvent)
    (flowState : FlowState) (session : SessionData) : Prop where
  callback : IsCallback flow ctx
  opened : ∃ bytes, Opened flow ctx past flow.flowCookie bytes ∧
    FlowState.fromSlice bytes = some flowState
  state : firstQuery ctx "state" = some flowState.state ∧ flowState.state ≠ ""
  token : ∃ endpoint resp tokens idToken claims,
    Did past (.request (plugin.exchangeRequest endpoint ((firstQuery ctx "code").getD "")
      flowState.verifier flow.redirectUri)) (.ok resp) ∧
    JsonCodec.parse resp.body = some tokens ∧ (tokens.get "id_token").bind Json.asStr = some idToken ∧
    plugin.TokenValidated past idToken claims ∧
    claims["nonce"]?.bind Json.asStr = some flowState.nonce ∧
    session = { claims := claimsValue claims
                accessToken := (tokens.get "access_token").bind Json.asStr }

/-- What a cookie is sealed for. -/
def SealedFor (flow : Interactive) (ctx : Context) (past : List OidcEvent) (ttl : UInt64) :
    CookiePayload → Prop
  | .flow flowState => Began ctx past flowState ∧ ttl = flowTtl
  | .session session =>
    (∃ flowState, plugin.Completed flow ctx past flowState session) ∧ ttl = flow.sessionLifetime

/-- The condition each call meets. -/
def Allowed (ctx : Context) (past : List OidcEvent) : OidcCall → Prop
  | .sealCookie sealer payload ttl => ∃ flow, plugin.interactive = some flow ∧
      sealer = flow.sealer ∧ plugin.SealedFor flow ctx past ttl payload
  | .unlockJwks (some cache) => plugin.KeysSeen past cache.keys
  | _ => True

/-- Whose claims let a request through. -/
inductive OidcIdentity where
  | token (claims : HashMap Json) (token : String)
  | session (session : SessionData)

/-- The context the node lets through with an identity. -/
def attachIdentity (ctx : Context) : OidcIdentity → Context
  | .token claims token => plugin.attach ctx claims token
  | .session session => plugin.attachSession ctx session

/-- The identity was established in the execution. -/
def Established (ctx : Context) (past : List OidcEvent) : OidcIdentity → Prop
  | .token claims token => plugin.interactive = none ∧ bearerToken ctx = some token ∧
      if plugin.useJwks then plugin.TokenValidated past token claims
      else plugin.TokenIntrospected past token claims
  | .session session => ∃ flow bytes, plugin.interactive = some flow ∧
      Opened flow ctx past flow.sessionCookie bytes ∧ SessionData.fromSlice bytes = some session

/-- What holds of the result. -/
def Returned (ctx : Context) (past : List OidcEvent) : PluginResult → Prop
  | .ok output => ∃ identity, plugin.Established ctx past identity ∧
      output.context = plugin.attachIdentity ctx identity
  | .error err => ∀ sealer session ttl value,
      Did past (.sealCookie sealer (.session session) ttl) value →
      ∃ flow flowState, plugin.interactive = some flow ∧
        plugin.Completed flow ctx past flowState session ∧
        err.context.response.headers["location"]? = some [callbackTarget flowState]

/-! ## Functions that seal nothing -/

/-- The condition met by the calls of the functions that seal nothing. -/
def Quiet (past : List OidcEvent) : OidcCall → Prop
  | .sealCookie _ _ _ => False
  | .unlockJwks (some cache) => plugin.KeysSeen past cache.keys
  | _ => True

theorem discover_keeps (past : List OidcEvent) (cell : UriCell) (field missing : String) :
    (plugin.discover cell field missing).Keeps plugin.Quiet (fun _ _ => True) past := by
  refine Task.Keeps.bind (M := fun _ _ => True) ⟨trivial, fun _ _ => trivial⟩ fun past uri _ _ => ?_
  cases uri with
  | some uri => trivial
  | none =>
    cases plugin.discovery with
    | none => trivial
    | some discovery =>
      refine Task.Keeps.bind (M := fun _ _ => True) ⟨trivial, fun _ _ => trivial⟩
        fun past resp _ _ => ?_
      cases resp with
      | error e => trivial
      | ok resp =>
        dsimp only
        cases readDiscovery field resp with
        | error e => trivial
        | ok uri => exact ⟨trivial, fun _ _ => trivial⟩

/-- A configured JWKS URL is the one in use. -/
theorem jwksUri_keeps (past : List OidcEvent) :
    plugin.jwksUri.Keeps plugin.Quiet
      (fun _ found => ∀ url, found = .ok url → ∀ uri, plugin.jwksUriCfg = some uri → url = uri)
      past := by
  unfold jwksUri
  cases hcfg : plugin.jwksUriCfg with
  | some uri =>
    intro url hurl uri' huri
    rw [← Except.ok.inj hurl, Option.some.inj huri]
  | none =>
    refine (plugin.discover_keeps past _ _ _).mono fun _ _ _ _ => ?_
    intro url _ uri huri
    cases huri

theorem fetchJwks_keeps (past : List OidcEvent) :
    plugin.fetchJwks.Keeps plugin.Quiet
      (fun past found => ∀ keys, found = .ok keys → plugin.KeysFetched past keys) past := by
  refine (plugin.jwksUri_keeps past).bind fun past uri _ huri => ?_
  cases uri with
  | error e => exact fun keys h => by cases h
  | ok uri =>
    refine Task.Keeps.bind (M := fun past resp => Did past (.request (plugin.getRequest uri)) resp)
      ⟨trivial, fun time resp => did_last past time _ resp⟩ fun past resp _ hresp => ?_
    cases resp with
    | error e => exact fun keys h => by cases h
    | ok resp => exact fun keys hkeys => ⟨uri, resp, hresp, hkeys, huri uri rfl⟩

theorem getJwks_keeps (past : List OidcEvent) (force : Bool) :
    (plugin.getJwks force).Keeps plugin.Quiet
      (fun past found => ∀ keys, found = .ok keys → plugin.KeysSeen past keys) past := by
  refine Task.Keeps.bind (M := fun past cache => Did past .lockJwks cache)
    ⟨trivial, fun time cache => did_last past time OidcCall.lockJwks cache⟩ fun past cache _ hcache => ?_
  refine Task.Keeps.bind (M := fun _ _ => True) ⟨trivial, fun _ _ => trivial⟩ fun past now hpast _ => ?_
  have hcache := hcache.later hpast
  -- what was in the cache may be put back
  have hback : plugin.Quiet past (.unlockJwks cache) := by
    cases cache with
    | none => trivial
    | some cached => exact Or.inr ⟨cached, hcache, rfl⟩
  have hback' : ∀ past', past <+: past' → plugin.Quiet past' (.unlockJwks cache) := by
    intro past' hpast'
    cases cache with
    | none => trivial
    | some cached => exact Or.inr ⟨cached, hcache.later hpast', rfl⟩
  cases hfresh : cache.filter fun c => !force && decide (now - c.fetchedAt < plugin.jwkTtl) with
  | some fresh =>
    obtain ⟨hsome, -⟩ := Option.filter_eq_some_iff.mp hfresh
    rw [hsome] at hcache
    dsimp only
    refine ⟨hback, fun time _ keys hkeys => Or.inr ⟨fresh, ?_, Except.ok.inj hkeys⟩⟩
    exact hcache.later (List.prefix_append _ _)
  | none =>
    dsimp only
    refine (plugin.fetchJwks_keeps past).bind fun past' found hpast' hfound => ?_
    cases found with
    | error e => exact ⟨hback' past' hpast', fun _ _ keys h => by cases h⟩
    | ok keys =>
      have hkeys : plugin.KeysSeen past' keys := Or.inl (hfound keys rfl)
      refine ⟨trivial, fun time fetchedAt => ⟨hkeys.later (List.prefix_append _ _), ?_⟩⟩
      intro time' _ keys' hok
      rw [← Except.ok.inj hok, List.append_assoc]
      exact hkeys.later (List.prefix_append _ _)

/-- The key of a token is among keys that were seen. -/
theorem jwkFor_keeps (past : List OidcEvent) (kid : Option String) :
    (plugin.jwkFor kid).Keeps plugin.Quiet
      (fun past found => ∀ jwk, found = .ok jwk →
        ∃ keys, plugin.KeysSeen past keys ∧ selectJwk keys kid = some jwk) past := by
  refine (plugin.getJwks_keeps past false).bind fun past found _ hfound => ?_
  cases found with
  | error e => exact fun jwk h => by cases h
  | ok keys =>
    cases hselect : selectJwk keys kid with
    | some jwk =>
      simp only [hselect]
      intro jwk' hjwk
      exact ⟨keys, hfound keys rfl, by rw [hselect, Except.ok.inj hjwk]⟩
    | none =>
      simp only [hselect]
      refine (plugin.getJwks_keeps past true).bind fun past found _ hfound => ?_
      cases found with
      | error e => exact fun jwk h => by cases h
      | ok keys =>
        cases hselect : selectJwk keys kid with
        | some jwk =>
          simp only [hselect]
          intro jwk' hjwk
          exact ⟨keys, hfound keys rfl, by rw [hselect, Except.ok.inj hjwk]⟩
        | none =>
          simp only [hselect]
          exact fun jwk h => by cases h

theorem validateViaJwks_keeps (past : List OidcEvent) (token : String) :
    (plugin.validateViaJwks token).Keeps plugin.Quiet
      (fun past found => ∀ claims, found = .ok claims → plugin.TokenValidated past token claims)
      past := by
  unfold validateViaJwks
  cases hheader : JsonWebToken.decodeHeader token with
  | error e => exact fun claims h => by cases h
  | ok kid =>
    refine (plugin.jwkFor_keeps past kid).bind fun past found _ hfound => ?_
    cases found with
    | error e => exact fun claims h => by cases h
    | ok jwk =>
      obtain ⟨keys, hkeys, hselect⟩ := hfound jwk rfl
      refine ⟨trivial, fun time now claims hclaims => ?_⟩
      exact ⟨kid, keys, jwk, now, hheader, hkeys.later (List.prefix_append _ _), hselect,
        did_last past time OidcCall.unixNow now, hclaims⟩

theorem validateViaIntrospection_keeps (past : List OidcEvent) (token : String) :
    (plugin.validateViaIntrospection token).Keeps plugin.Quiet
      (fun past found => ∀ claims, found = .ok claims → plugin.TokenIntrospected past token claims)
      past := by
  unfold validateViaIntrospection
  cases plugin.introspectionEndpoint with
  | none => exact fun claims h => by cases h
  | some endpoint =>
    refine Task.Keeps.bind (M := fun past resp =>
        Did past (.request (plugin.introspectionRequest endpoint token)) resp)
      ⟨trivial, fun time resp => did_last past time _ resp⟩ fun past resp _ hresp => ?_
    cases resp with
    | error e => exact fun claims h => by cases h
    | ok resp => exact fun claims hclaims => ⟨endpoint, resp, hresp, hclaims⟩

theorem validateToken_keeps (past : List OidcEvent) (token : String) :
    (plugin.validateToken token).Keeps plugin.Quiet
      (fun past found => ∀ claims, found = .ok claims →
        if plugin.useJwks then plugin.TokenValidated past token claims
        else plugin.TokenIntrospected past token claims) past := by
  unfold validateToken
  cases plugin.useJwks with
  | true => exact plugin.validateViaJwks_keeps past token
  | false => exact plugin.validateViaIntrospection_keeps past token

theorem openedCookie_keeps (past : List OidcEvent) (flow : Interactive) (ctx : Context)
    (name : String) :
    (openedCookie flow ctx name).Keeps plugin.Quiet
      (fun past found => ∀ bytes, found = some bytes → Opened flow ctx past name bytes) past := by
  unfold openedCookie
  cases hcookie : requestCookie ctx name with
  | none => exact fun bytes h => by cases h
  | some raw =>
    refine Task.Keeps.bind (M := fun past opened => Did past (.openCookie flow.sealer raw) opened)
      ⟨trivial, fun time opened => did_last past time _ opened⟩ fun past opened _ hopened => ?_
    cases opened with
    | error e => exact fun bytes h => by cases h
    | ok bytes =>
      intro bytes' h
      rw [← Option.some.inj h]
      exact ⟨raw, hcookie, hopened⟩

theorem readFlow_keeps (past : List OidcEvent) (flow : Interactive) (ctx : Context) :
    (readFlow flow ctx).Keeps plugin.Quiet
      (fun past found => ∀ flowState, found = some flowState →
        ∃ bytes, Opened flow ctx past flow.flowCookie bytes ∧
          FlowState.fromSlice bytes = some flowState) past := by
  refine (plugin.openedCookie_keeps past flow ctx _).bind fun past opened _ hopened => ?_
  intro flowState hflow
  obtain ⟨bytes, hbytes, hread⟩ := Option.bind_eq_some_iff.mp hflow
  exact ⟨bytes, hopened bytes hbytes, hread⟩

theorem readSession_keeps (past : List OidcEvent) (flow : Interactive) (ctx : Context) :
    (readSession flow ctx).Keeps plugin.Quiet
      (fun past found => ∀ session, found = some session →
        ∃ bytes, Opened flow ctx past flow.sessionCookie bytes ∧
          SessionData.fromSlice bytes = some session) past := by
  refine (plugin.openedCookie_keeps past flow ctx _).bind fun past opened _ hopened => ?_
  intro session hsession
  obtain ⟨bytes, hbytes, hread⟩ := Option.bind_eq_some_iff.mp hsession
  exact ⟨bytes, hopened bytes hbytes, hread⟩

theorem tokenEndpoint_keeps (past : List OidcEvent) (flow : Interactive) :
    (plugin.tokenEndpoint flow).Keeps plugin.Quiet (fun _ _ => True) past := by
  unfold tokenEndpoint
  cases flow.tokenEndpointCfg with
  | some uri => trivial
  | none => exact plugin.discover_keeps past _ _ _

theorem authorizationEndpoint_keeps (past : List OidcEvent) (flow : Interactive) :
    (plugin.authorizationEndpoint flow).Keeps plugin.Quiet (fun _ _ => True) past := by
  unfold authorizationEndpoint
  cases flow.authorizationEndpointCfg with
  | some uri => trivial
  | none => exact plugin.discover_keeps past _ _ _

theorem exchangeCode_keeps (past : List OidcEvent) (endpoint code verifier redirectUri : String) :
    (plugin.exchangeCode endpoint code verifier redirectUri).Keeps plugin.Quiet
      (fun past found => ∀ tokens, found = .ok tokens → ∃ resp,
        Did past (.request (plugin.exchangeRequest endpoint code verifier redirectUri)) (.ok resp) ∧
          JsonCodec.parse resp.body = some tokens) past := by
  refine Task.Keeps.bind (M := fun past resp =>
      Did past (.request (plugin.exchangeRequest endpoint code verifier redirectUri)) resp)
    ⟨trivial, fun time resp => did_last past time _ resp⟩ fun past resp _ hresp => ?_
  cases resp with
  | error e => exact fun tokens h => by cases h
  | ok resp =>
    show Task.Keeps _ _ _ (if resp.status ≠ 200 then _ else _)
    split
    · exact fun tokens h => by cases h
    · cases hparse : JsonCodec.parse resp.body with
      | none =>
        dsimp only
        exact fun tokens h => by cases h
      | some tokens =>
        dsimp only
        intro tokens' h
        exact ⟨resp, hresp, by rw [hparse, Except.ok.inj h]⟩

/-! ## Functions that seal -/

/-- No session has been sealed. -/
def NoSession (past : List OidcEvent) : Prop :=
  ∀ sealer session ttl value, ¬ Did past (.sealCookie sealer (.session session) ttl) value

theorem NoSession.snoc {past : List OidcEvent} (h : NoSession past) {time : Stamp} {call : OidcCall}
    {answer : call.Answer} (hcall : ∀ sealer session ttl, call ≠ .sealCookie sealer (.session session) ttl) :
    NoSession (past ++ [⟨time, ⟨call, answer⟩⟩]) := by
  rintro sealer session ttl value ⟨e, he, hwhat⟩
  rcases List.mem_append.mp he with he | he
  · exact h sealer session ttl value ⟨e, he, hwhat⟩
  · rw [List.mem_singleton.mp he] at hwhat
    exact hcall sealer session ttl (congrArg Sigma.fst hwhat)

theorem Quiet.allowed {past : List OidcEvent} {call : OidcCall} (ctx : Context)
    (h : plugin.Quiet past call) : plugin.Allowed ctx past call := by
  cases call with
  | sealCookie sealer payload ttl => exact h.elim
  | unlockJwks cache =>
    cases cache with
    | none => trivial
    | some cache => exact h
  | _ => trivial

/-- A step that seals nothing, before the rest. -/
theorem quietly {α : Type} {past : List OidcEvent} {task : OidcTask α} {f : α → OidcTask PluginResult}
    {M : List OidcEvent → α → Prop} {ctx : Context} {post : List OidcEvent → PluginResult → Prop}
    (hold : NoSession past) (htask : task.Keeps plugin.Quiet M past)
    (hf : ∀ past' a, past <+: past' → NoSession past' → M past' a →
      (f a).Keeps (plugin.Allowed ctx) post past') :
    (task >>= f).Keeps (plugin.Allowed ctx) post past := by
  refine (htask.weaken fun past call h => Quiet.allowed plugin ctx h).bind ?_
  rintro past' a hpast ⟨hmid, hnew⟩
  refine hf past' a hpast ?_ hmid
  rintro sealer session ttl value ⟨e, he, hwhat⟩
  rcases hnew e he with he | ⟨before, hquiet⟩
  · exact hold sealer session ttl value ⟨e, he, hwhat⟩
  · rw [hwhat] at hquiet
    exact hquiet

/-- A result other than letting through is fine as long as no session was sealed. -/
theorem returned_of_noSession {ctx : Context} {past : List OidcEvent} (h : NoSession past)
    (err : PluginExecutionError) : plugin.Returned ctx past (.error err) :=
  fun sealer session ttl value hdid => absurd hdid (h sealer session ttl value)

variable {plugin} {flow : Interactive} (hflow : plugin.interactive = some flow)
include hflow

theorem beginAuth_keeps {past : List OidcEvent} (hold : NoSession past) (ctx : Context) :
    (plugin.beginAuth flow ctx).Keeps (plugin.Allowed ctx) (plugin.Returned ctx) past := by
  refine quietly plugin hold (plugin.authorizationEndpoint_keeps past flow) fun past found _ hold _ => ?_
  cases found with
  | error e => exact returned_of_noSession plugin hold _
  | ok authz =>
    refine ⟨trivial, fun t1 state => ⟨trivial, fun t2 nonce => ⟨trivial, fun t3 verifier => ?_⟩⟩⟩
    have hstate := (did_last past t1 (.random 32) state)
    have hnonce := (did_last (past ++ [⟨t1, ⟨.random 32, state⟩⟩]) t2 (.random 32) nonce)
    refine ⟨⟨flow, hflow, rfl, ⟨state, nonce, verifier, ?_, ?_, ?_, rfl⟩, rfl⟩, fun t4 value => ?_⟩
    · exact (hstate.later (List.prefix_append _ _)).later (List.prefix_append _ _)
    · exact hnonce.later (List.prefix_append _ _)
    · exact did_last _ t3 (.random 32) verifier
    · refine returned_of_noSession plugin ?_ _
      refine NoSession.snoc (NoSession.snoc (NoSession.snoc (NoSession.snoc hold ?_) ?_) ?_) ?_
      all_goals intro sealer session ttl h; cases h

theorem finishLogin_keeps {past : List OidcEvent} (hold : NoSession past) {ctx : Context}
    {flowState : FlowState} {tokens : Json} (hcallback : IsCallback flow ctx)
    (hopened : ∃ bytes, Opened flow ctx past flow.flowCookie bytes ∧
      FlowState.fromSlice bytes = some flowState)
    (hstate : firstQuery ctx "state" = some flowState.state ∧ flowState.state ≠ "")
    (htokens : ∃ endpoint resp, Did past (.request (plugin.exchangeRequest endpoint
        ((firstQuery ctx "code").getD "") flowState.verifier flow.redirectUri)) (.ok resp) ∧
      JsonCodec.parse resp.body = some tokens) :
    (plugin.finishLogin flow ctx flowState tokens).Keeps (plugin.Allowed ctx) (plugin.Returned ctx)
      past := by
  unfold finishLogin
  cases htoken : (tokens.get "id_token").bind Json.asStr with
  | none => exact returned_of_noSession plugin hold _
  | some idToken =>
    refine quietly plugin hold (plugin.validateViaJwks_keeps past idToken) fun past' found hpast hold hfound => ?_
    cases found with
    | error e => exact returned_of_noSession plugin hold _
    | ok claims =>
      show Task.Keeps _ _ _ (if claims["nonce"]?.bind Json.asStr ≠ some flowState.nonce then _ else _)
      split
      · exact returned_of_noSession plugin hold _
      · rename_i hnonce
        obtain ⟨bytes, hopened, hread⟩ := hopened
        obtain ⟨endpoint, resp, hresp, hparse⟩ := htokens
        have hcompleted : ∀ past'', past' <+: past'' → plugin.Completed flow ctx past'' flowState
            { claims := claimsValue claims
              accessToken := (tokens.get "access_token").bind Json.asStr } := by
          intro past'' hpast''
          have hall := hpast.trans hpast''
          exact ⟨hcallback, ⟨bytes, hopened.later hall, hread⟩, hstate,
            endpoint, resp, tokens, idToken, claims, hresp.later hall, hparse, htoken,
            (hfound claims rfl).later hpast'', not_not.mp hnonce, rfl⟩
        refine ⟨⟨flow, hflow, rfl, ⟨flowState, hcompleted past' (List.prefix_refl _)⟩, rfl⟩, ?_⟩
        rintro time sealed sealer session ttl value ⟨e, he, hwhat⟩
        rcases List.mem_append.mp he with he | he
        · exact absurd ⟨e, he, hwhat⟩ (hold sealer session ttl value)
        · -- the session is the one just sealed
          rw [List.mem_singleton.mp he] at hwhat
          have hcall : OidcCall.sealCookie flow.sealer _ flow.sessionLifetime =
            .sealCookie sealer (.session session) ttl := congrArg Sigma.fst hwhat
          injection hcall with _ hpayload _
          injection hpayload with hsession
          rw [← hsession]
          refine ⟨flow, flowState, hflow, hcompleted _ (List.prefix_append _ _), ?_⟩
          show ((ctx.response.headers.insert "location" [callbackTarget flowState]).insert
            "set-cookie" _)["location"]? = _
          rw [HashMap.get_insert, if_neg (by decide), HashMap.get_insert, if_pos rfl]

theorem handleCallback_keeps {past : List OidcEvent} (hold : NoSession past) {ctx : Context}
    (hcallback : IsCallback flow ctx) :
    (plugin.handleCallback flow ctx).Keeps (plugin.Allowed ctx) (plugin.Returned ctx) past := by
  unfold handleCallback
  refine quietly plugin hold (plugin.readFlow_keeps past flow ctx) fun past found _ hold hfound => ?_
  cases found with
  | none => exact returned_of_noSession plugin hold _
  | some flowState =>
    show Task.Keeps _ _ _ (if flowState.state ≠ (firstQuery ctx "state").getD "" ∨
      (firstQuery ctx "state").getD "" = "" then _ else _)
    split
    · exact returned_of_noSession plugin hold _
    · rename_i hstate
      rw [not_or, not_not] at hstate
      have hquery : firstQuery ctx "state" = some flowState.state ∧ flowState.state ≠ "" := by
        cases hq : firstQuery ctx "state" with
        | none =>
          rw [hq] at hstate
          exact absurd rfl hstate.2
        | some state =>
          rw [hq] at hstate
          exact ⟨congrArg some hstate.1.symm, fun h => hstate.2 (hstate.1.symm.trans h)⟩
      refine quietly plugin hold (plugin.tokenEndpoint_keeps past flow)
        fun past' endpoint hpast' hold _ => ?_
      cases endpoint with
      | error e => exact returned_of_noSession plugin hold _
      | ok endpoint =>
        refine quietly plugin hold (plugin.exchangeCode_keeps past' endpoint _ _ _)
          fun past'' tokens hpast'' hold htokens => ?_
        cases tokens with
        | error e => exact returned_of_noSession plugin hold _
        | ok tokens =>
          obtain ⟨bytes, hopened, hread⟩ := hfound flowState rfl
          refine finishLogin_keeps hflow hold hcallback ?_ hquery ⟨endpoint, htokens tokens rfl⟩
          exact ⟨bytes, hopened.later (hpast'.trans hpast''), hread⟩

theorem executeInteractive_keeps {past : List OidcEvent} (hold : NoSession past) (ctx : Context) :
    (plugin.executeInteractive flow ctx).Keeps (plugin.Allowed ctx) (plugin.Returned ctx) past := by
  unfold executeInteractive
  split
  · exact returned_of_noSession plugin hold _
  · split
    · rename_i hcallback
      exact handleCallback_keeps hflow hold hcallback
    · refine quietly plugin hold (plugin.readSession_keeps past flow ctx) fun past found _ hold hfound => ?_
      cases found with
      | some session =>
        obtain ⟨bytes, hopened, hread⟩ := hfound session rfl
        exact ⟨.session session, ⟨flow, bytes, hflow, hopened, hread⟩, rfl⟩
      | none => exact beginAuth_keeps hflow hold ctx

omit hflow

theorem executeBearer_keeps (hbearer : plugin.interactive = none) {past : List OidcEvent}
    (hold : NoSession past) (ctx : Context) :
    (plugin.executeBearer ctx).Keeps (plugin.Allowed ctx) (plugin.Returned ctx) past := by
  unfold executeBearer
  cases htoken : bearerToken ctx with
  | none => exact returned_of_noSession plugin hold _
  | some token =>
    refine quietly plugin hold (plugin.validateToken_keeps past token) fun past found _ hold hfound => ?_
    cases found with
    | error e => exact returned_of_noSession plugin hold _
    | ok claims => exact ⟨.token claims token, ⟨hbearer, htoken, hfound claims rfl⟩, rfl⟩

/-- Of every execution: each call is allowed when it is made, and the result follows from them. -/
theorem execute_keeps (plugin : OpenidConnectPlugin) (ctx : Context) :
    (plugin.execute ctx).Keeps (plugin.Allowed (stripUserinfo ctx)) (plugin.Returned (stripUserinfo ctx))
      [] := by
  have hold : NoSession [] := by
    rintro sealer session ttl value ⟨e, he, -⟩
    cases he
  unfold execute
  cases hinteractive : plugin.interactive with
  | some flow => exact executeInteractive_keeps hinteractive hold _
  | none => exact executeBearer_keeps hinteractive hold _

/-! ## Executions that go through -/

/-- A request without a session starts a login. -/
theorem beginAuth_ran {plugin : OpenidConnectPlugin} {flow : Interactive} {ctx : Context}
    (hflow : plugin.interactive = some flow) (hlogout : ¬ IsLogout flow ctx)
    (hcallback : ¬ IsCallback flow ctx) (hcookie : requestCookie (stripUserinfo ctx) flow.sessionCookie = none)
    {authz : String} (hauthz : flow.authorizationEndpointCfg = some authz)
    (t : Stamp) (state nonce verifier : Bytes) (value : String) :
    ∃ result, (plugin.execute ctx).Ran
      [⟨t, ⟨.random 32, state⟩⟩, ⟨t, ⟨.random 32, nonce⟩⟩, ⟨t, ⟨.random 32, verifier⟩⟩,
        ⟨t, ⟨.sealCookie flow.sealer (.flow {
          state := randomToken state, nonce := randomToken nonce, verifier := randomToken verifier
          originalUri := requestUri ctx }) flowTtl, value⟩⟩] result := by
  have hread : readSession flow (stripUserinfo ctx) = Task.done none := by
    unfold readSession openedCookie
    rw [hcookie]
    rfl
  have hendpoint : plugin.authorizationEndpoint flow = Task.done (.ok authz) := by
    unfold authorizationEndpoint
    rw [hauthz]
    rfl
  have hexecute : plugin.execute ctx = plugin.beginAuth flow (stripUserinfo ctx) := by
    unfold execute
    rw [hflow]
    show plugin.executeInteractive flow (stripUserinfo ctx) = _
    unfold executeInteractive
    rw [if_neg (show ¬ IsLogout flow (stripUserinfo ctx) from hlogout),
      if_neg (show ¬ IsCallback flow (stripUserinfo ctx) from hcallback), hread]
    rfl
  rw [hexecute]
  unfold beginAuth
  rw [hendpoint]
  exact ⟨_, .call (.call (.call (.call (.done _))))⟩

/-- A request with a session is let through. -/
theorem session_ran {plugin : OpenidConnectPlugin} {flow : Interactive} {ctx : Context}
    (hflow : plugin.interactive = some flow) (hlogout : ¬ IsLogout flow ctx)
    (hcallback : ¬ IsCallback flow ctx) {value : String}
    (hcookie : requestCookie (stripUserinfo ctx) flow.sessionCookie = some value) {bytes : Bytes}
    {session : SessionData} (hread : SessionData.fromSlice bytes = some session) (t : Stamp) :
    (plugin.execute ctx).Ran [⟨t, ⟨.openCookie flow.sealer value, .ok bytes⟩⟩]
      (.ok { context := plugin.attachSession (stripUserinfo ctx) session, namedOutputs := ∅ }) := by
  unfold execute
  rw [hflow]
  show Task.Ran (plugin.executeInteractive flow (stripUserinfo ctx)) _ _
  unfold executeInteractive
  rw [if_neg (show ¬ IsLogout flow (stripUserinfo ctx) from hlogout),
    if_neg (show ¬ IsCallback flow (stripUserinfo ctx) from hcallback)]
  refine Task.ran_bind.mpr ⟨[⟨t, ⟨.openCookie flow.sealer value, .ok bytes⟩⟩], [], some session, rfl, ?_,
    .done _⟩
  unfold readSession openedCookie
  rw [hcookie]
  refine Task.Ran.call ?_
  show Task.Ran (Task.done ((some bytes).bind SessionData.fromSlice)) [] _
  rw [Option.bind_some, hread]
  exact .done _

/-- The calls that fetch the keys, with nothing in the cache. -/
def keyEvents (plugin : OpenidConnectPlugin) (t : Stamp) (keysUrl : String) (resp : OutboundResponse)
    (keys : List Jwk) : List OidcEvent :=
  [⟨t, ⟨.lockJwks, (none : Option CachedJwks)⟩⟩, ⟨t, ⟨.instant, t.instant⟩⟩,
    ⟨t, ⟨.request (plugin.getRequest keysUrl), .ok resp⟩⟩, ⟨t, ⟨.instant, t.instant⟩⟩,
    ⟨t, ⟨.unlockJwks (some { keys := keys, fetchedAt := t.instant }), ()⟩⟩]

/-- The flow cookie is opened. -/
theorem readFlow_ran {flow : Interactive} {ctx : Context} {cookie : String}
    (hcookie : requestCookie ctx flow.flowCookie = some cookie) {bytes : Bytes} {flowState : FlowState}
    (hread : FlowState.fromSlice bytes = some flowState) (t : Stamp) :
    (readFlow flow ctx).Ran [⟨t, ⟨.openCookie flow.sealer cookie, .ok bytes⟩⟩] (some flowState) := by
  unfold readFlow openedCookie
  rw [hcookie]
  refine Task.Ran.call ?_
  show Task.Ran (Task.done ((some bytes).bind FlowState.fromSlice)) [] _
  rw [Option.bind_some, hread]
  exact .done _

/-- The code is redeemed. -/
theorem exchangeCode_ran (plugin : OpenidConnectPlugin) (endpoint code verifier redirectUri : String)
    {resp : OutboundResponse} (hstatus : resp.status = 200) {tokens : Json}
    (hparse : JsonCodec.parse resp.body = some tokens) (t : Stamp) :
    (plugin.exchangeCode endpoint code verifier redirectUri).Ran
      [⟨t, ⟨.request (plugin.exchangeRequest endpoint code verifier redirectUri), .ok resp⟩⟩]
      (.ok tokens) := by
  refine Task.Ran.call ?_
  show Task.Ran (if resp.status ≠ 200 then _ else _) [] _
  rw [if_neg (not_not.mpr hstatus), hparse]
  exact .done _

/-- The keys are fetched, and kept. -/
theorem getJwks_ran {plugin : OpenidConnectPlugin} {keysUrl : String} (hjwks : plugin.jwksUriCfg = some keysUrl)
    {resp : OutboundResponse} {keys : List Jwk} (hkeys : readJwks resp = .ok keys) (t : Stamp) :
    (plugin.getJwks false).Ran (plugin.keyEvents t keysUrl resp keys) (.ok keys) := by
  have hfetch : plugin.fetchJwks.Ran (T := Stamp)
      [⟨t, ⟨.request (plugin.getRequest keysUrl), .ok resp⟩⟩] (.ok keys) := by
    unfold fetchJwks jwksUri
    rw [hjwks]
    refine Task.Ran.call ?_
    show Task.Ran (Task.done (readJwks resp)) [] _
    rw [hkeys]
    exact .done _
  unfold getJwks
  -- the lock and the clock, then the request, then the clock and the unlock
  refine Task.Ran.call (Task.Ran.call ?_)
  show Task.Ran (plugin.fetchJwks >>= _) _ _
  refine Task.ran_bind.mpr ⟨[_], [_, _], Except.ok keys, rfl, hfetch, ?_⟩
  exact .call (.call (.done _))

/-- A token is verified with a fetched key. -/
theorem validateViaJwks_ran {plugin : OpenidConnectPlugin} {keysUrl : String}
    (hjwks : plugin.jwksUriCfg = some keysUrl) {resp : OutboundResponse} {keys : List Jwk}
    (hkeys : readJwks resp = .ok keys) {idToken : String} {kid : Option String}
    (hheader : JsonWebToken.decodeHeader idToken = .ok kid) {jwk : Jwk}
    (hselect : selectJwk keys kid = some jwk) (t : Stamp) {claims : HashMap Json}
    (hcheck : plugin.checkToken t.unix idToken jwk = .ok claims) :
    (plugin.validateViaJwks idToken).Ran
      (plugin.keyEvents t keysUrl resp keys ++ [⟨t, ⟨.unixNow, t.unix⟩⟩]) (.ok claims) := by
  unfold validateViaJwks
  rw [hheader]
  refine Task.ran_bind.mpr ⟨_, [⟨t, ⟨.unixNow, t.unix⟩⟩], .ok jwk, rfl, ?_, ?_⟩
  · unfold jwkFor
    refine Task.ran_bind.mpr ⟨_, [], .ok keys, (List.append_nil _).symm, getJwks_ran hjwks hkeys t, ?_⟩
    dsimp only
    rw [hselect]
    exact .done _
  · refine Task.Ran.call ?_
    show Task.Ran (Task.done (plugin.checkToken t.unix idToken jwk)) [] _
    rw [hcheck]
    exact .done _

/-- A callback with its flow cookie, a code that is redeemed, and a token that is verified ends in a
    session, and redirects. -/
theorem callback_ran {plugin : OpenidConnectPlugin} {flow : Interactive} {ctx : Context}
    (hflow : plugin.interactive = some flow) (hlogout : ¬ IsLogout flow ctx)
    (hcallback : IsCallback flow ctx) {cookie : String}
    (hcookie : requestCookie (stripUserinfo ctx) flow.flowCookie = some cookie) {bytes : Bytes}
    {flowState : FlowState} (hread : FlowState.fromSlice bytes = some flowState)
    (hstate : firstQuery ctx "state" = some flowState.state) (hnonempty : flowState.state ≠ "")
    {endpoint keysUrl : String} (hendpoint : flow.tokenEndpointCfg = some endpoint)
    (hjwks : plugin.jwksUriCfg = some keysUrl)
    {resp : OutboundResponse} (hstatus : resp.status = 200) {tokens : Json}
    (hparse : JsonCodec.parse resp.body = some tokens) {idToken : String}
    (htoken : (tokens.get "id_token").bind Json.asStr = some idToken) {kid : Option String}
    (hheader : JsonWebToken.decodeHeader idToken = .ok kid) {keysResp : OutboundResponse}
    {keys : List Jwk} (hkeys : readJwks keysResp = .ok keys) {jwk : Jwk}
    (hselect : selectJwk keys kid = some jwk) (t : Stamp) {claims : HashMap Json}
    (hcheck : plugin.checkToken t.unix idToken jwk = .ok claims)
    (hnonce : claims["nonce"]?.bind Json.asStr = some flowState.nonce) (value : String) :
    ∃ cookies, (plugin.execute ctx).Ran
      ([⟨t, ⟨.openCookie flow.sealer cookie, .ok bytes⟩⟩,
        ⟨t, ⟨.request (plugin.exchangeRequest endpoint ((firstQuery ctx "code").getD "")
          flowState.verifier flow.redirectUri), .ok resp⟩⟩] ++
        plugin.keyEvents t keysUrl keysResp keys ++
        [⟨t, ⟨.unixNow, t.unix⟩⟩,
        ⟨t, ⟨.sealCookie flow.sealer (.session {
          claims := claimsValue claims
          accessToken := (tokens.get "access_token").bind Json.asStr }) flow.sessionLifetime, value⟩⟩])
      (redirect (stripUserinfo ctx) (callbackTarget flowState) cookies) := by
  have hexecute : plugin.execute ctx = plugin.handleCallback flow (stripUserinfo ctx) := by
    unfold execute
    rw [hflow]
    show plugin.executeInteractive flow (stripUserinfo ctx) = _
    unfold executeInteractive
    rw [if_neg (show ¬ IsLogout flow (stripUserinfo ctx) from hlogout),
      if_pos (show IsCallback flow (stripUserinfo ctx) from hcallback)]
  have hfinish : ∃ cookies, (plugin.finishLogin flow (stripUserinfo ctx) flowState tokens).Ran
      (plugin.keyEvents t keysUrl keysResp keys ++ [⟨t, ⟨.unixNow, t.unix⟩⟩] ++
        [⟨t, ⟨.sealCookie flow.sealer (.session {
          claims := claimsValue claims
          accessToken := (tokens.get "access_token").bind Json.asStr }) flow.sessionLifetime, value⟩⟩])
      (redirect (stripUserinfo ctx) (callbackTarget flowState) cookies) := by
    unfold finishLogin
    rw [htoken]
    refine ⟨[sealedCookie flow (stripUserinfo ctx) flow.sessionCookie value flow.sessionLifetime,
        deleteCookie flow.flowCookie flow.cookiePath],
      Task.ran_bind.mpr ⟨_, [_], .ok claims, rfl,
        validateViaJwks_ran hjwks hkeys hheader hselect t hcheck, ?_⟩⟩
    dsimp only
    rw [if_neg (not_not.mpr hnonce)]
    exact .call (.done _)
  obtain ⟨cookies, hfinish⟩ := hfinish
  have hfirst : firstQuery (stripUserinfo ctx) "state" = some flowState.state := hstate
  rw [hexecute]
  refine ⟨cookies, Task.ran_bind.mpr ⟨[_], _, some flowState, rfl, readFlow_ran hcookie hread t, ?_⟩⟩
  dsimp only
  rw [hfirst]
  show Task.Ran (if flowState.state ≠ flowState.state ∨ flowState.state = "" then _ else _) _ _
  rw [if_neg (show ¬ (flowState.state ≠ flowState.state ∨ flowState.state = "") from
    not_or.mpr ⟨not_not.mpr rfl, hnonempty⟩)]
  refine Task.ran_bind.mpr ⟨[], _, .ok endpoint, rfl, ?_, ?_⟩
  · unfold tokenEndpoint
    rw [hendpoint]
    exact .done _
  refine Task.ran_bind.mpr ⟨[_], _, .ok tokens, rfl,
    plugin.exchangeCode_ran endpoint _ flowState.verifier flow.redirectUri hstatus hparse t, ?_⟩
  rw [List.append_assoc] at hfinish
  exact hfinish

end OpenidConnectPlugin

end Featherbit
