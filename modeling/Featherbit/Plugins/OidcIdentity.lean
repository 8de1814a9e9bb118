/-
  TWO REQUESTS WITH ONE IDENTITY at an `openid-connect` node.

  1. A request is accepted with an identity when that is what its token or its session cookie was
     validated to (`AcceptsWith`); its context then carries the identity (`accepted_context`).
  2. Of what the client sent under the same names, the node removes `x-userinfo` and overwrites what
     it has a value for.  So the outputs of two requests agree iff the identity has the optional
     parts, or both requests brought the same in their place (`identity_unforgeable_iff`).
-/
import Featherbit.Plugins.OidcLogin

namespace Featherbit

open Tasks

set_option linter.unusedSectionVars false

namespace OpenidConnectPlugin

open OpenidConnect

section Accepted

variable [Sha256] [Aes256Gcm] [Base64Url] [Base64Codec] [JsonStructCodec] [JsonWebToken]
  [DurationText] (plugin : OpenidConnectPlugin)

/-- The request is let through with what its token or its session was validated to. -/
def AcceptsWith (ctx : Context) (identity : OidcIdentity) (output : PluginOutput) : Prop :=
  ∃ events : List OidcEvent, (plugin.execute ctx).Ran events (.ok output) ∧
    match identity with
    | .token claims token => plugin.interactive = none ∧ bearerToken (stripUserinfo ctx) = some token ∧
        (plugin.validateToken token).Ran events (.ok claims)
    | .session session => ∃ flow, plugin.interactive = some flow ∧
        (readSession flow (stripUserinfo ctx)).Ran events (some session)

variable {plugin}

/-- Nothing is said of a task. -/
theorem keeps_any {α : Type} (task : OidcTask α) (past : List OidcEvent) :
    task.Keeps (fun _ _ => True) (fun _ _ => True) past := by
  induction task generalizing past with
  | done a => trivial
  | call c k ih => exact ⟨trivial, fun time r => ih r _⟩

/-- A callback is not let through. -/
theorem handleCallback_fails (flow : Interactive) (ctx : Context) (past : List OidcEvent) :
    (plugin.handleCallback flow ctx).Keeps (fun _ _ => True) (fun _ r => ∃ err, r = .error err) past := by
  have hreject : ∀ message, ∃ err, reject ctx message = .error err := fun message => ⟨_, rfl⟩
  have hfinish : ∀ flowState tokens (past : List OidcEvent), (plugin.finishLogin flow ctx flowState tokens).Keeps
      (fun _ _ => True) (fun _ r => ∃ err, r = .error err) past := by
    intro flowState tokens past
    unfold finishLogin
    cases (tokens.get "id_token").bind Json.asStr with
    | none => exact hreject _
    | some idToken =>
      refine (keeps_any _ past).bind fun past found _ _ => ?_
      cases found with
      | error e => exact hreject _
      | ok claims =>
        show Task.Keeps _ _ _ (if claims["nonce"]?.bind Json.asStr ≠ some flowState.nonce then _ else _)
        split
        · exact hreject _
        · exact ⟨trivial, fun time value => ⟨_, rfl⟩⟩
  unfold handleCallback
  refine (keeps_any _ past).bind fun past found _ _ => ?_
  cases found with
  | none => exact hreject _
  | some flowState =>
    show Task.Keeps _ _ _ (if flowState.state ≠ (firstQuery ctx "state").getD "" ∨
      (firstQuery ctx "state").getD "" = "" then _ else _)
    split
    · exact hreject _
    · refine (keeps_any _ past).bind fun past endpoint _ _ => ?_
      cases endpoint with
      | error e => exact hreject _
      | ok endpoint =>
        refine (keeps_any _ past).bind fun past tokens _ _ => ?_
        cases tokens with
        | error e => exact hreject _
        | ok tokens => exact hfinish flowState tokens past

/-- What an accepted request goes on with. -/
theorem accepted_context {ctx : Context} {identity : OidcIdentity} {output : PluginOutput}
    (h : plugin.AcceptsWith ctx identity output) :
    output.context = plugin.attachIdentity (stripUserinfo ctx) identity := by
  obtain ⟨events, hran, hidentity⟩ := h
  unfold execute at hran
  cases identity with
  | token claims token =>
    obtain ⟨hbearer, htoken, hvalidated⟩ := hidentity
    rw [hbearer] at hran
    change Task.Ran (plugin.executeBearer (stripUserinfo ctx)) events (.ok output) at hran
    unfold executeBearer at hran
    rw [htoken] at hran
    obtain ⟨first, rest, found, rfl, hfirst, hrest⟩ := Task.ran_bind.mp hran
    obtain ⟨rfl, rfl⟩ := hfirst.endsWith hvalidated
    cases hrest
    rfl
  | session session =>
    obtain ⟨flow, hflow, hread⟩ := hidentity
    rw [hflow] at hran
    change Task.Ran (plugin.executeInteractive flow (stripUserinfo ctx)) events (.ok output) at hran
    unfold executeInteractive at hran
    split at hran
    · cases hran
    · split at hran
      · obtain ⟨⟨err, herr⟩, -⟩ := (handleCallback_fails flow (stripUserinfo ctx) []).ran hran
        cases herr
      · obtain ⟨first, rest, found, rfl, hfirst, hrest⟩ := Task.ran_bind.mp hran
        obtain ⟨rfl, rfl⟩ := hfirst.endsWith hread
        cases hrest
        rfl

/-! ## The outputs -/

/-- The user that the claims name. -/
def OidcIdentity.sub : OidcIdentity → Option Json
  | .token found _ => found["sub"]?
  | .session data => data.claims.get "sub"

def OidcIdentity.claims : OidcIdentity → Json
  | .token found _ => claimsValue found
  | .session data => data.claims

def OidcIdentity.accessToken : OidcIdentity → Option String
  | .token _ bearer => some bearer
  | .session data => data.accessToken

variable (plugin) in
/-- The header the access token is sent in. -/
def accessTokenHeader : String :=
  if plugin.accessTokenInAuthorizationHeader then "authorization" else "x-access-token"

variable (plugin) in
/-- The headers the node is configured to set and the message keys it writes are the same. -/
structure SameOutputs (ctx ctx' : Context) : Prop where
  userinfo : plugin.setUserinfoHeader = true →
    ctx.request.headers["x-userinfo"]? = ctx'.request.headers["x-userinfo"]?
  accessToken : plugin.setAccessTokenHeader = true →
    ctx.request.headers[plugin.accessTokenHeader]? = ctx'.request.headers[plugin.accessTokenHeader]?
  userId : ctx.message["user_id"]? = ctx'.message["user_id"]?
  jwtClaims : ctx.message["jwt_claims"]? = ctx'.message["jwt_claims"]?

theorem accessTokenHeader_ne : plugin.accessTokenHeader ≠ "x-userinfo" := by
  unfold accessTokenHeader
  split <;> decide

theorem setAccessToken_get (headers : HashMap (List String)) (token name : String) :
    (plugin.setAccessToken headers token)[name]? =
      if plugin.setAccessTokenHeader = true ∧ name = plugin.accessTokenHeader then
        some [if plugin.accessTokenInAuthorizationHeader then "Bearer " ++ token else token]
      else headers[name]? := by
  unfold setAccessToken accessTokenHeader
  by_cases hset : plugin.setAccessTokenHeader = true
  · rw [if_pos hset]
    by_cases hauthorization : plugin.accessTokenInAuthorizationHeader = true
    · simp only [hset, hauthorization, if_true, true_and, HashMap.get_insert]
    · simp only [hset, hauthorization, if_false, true_and, HashMap.get_insert, Bool.false_eq_true]
  · rw [if_neg hset, if_neg fun h => hset h.1]

theorem setUserinfo_get (headers : HashMap (List String)) (claims : Json) (name : String) :
    (plugin.setUserinfo headers claims)[name]? =
      if plugin.setUserinfoHeader = true ∧ name = "x-userinfo" then
        some [Base64Codec.encode (asBytes (JsonText.toText claims))]
      else headers[name]? := by
  unfold setUserinfo
  by_cases hset : plugin.setUserinfoHeader = true
  · rw [if_pos hset, HashMap.get_insert]
    simp only [hset, true_and]
  · rw [if_neg hset, if_neg fun h => hset h.1]

theorem attached_userinfo (ctx : Context) (identity : OidcIdentity)
    (hset : plugin.setUserinfoHeader = true) :
    (plugin.attachIdentity ctx identity).request.headers["x-userinfo"]? =
      some [Base64Codec.encode (asBytes (JsonText.toText identity.claims))] := by
  have hne : ¬ (plugin.setAccessTokenHeader = true ∧ "x-userinfo" = plugin.accessTokenHeader) :=
    fun h => accessTokenHeader_ne h.2.symm
  cases identity with
  | token claims token =>
    show (plugin.setAccessToken (plugin.setUserinfo ctx.request.headers (claimsValue claims))
      token)["x-userinfo"]? = _
    rw [setAccessToken_get, if_neg hne, setUserinfo_get, if_pos ⟨hset, rfl⟩]
    rfl
  | session session =>
    obtain ⟨claims, accessToken⟩ := session
    cases accessToken with
    | some token =>
      show (plugin.setAccessToken (plugin.setUserinfo ctx.request.headers claims)
        token)["x-userinfo"]? = _
      rw [setAccessToken_get, if_neg hne, setUserinfo_get, if_pos ⟨hset, rfl⟩]
      rfl
    | none =>
      show (plugin.setUserinfo ctx.request.headers claims)["x-userinfo"]? = _
      rw [setUserinfo_get, if_pos ⟨hset, rfl⟩]
      rfl

/-- The access token, or what was there. -/
theorem attached_accessToken (ctx : Context) (identity : OidcIdentity)
    (hset : plugin.setAccessTokenHeader = true) :
    (plugin.attachIdentity ctx identity).request.headers[plugin.accessTokenHeader]? =
      match identity.accessToken with
      | some token => some [if plugin.accessTokenInAuthorizationHeader then "Bearer " ++ token else token]
      | none => ctx.request.headers[plugin.accessTokenHeader]? := by
  have hother : ∀ claims : Json, (plugin.setUserinfo ctx.request.headers claims)[plugin.accessTokenHeader]? =
      ctx.request.headers[plugin.accessTokenHeader]? := by
    intro claims
    rw [setUserinfo_get, if_neg fun h => accessTokenHeader_ne h.2]
  cases identity with
  | token claims token =>
    show (plugin.setAccessToken _ token)[plugin.accessTokenHeader]? = _
    rw [setAccessToken_get, if_pos ⟨hset, rfl⟩]
    rfl
  | session session =>
    show (match session.accessToken with
      | some token => plugin.setAccessToken (plugin.setUserinfo ctx.request.headers session.claims) token
      | none => plugin.setUserinfo ctx.request.headers session.claims)[plugin.accessTokenHeader]? =
        match session.accessToken with
        | some token => some [if plugin.accessTokenInAuthorizationHeader then "Bearer " ++ token else token]
        | none => ctx.request.headers[plugin.accessTokenHeader]?
    cases session.accessToken with
    | some token =>
      dsimp only
      rw [setAccessToken_get, if_pos ⟨hset, rfl⟩]
    | none => exact hother session.claims

theorem attached_message (ctx : Context) (identity : OidcIdentity) :
    (plugin.attachIdentity ctx identity).message =
      setMessage ctx.message identity.sub identity.claims := by
  cases identity <;> rfl

theorem setMessage_userId (message : HashMap Json) (sub : Option Json) (claims : Json) :
    (setMessage message sub claims)["user_id"]? =
      match sub with
      | some sub => some sub
      | none => message["user_id"]? := by
  unfold setMessage
  rw [HashMap.get_insert, if_neg (by decide)]
  cases sub with
  | some sub => rw [HashMap.get_insert, if_pos rfl]
  | none => rfl

/-- **When the client has no influence.**  Two requests are accepted with the same identity; the
    outputs of the node are the same iff its claims name a user or both requests came with the same
    `user_id`, and the access token is not to be set, or is there, or both requests came with the same
    header of its name. -/
theorem identity_unforgeable_iff {ctx ctx' : Context} {identity : OidcIdentity}
    {output output' : PluginOutput} (h : plugin.AcceptsWith ctx identity output)
    (h' : plugin.AcceptsWith ctx' identity output') :
    plugin.SameOutputs output.context output'.context ↔
      (identity.sub.isSome ∨ ctx.message["user_id"]? = ctx'.message["user_id"]?) ∧
      (plugin.setAccessTokenHeader = false ∨ identity.accessToken.isSome ∨
        ctx.request.headers[plugin.accessTokenHeader]? = ctx'.request.headers[plugin.accessTokenHeader]?) := by
  rw [accepted_context h, accepted_context h']
  have huser : (plugin.attachIdentity (stripUserinfo ctx) identity).message["user_id"]? =
      (plugin.attachIdentity (stripUserinfo ctx') identity).message["user_id"]? ↔
      (identity.sub.isSome ∨ ctx.message["user_id"]? = ctx'.message["user_id"]?) := by
    rw [attached_message, attached_message, setMessage_userId, setMessage_userId]
    cases identity.sub with
    | some sub => exact ⟨fun _ => Or.inl rfl, fun _ => rfl⟩
    | none =>
      refine ⟨fun h => Or.inr h, fun h => ?_⟩
      rcases h with h | h
      · cases h
      · exact h
  -- what is stripped is another header
  have hstrip : ∀ c : Context, (stripUserinfo c).request.headers[plugin.accessTokenHeader]? =
      c.request.headers[plugin.accessTokenHeader]? := by
    intro c
    show (c.request.headers.erase "x-userinfo")[plugin.accessTokenHeader]? = _
    rw [HashMap.get_erase, if_neg accessTokenHeader_ne]
  have haccess : plugin.setAccessTokenHeader = true →
      ((plugin.attachIdentity (stripUserinfo ctx) identity).request.headers[plugin.accessTokenHeader]? =
        (plugin.attachIdentity (stripUserinfo ctx') identity).request.headers[plugin.accessTokenHeader]? ↔
      (identity.accessToken.isSome ∨
        ctx.request.headers[plugin.accessTokenHeader]? = ctx'.request.headers[plugin.accessTokenHeader]?)) := by
    intro hset
    rw [attached_accessToken _ _ hset, attached_accessToken _ _ hset]
    cases identity.accessToken with
    | some token => exact ⟨fun _ => Or.inl rfl, fun _ => rfl⟩
    | none =>
      dsimp only
      rw [hstrip, hstrip]
      refine ⟨fun h => Or.inr h, fun h => ?_⟩
      rcases h with h | h
      · cases h
      · exact h
  constructor
  · rintro ⟨-, hheader, hid, -⟩
    refine ⟨huser.mp hid, ?_⟩
    cases hset : plugin.setAccessTokenHeader with
    | false => exact Or.inl rfl
    | true => exact Or.inr ((haccess hset).mp (hheader hset))
  · rintro ⟨hid, hheader⟩
    refine ⟨fun hset => ?_, fun hset => ?_, huser.mpr hid, ?_⟩
    · rw [attached_userinfo _ _ hset, attached_userinfo _ _ hset]
    · rcases hheader with hoff | hheader
      · rw [hset] at hoff
        cases hoff
      · exact (haccess hset).mpr hheader
    · rw [attached_message, attached_message, setMessage_claims, setMessage_claims]

/-- A request with a session cookie that is opened is accepted with the session. -/
theorem session_accepts {flow : Interactive} {ctx : Context} (hflow : plugin.interactive = some flow)
    (hlogout : ¬ IsLogout flow ctx) (hcallback : ¬ IsCallback flow ctx) {value : String}
    (hcookie : requestCookie (stripUserinfo ctx) flow.sessionCookie = some value) {bytes : Bytes}
    {session : SessionData} (hread : SessionData.fromSlice bytes = some session) :
    plugin.AcceptsWith ctx (.session session)
      { context := plugin.attachSession (stripUserinfo ctx) session, namedOutputs := ∅ } := by
  have hran := session_ran hflow hlogout hcallback hcookie hread ⟨0, 0⟩
  refine ⟨_, hran, flow, hflow, ?_⟩
  unfold readSession openedCookie
  rw [hcookie]
  refine Task.Ran.call ?_
  show Task.Ran (Task.done ((some bytes).bind SessionData.fromSlice)) [] _
  rw [Option.bind_some, hread]
  exact .done _

end Accepted

/-! ## A session without an access token -/

section Example

variable [Sha256] [Aes256Gcm] [Base64Url] [Base64Codec] [JsonStructCodec] [DurationText]

/-- The session cookie of the login, and whatever else. -/
def sessionRequest (more : HashMap (List String) → HashMap (List String)) : Context :=
  browserRequest "/a/home" (more (cookieHeader "oidc_session" (sealedCookieOf (.session aliceSession) 3600))) ∅

/-- The session as it is read back. -/
def aliceRead : SessionData where
  claims := aliceSession.claims.mapFloats JsonCodec.reread
  accessToken := none

/-- A header of the client's own. -/
def forgeToken (headers : HashMap (List String)) : HashMap (List String) :=
  headers.insert "x-access-token" ["forged"]

attribute [local instance] aliceToken

theorem sessionRequest_accepted (hplain : ∀ bytes : Bytes, ∀ c ∈ (Base64Url.encode bytes).toList,
    c ∈ Rfc4648.digits Rfc4648.urlSafe) {more : HashMap (List String) → HashMap (List String)}
    (hmore : ∀ headers : HashMap (List String), (more headers)["cookie"]? = headers["cookie"]?) :
    (appNode "a").AcceptsWith (sessionRequest more) (.session aliceRead) {
      context := (appNode "a").attachSession (stripUserinfo (sessionRequest more)) aliceRead
      namedOutputs := ∅ } := by
  have hcookie : requestCookie (stripUserinfo (sessionRequest more)) "oidc_session" =
      some (sealedCookieOf (.session aliceSession) 3600) := by
    rw [requestCookie_stripUserinfo]
    unfold requestCookie sessionRequest
    show ((more (cookieHeader _ _))["cookie"]?.bind List.head?).bind _ = _
    rw [hmore]
    exact (show requestCookie (browserRequest "/a/home" (cookieHeader "oidc_session" _) ∅) _ = _ from
      requestCookie_cookieHeader sessionCookie_plain (hplain _))
  refine session_accepts (show (appNode "a").interactive = some (appFlow "a") from rfl) (fun h => ?_)
    (fun h => ?_) hcookie (SessionData.fromSlice_session aliceSession_canonical aliceSession_depth)
  · cases (show none = some _ from h)
  · have hpath : "/a/home" = "/" ++ "a" ++ "/callback" := h.1
    exact absurd hpath (by decide)

end Example

/-- Two requests with the session of the login, one with a header of its own. -/
theorem identity_unforgeable_iff_session :
    let _ : Sha256 := cutDigest
    let _ : Aes256Gcm := keyTagged
    let _ : Base64Url := urlSafeBase64
    let _ : Base64Codec := standardBase64
    let _ : JsonStructCodec := compactStructs
    let _ : DurationText := ⟨fun _ => "3s"⟩
    let _ : JsonWebToken := aliceToken
    ∃ output output' : PluginOutput,
      ((appNode "a").SameOutputs output.context output'.context ↔
        ((OidcIdentity.session aliceRead).sub.isSome ∨
          (sessionRequest id).message["user_id"]? = (sessionRequest forgeToken).message["user_id"]?) ∧
        ((appNode "a").setAccessTokenHeader = false ∨ (OidcIdentity.session aliceRead).accessToken.isSome ∨
          (sessionRequest id).request.headers[(appNode "a").accessTokenHeader]? =
            (sessionRequest forgeToken).request.headers[(appNode "a").accessTokenHeader]?)) := by
  intro _ _ _ _ _ _ _
  exact ⟨_, _, identity_unforgeable_iff
    (sessionRequest_accepted Rfc4648.mem_digits_encodeBytes fun _ => rfl)
    (sessionRequest_accepted Rfc4648.mem_digits_encodeBytes fun headers => by
      rw [forgeToken, HashMap.get_insert, if_neg (by decide)])⟩

/-- The header the client sent as its access token is let through with the session. -/
theorem forged_access_token :
    let _ : Sha256 := cutDigest
    let _ : Aes256Gcm := keyTagged
    let _ : Base64Url := urlSafeBase64
    let _ : Base64Codec := standardBase64
    let _ : JsonStructCodec := compactStructs
    let _ : DurationText := ⟨fun _ => "3s"⟩
    let _ : JsonWebToken := aliceToken
    fromConfig (appConfig "a") = .ok (appNode "a") ∧
    ∃ output output' : PluginOutput,
      (appNode "a").AcceptsWith (sessionRequest id) (.session aliceRead) output ∧
      (appNode "a").AcceptsWith (sessionRequest forgeToken) (.session aliceRead) output' ∧
      output'.context.request.headers["x-access-token"]? = some ["forged"] ∧
      ¬ (appNode "a").SameOutputs output.context output'.context := by
  intro _ _ _ _ _ _ _
  have hheader : (appNode "a").accessTokenHeader = "x-access-token" := rfl
  have hclient := attached_accessToken (stripUserinfo (sessionRequest id)) (.session aliceRead)
    (show (appNode "a").setAccessTokenHeader = true from rfl)
  have hforged := attached_accessToken (stripUserinfo (sessionRequest forgeToken)) (.session aliceRead)
    (show (appNode "a").setAccessTokenHeader = true from rfl)
  rw [hheader] at hclient hforged
  have hnone : (stripUserinfo (sessionRequest id)).request.headers["x-access-token"]? = none := by
    show (((∅ : HashMap (List String)).insert "cookie" _).erase "x-userinfo")["x-access-token"]? = none
    rw [HashMap.get_erase, if_neg (by decide), HashMap.get_insert, if_neg (by decide)]
    rfl
  have hsome : (stripUserinfo (sessionRequest forgeToken)).request.headers["x-access-token"]? =
      some ["forged"] := by
    show ((forgeToken _).erase "x-userinfo")["x-access-token"]? = _
    rw [HashMap.get_erase, if_neg (by decide), forgeToken, HashMap.get_insert, if_pos rfl]
  refine ⟨by decide +kernel, _, _,
    sessionRequest_accepted Rfc4648.mem_digits_encodeBytes fun _ => rfl,
    sessionRequest_accepted Rfc4648.mem_digits_encodeBytes fun headers => by
      rw [forgeToken, HashMap.get_insert, if_neg (by decide)], hforged.trans hsome, fun hsame => ?_⟩
  have haccess := hsame.accessToken rfl
  rw [hheader] at haccess
  have hclash := (hclient.trans hnone).symm.trans (haccess.trans (hforged.trans hsome))
  cases hclash

end OpenidConnectPlugin

end Featherbit
