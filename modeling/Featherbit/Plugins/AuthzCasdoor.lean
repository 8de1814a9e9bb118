/-
  THE NODE `authz-casdoor` (`plugins/native/authz_casdoor.rs`).

  Without a session secret the node asks the introspection endpoint about a bearer token.  With one it runs
  the authorization code flow: a request without a session is sent to the login page, and at the callback
  the code is exchanged for a token, which is sealed into a cookie.

  What the server answers, the clock, the random bytes and the order in which the map of parameters is
  iterated are arguments.
-/
import Featherbit.Plugins.CasAuth
import Featherbit.Plugins.Csrf
import Featherbit.Plugins.HmacAuth

namespace Featherbit

/-- The payload of the session cookie. -/
structure CasdoorSession where
  accessToken : String
  clientId : String
  claims : Option Json

/-- The payload of the login-flow cookie. -/
structure CasdoorFlow where
  state : String
  originalUri : String
deriving DecidableEq

/-- A configured `authz-casdoor` node. -/
structure AuthzCasdoorPlugin where
  endpointAddr : String
  clientId : String
  clientSecret : String
  basicAuth : String
  sslVerify : Bool
  timeout : Nat
  /-- seals the cookies; present in interactive mode only -/
  sealer : Option CookieSealer
  callbackUrl : Option String
  callbackPath : Option String
  scope : String
  cookieName : String
  flowCookieName : String
  cookiePath : String
  /-- in seconds -/
  cookieLifetime : UInt64
  logoutPath : Option String

/-- What an execution finds around it. -/
structure CasdoorTurn where
  /-- when a cookie is opened -/
  now : UInt64
  /-- when a cookie is sealed -/
  issued : UInt64
  nonce : Nonce
  random : Bytes
  /-- the entries of a map, as it is iterated -/
  order : HashMap (List String) → List (String × List String)

/-! ## The cookies -/

namespace CasdoorSession

/-- As it is written, in the order of the declaration. -/
def entries (session : CasdoorSession) : List (String × Json) :=
  [("access_token", .string session.accessToken), ("client_id", .string session.clientId),
    ("claims", session.claims.getD .null)]

/-- An `Option<Value>`. -/
def readClaims : Json → Option Json
  | .null => none
  | v => some v.toValue

/-- The derived reader; absent claims are no claims. -/
def read : Json → Option CasdoorSession
  | .object entries => do
    let accessToken ← (Json.requiredField entries "access_token").bind Json.asStr
    let clientId ← (Json.requiredField entries "client_id").bind Json.asStr
    let claims ← Json.optionalField entries "claims"
    some { accessToken := accessToken, clientId := clientId, claims := claims.bind readClaims }
  | .array [.string accessToken, .string clientId] =>
    some { accessToken := accessToken, clientId := clientId, claims := none }
  | .array [.string accessToken, .string clientId, claims] =>
    some { accessToken := accessToken, clientId := clientId, claims := readClaims claims }
  | _ => none

end CasdoorSession

namespace CasdoorFlow

def entries (flow : CasdoorFlow) : List (String × Json) :=
  [("state", .string flow.state), ("original_uri", .string flow.originalUri)]

/-- The derived reader. -/
def read : Json → Option CasdoorFlow
  | .object entries => do
    let state ← (Json.requiredField entries "state").bind Json.asStr
    let originalUri ← (Json.requiredField entries "original_uri").bind Json.asStr
    some { state := state, originalUri := originalUri }
  | .array [.string state, .string originalUri] => some { state := state, originalUri := originalUri }
  | _ => none

end CasdoorFlow

namespace AuthzCasdoorPlugin

/-! ## Configuration -/

/-- A text that must be there and not be empty. -/
def requiredText (config : HashMap Json) (key : String) : Except String String :=
  match CasAuthPlugin.nonEmptyStr config[key]? with
  | some s => .ok s
  | none => .error ("authz-casdoor requires '" ++ key ++ "'")

/-- `callback_path_of`. -/
def callbackPathOf (url : String) : Option String :=
  let afterScheme := ((OpenidConnect.cutAt [':', '/', '/'] url.toList).map Prod.snd).getD url.toList
  match afterScheme.dropWhile (· ≠ '/') with
  | [] => none
  | path => some (String.ofList (path.takeWhile fun c => c ≠ '?' && c ≠ '#'))

/-- `basic_auth_header`. -/
def basicAuthHeader [Base64Codec] (clientId clientSecret : String) : String :=
  "Basic " ++ Base64Codec.encode (asBytes (clientId ++ ":" ++ clientSecret))

/-- `AuthzCasdoorPlugin::from_config`. -/
def fromConfig [Sha256] [Base64Codec] (config : HashMap Json) : Except String AuthzCasdoorPlugin := do
  let endpointAddr ← requiredText config "endpoint_addr"
  let clientId ← requiredText config "client_id"
  let clientSecret ← requiredText config "client_secret"
  let callbackUrl := (CasAuthPlugin.nonEmptyStr config["callback_url"]?).map (trimEndMatches '/')
  let callbackPath := callbackUrl.bind callbackPathOf
  let sealer := (CasAuthPlugin.sessionSecret config).map CookieSealer.new
  let cookieName :=
    (CasAuthPlugin.nonEmptyStr (CasAuthPlugin.sessionCookieField config "name")).getD "casdoor_session"
  let cookiePath := (CasAuthPlugin.nonEmptyStr (CasAuthPlugin.sessionCookieField config "path")).getD "/"
  if sealer.isSome ∧ callbackPath = none then
    throw ("authz-casdoor interactive mode (session_secret set) requires a 'callback_url' " ++
      "with a path component")
  else if sealer.isSome ∧ callbackPath.any (fun path => !pathCovers cookiePath path) then
    throw ("authz-casdoor: session.cookie.path '" ++ cookiePath ++
      "' does not cover the callback_url path '" ++ callbackPath.getD "" ++
      "'; the session cookie would not reach the callback and login would loop. " ++
      "Set session.cookie.path to a prefix of the callback path.")
  else
    return {
      endpointAddr := trimEndMatches '/' endpointAddr
      clientId := clientId
      clientSecret := clientSecret
      basicAuth := basicAuthHeader clientId clientSecret
      sslVerify := (config["ssl_verify"]?.bind Json.asBool).getD true
      timeout := ((config["timeout"]?.bind Json.asU64).getD 3000).toNat * 1000000
      sealer := sealer
      callbackUrl := callbackUrl
      callbackPath := callbackPath
      scope := (CasAuthPlugin.nonEmptyStr config["scope"]?).getD "read"
      cookieName := cookieName
      flowCookieName := cookieName ++ "_flow"
      cookiePath := cookiePath
      cookieLifetime := ((CasAuthPlugin.sessionCookieField config "lifetime").bind Json.asU64).getD 3600
      logoutPath := CasAuthPlugin.nonEmptyStr config["logout_path"]? }

/-! ## Texts -/

/-- One byte of `form_encode`: a space is a `+`. -/
def formEncodeByte (b : UInt8) : List Char :=
  if b = 0x20 then ['+'] else OpenidConnect.formEncodeByte b

/-- `form_encode`. -/
def formEncode (s : String) : String := String.ofList ((asBytes s).flatMap formEncodeByte)

/-- `build_authorize_url`. -/
def buildAuthorizeUrl (endpointAddr clientId callbackUrl state scope : String) : String :=
  endpointAddr ++ "/login/oauth/authorize?response_type=code&client_id=" ++ formEncode clientId ++
    "&redirect_uri=" ++ formEncode callbackUrl ++ "&state=" ++ formEncode state ++ "&scope=" ++
    formEncode scope

/-- `access_token_body`. -/
def accessTokenBody (code clientId clientSecret : String) : String :=
  "grant_type=authorization_code&code=" ++ formEncode code ++ "&client_id=" ++ formEncode clientId ++
    "&client_secret=" ++ formEncode clientSecret

/-- `introspect_body`. -/
def introspectBody (token : String) : String :=
  "token=" ++ formEncode token ++ "&token_type_hint=access_token"

/-- `query_first`. -/
def queryFirst (ctx : Context) (key : String) : Option String :=
  ctx.request.queryParams[key]?.bind List.head?

/-- `extract_token`. -/
def extractToken (ctx : Context) : Option String :=
  (firstHeader ctx "authorization").bind fun raw =>
    let token := trim (((stripPrefix "Bearer " raw).or (stripPrefix "bearer " raw)).getD raw)
    if token = "" then none else some token

/-- `reconstruct_uri`. -/
def reconstructUri (order : HashMap (List String) → List (String × List String)) (ctx : Context) : String :=
  if ctx.request.queryParams.isEmpty then ctx.request.path
  else
    let pairs := (order ctx.request.queryParams).flatMap fun entry =>
      entry.2.map fun v => if v = "" then entry.1 else entry.1 ++ "=" ++ v
    ctx.request.path ++ "?" ++ "&".intercalate pairs

section Answers

variable [JsonStructCodec]

/-- `parse_access_token`. -/
def parseAccessToken (body : Bytes) : Except String String :=
  match JsonCodec.parse body with
  | none => .error ("failed to parse Casdoor token: " ++ JsonStructCodec.fault "Value" body)
  | some data =>
    match CasAuthPlugin.nonEmptyStr (data.get "access_token") with
    | none => .error "Casdoor token response missing access_token"
    | some token =>
      let secs := (data.get "expires_in").bind fun expires =>
        expires.asI64.or (expires.asStr.bind parseI64)
      -- an invalid token does not expire in the future
      if secs.any (· ≤ 0) then .error "Casdoor returned an expired/invalid access_token" else .ok token

/-- `token_is_active`. -/
def tokenIsActive (body : Bytes) : Bool :=
  (((JsonCodec.parse body).bind (Json.get "active")).bind Json.asBool).getD false

/-- `decode_jwt_claims`. -/
def decodeJwtClaims [Base64Url] (token : String) : Option Json :=
  match splitChar '.' token with
  | _ :: payload :: _ =>
    ((Base64Url.decode (asBytes payload)).bind JsonCodec.parse).filter fun v => v.asObject.isSome
  | _ => none

end Answers

/-! ## Execution -/

/-- `deny`. -/
def deny (ctx : Context) (message : String) : PluginResult :=
  .error {
    context := { ctx with response := {
      statusCode := 403
      headers := ctx.response.headers.insert "content-type" ["application/json"]
      body := asBytes "\x7b\"error\":\"access_denied\"\x7d" } }
    error := { nodeId := "", code := "AUTHZ_CASDOOR_DENIED", message := message, metadata := ∅ } }

/-- `redirect`. -/
def redirect (ctx : Context) (location : String) (setCookies : List String) : PluginResult :=
  let headers := ctx.response.headers.insert "location" [location]
  .error {
    context := { ctx with response := {
      statusCode := 302
      headers := if setCookies = [] then headers else headers.insert "set-cookie" setCookies
      body := [] } }
    error := {
      nodeId := "", code := "CASDOOR_REDIRECT", message := "authz-casdoor redirect", metadata := ∅ } }

/-- `attach_session`. -/
def attachSession (ctx : Context) (session : CasdoorSession) : Context :=
  { ctx with
    request := { ctx.request with
      headers := ctx.request.headers.insert "authorization" ["Bearer " ++ session.accessToken] }
    message :=
      match session.claims with
      | none => ctx.message
      | some claims =>
        (match claims.get "sub" with
          | some sub => ctx.message.insert "user_id" sub
          | none => ctx.message).insert "jwt_claims" claims }

variable (plugin : AuthzCasdoorPlugin)

/-- `cookie_attrs`. -/
def cookieAttrs (ctx : Context) (maxAge : UInt64) : CookieAttrs where
  path := plugin.cookiePath
  maxAge := some maxAge
  httpOnly := true
  secure := decide (ctx.request.scheme = "https")
  sameSite := .lax

/-- The request of `fetch_access_token`. -/
def exchangeRequest (code : String) : OutboundRequest where
  method := "POST"
  url := plugin.endpointAddr ++ "/api/login/oauth/access_token"
  headers := [("content-type", "application/x-www-form-urlencoded")]
  body := asBytes (accessTokenBody code plugin.clientId plugin.clientSecret)
  timeout := plugin.timeout
  sslVerify := plugin.sslVerify

/-- The request of `execute_stateless`. -/
def introspectRequest (token : String) : OutboundRequest where
  method := "POST"
  url := plugin.endpointAddr ++ "/api/login/oauth/introspect"
  headers := [("content-type", "application/x-www-form-urlencoded"), ("authorization", plugin.basicAuth)]
  body := asBytes (introspectBody token)
  timeout := plugin.timeout
  sslVerify := plugin.sslVerify

/-- `is_callback`. -/
def isCallback (ctx : Context) : Bool :=
  plugin.callbackPath = some ctx.request.path ∧ (ctx.request.queryParams["code"]?).isSome ∧
    (ctx.request.queryParams["state"]?).isSome

section Execute

variable [Aes256Gcm] [Base64Url] [JsonStructCodec] [DurationText]

/-- The opened value of a cookie of the request. -/
def openedCookie (sealer : CookieSealer) (now : UInt64) (ctx : Context) (name : String) : Option Bytes := do
  let header ← firstHeader ctx "cookie"
  let raw ← readCookie header name
  (sealer.openCookie now raw).toOption

/-- `read_session`. -/
def readSession (sealer : CookieSealer) (now : UInt64) (ctx : Context) : Option CasdoorSession :=
  ((openedCookie sealer now ctx plugin.cookieName).bind JsonStructCodec.entries).bind CasdoorSession.read

/-- `read_flow`. -/
def readFlow (sealer : CookieSealer) (now : UInt64) (ctx : Context) : Option CasdoorFlow :=
  ((openedCookie sealer now ctx plugin.flowCookieName).bind JsonStructCodec.entries).bind CasdoorFlow.read

/-- `fetch_access_token`. -/
def fetchAccessToken (client : OutboundClient) (code : String) : Except String String :=
  match client (plugin.exchangeRequest code) with
  | .error e => .error ("Casdoor token exchange failed: " ++ e.text)
  | .ok resp =>
    if resp.status ≠ 200 then
      .error ("Casdoor token endpoint returned status " ++ showNat resp.status.toNat)
    else parseAccessToken resp.body

/-- `handle_callback`. -/
def handleCallback (sealer : CookieSealer) (client : OutboundClient) (turn : CasdoorTurn) (ctx : Context) :
    PluginResult :=
  match plugin.readFlow sealer turn.now ctx with
  | none => deny ctx "missing or invalid login-flow cookie"
  | some flow =>
  if (queryFirst ctx "state").getD "" ≠ flow.state then deny ctx "OAuth state mismatch"
  else
  match (queryFirst ctx "code").filter (· ≠ "") with
  | none => deny ctx "missing authorization code"
  | some code =>
  match plugin.fetchAccessToken client code with
  | .error e => deny ctx e
  | .ok accessToken =>
    let session : CasdoorSession := {
      accessToken := accessToken
      clientId := plugin.clientId
      claims := decodeJwtClaims accessToken }
    let payload := asBytes (JsonText.toText (.object session.entries))
    let value := sealer.sealCookie turn.issued turn.nonce payload plugin.cookieLifetime
    redirect ctx flow.originalUri
      [buildSetCookie plugin.cookieName value (plugin.cookieAttrs ctx plugin.cookieLifetime),
        deleteCookie plugin.flowCookieName plugin.cookiePath]

/-- `begin_login`. -/
def beginLogin (sealer : CookieSealer) (turn : CasdoorTurn) (ctx : Context) : PluginResult :=
  let flow : CasdoorFlow := {
    state := hexEncode turn.random
    originalUri := reconstructUri turn.order ctx }
  let payload := asBytes (JsonText.toText (.object flow.entries))
  -- the flow cookie only survives the round trip
  let value := sealer.sealCookie turn.issued turn.nonce payload 300
  redirect ctx
    (buildAuthorizeUrl plugin.endpointAddr plugin.clientId (plugin.callbackUrl.getD "") flow.state plugin.scope)
    [buildSetCookie plugin.flowCookieName value (plugin.cookieAttrs ctx 300)]

/-- `execute_interactive`. -/
def executeInteractive (sealer : CookieSealer) (client : OutboundClient) (turn : CasdoorTurn)
    (ctx : Context) : PluginResult :=
  if plugin.logoutPath = some ctx.request.path then
    redirect ctx "/" [deleteCookie plugin.cookieName plugin.cookiePath]
  else if plugin.isCallback ctx then plugin.handleCallback sealer client turn ctx
  else
    match (plugin.readSession sealer turn.now ctx).filter fun session =>
        session.clientId = plugin.clientId with
    | some session => .ok { context := attachSession ctx session, namedOutputs := ∅ }
    | none => plugin.beginLogin sealer turn ctx

/-- `execute_stateless`. -/
def executeStateless (client : OutboundClient) (ctx : Context) : PluginResult :=
  match extractToken ctx with
  | none => deny ctx "missing Casdoor access token"
  | some token =>
  match client (plugin.introspectRequest token) with
  | .ok resp =>
    if resp.status = 200 ∧ tokenIsActive resp.body = true then .ok { context := ctx, namedOutputs := ∅ }
    else
      deny ctx ("Casdoor token inactive or rejected (status " ++ showNat resp.status.toNat ++ ")")
  | .error (.timeout deadline) =>
    deny ctx ("Casdoor request timed out after " ++ DurationText.debug deadline)
  | .error (.invalidRequest message) => deny ctx ("invalid Casdoor request: " ++ message)
  | .error (.transport message) => deny ctx ("Casdoor request failed: " ++ message)

/-- `execute`. -/
def execute (client : OutboundClient) (turn : CasdoorTurn) (ctx : Context) : PluginResult :=
  match plugin.sealer with
  | some sealer => plugin.executeInteractive sealer client turn ctx
  | none => plugin.executeStateless client ctx

/-! ## What the node asks for -/

/-- The code that an interactive node exchanges, if it does. -/
def exchangedCode (turn : CasdoorTurn) (ctx : Context) : Option String :=
  plugin.sealer.bind fun sealer =>
    if plugin.logoutPath = some ctx.request.path ∨ plugin.isCallback ctx = false then none
    else
      (plugin.readFlow sealer turn.now ctx).bind fun flow =>
        if (queryFirst ctx "state").getD "" ≠ flow.state then none
        else (queryFirst ctx "code").filter (· ≠ "")

/-- An interactive node asks for nothing but the token of its code. -/
theorem execute_congr (hsealer : plugin.sealer.isSome = true) {client client' : OutboundClient}
    {turn : CasdoorTurn} {ctx : Context}
    (h : ∀ code, plugin.exchangedCode turn ctx = some code →
      client (plugin.exchangeRequest code) = client' (plugin.exchangeRequest code)) :
    plugin.execute client turn ctx = plugin.execute client' turn ctx := by
  unfold exchangedCode at h
  unfold execute
  cases hsome : plugin.sealer with
  | none =>
    rw [hsome] at hsealer
    nomatch hsealer
  | some sealer =>
    rw [hsome, Option.bind_some] at h
    dsimp only
    unfold executeInteractive
    split
    · rfl
    · rename_i hlogout
      split
      · rename_i hcallback
        rw [if_neg (by simp [hlogout, hcallback])] at h
        unfold handleCallback
        cases hflow : plugin.readFlow sealer turn.now ctx with
        | none => rfl
        | some flow =>
          rw [hflow, Option.bind_some] at h
          dsimp only
          split
          · rfl
          · rename_i hstate
            rw [if_neg hstate] at h
            cases hcode : (queryFirst ctx "code").filter (· ≠ "") with
            | none => rfl
            | some code =>
              have hfetch : plugin.fetchAccessToken client code = plugin.fetchAccessToken client' code := by
                unfold fetchAccessToken
                rw [h code hcode]
              dsimp only
              rw [hfetch]
      · rfl

end Execute

end AuthzCasdoorPlugin

end Featherbit
