/-
  THE `openid-connect` NODE (`plugins/native/openid_connect.rs`).

  1. **Configuration** (`fromConfig`), keys (`selectJwk`, `algsForKey`) and claims
     (`validateClaims`), all of them functions of their arguments.
  2. **The two cookies.**  A flow cookie carries the state of one login attempt, a session cookie the
     claims of a finished one; both are sealed under the same key, told apart by their fields
     (`FlowState.fromSlice_session`, `SessionData.fromSlice_flow`).
  3. **Execution.**  What the node asks of the outside (clocks, random bytes, callouts, the caches it
     shares with the other requests, the sealing of cookies) is a `Call`; `execute` is a task that
     makes these calls.
-/
import Featherbit.Json.Struct
import Featherbit.Lib.Task
import Featherbit.Outbound
import Featherbit.Plugins
import Featherbit.Plugins.CookieSession
import Featherbit.Rust.Jsonwebtoken

namespace Featherbit

open Tasks

/-! ## Data -/

/-- Transient state carried in the flow cookie across the redirect to the provider. -/
structure FlowState where
  state : String
  nonce : String
  verifier : String
  originalUri : String
deriving DecidableEq

/-- The sealed session payload. -/
structure SessionData where
  claims : Json
  accessToken : Option String
deriving DecidableEq

/-- Interactive-mode configuration, present only when `bearer_only: false`. -/
structure Interactive where
  sealer : CookieSealer
  authorizationEndpointCfg : Option String
  tokenEndpointCfg : Option String
  redirectUri : String
  /-- path portion of `redirect_uri`, matched to detect the callback -/
  redirectPath : String
  scope : String
  sessionCookie : String
  flowCookie : String
  cookiePath : String
  /-- in seconds -/
  sessionLifetime : UInt64
  logoutPath : Option String
  postLogoutRedirectUri : String
deriving DecidableEq

/-- A single JSON Web Key. -/
structure Jwk where
  kty : String
  kid : Option String
  alg : Option String
  n : Option String
  e : Option String
  x : Option String
  y : Option String
  crv : Option String
deriving DecidableEq

/-- The keys of a provider with the time they were fetched. -/
structure CachedJwks where
  keys : List Jwk
  fetchedAt : Nat
deriving DecidableEq

structure OpenidConnectPlugin where
  discovery : Option String
  jwksUriCfg : Option String
  introspectionEndpoint : Option String
  clientId : Option String
  clientSecret : Option String
  sslVerify : Bool
  timeout : Nat
  allowedAlgs : List JwtAlgorithm
  /-- issuers accepted for the `iss` claim; empty = do not validate issuer -/
  validIssuers : List String
  audienceClaim : String
  audienceRequired : Bool
  audienceMatchClientId : Bool
  setUserinfoHeader : Bool
  setAccessTokenHeader : Bool
  accessTokenInAuthorizationHeader : Bool
  useJwks : Bool
  jwkTtl : Nat
  interactive : Option Interactive
deriving DecidableEq

namespace OpenidConnect

/-! ## Configuration -/

/-- `string_opt`. -/
def stringOpt (config : HashMap Json) (key : String) : Option String :=
  (config[key]?.bind Json.asStr).filter (· ≠ "")

/-- `session_field`. -/
def sessionField (config : HashMap Json) (field : String) : Option String :=
  ((config["session"]?.bind (·.get field)).bind Json.asStr).filter (· ≠ "")

/-- `session.cookie.<field>`, else the flat form of the key. -/
def cookieField (config : HashMap Json) (field : String) : Option Json :=
  match (config["session"]?.bind (·.get "cookie")).bind (·.get field) with
  | some v => some v
  | none => config["session_cookie_" ++ field]?

/-- `session_cookie_field`. -/
def sessionCookieField (config : HashMap Json) (field : String) : Option String :=
  ((cookieField config field).bind Json.asStr).filter (· ≠ "")

/-- The text up to the first place where `sep` starts, and what follows `sep`. -/
def cutAt (sep : List Char) : List Char → Option (List Char × List Char)
  | [] => none
  | c :: rest =>
    if sep.isPrefixOf (c :: rest) then some ([], (c :: rest).drop sep.length)
    else (cutAt sep rest).map fun p => (c :: p.1, p.2)

/-- `url.split("://").nth(1).unwrap_or(url)`. -/
def afterScheme (url : String) : List Char :=
  let sep := [':', '/', '/']
  match cutAt sep url.toList with
  | some (_, rest) => ((cutAt sep rest).map Prod.fst).getD rest
  | none => url.toList

/-- `url_path`. -/
def urlPath (url : String) : String :=
  match (afterScheme url).dropWhile (· ≠ '/') with
  | [] => "/"
  | path => String.ofList (path.takeWhile fun c => c ≠ '?' && c ≠ '#')

/-- `parse_alg`. -/
def parseAlg : String → Option JwtAlgorithm
  | "RS256" => some .rs256
  | "RS384" => some .rs384
  | "RS512" => some .rs512
  | "PS256" => some .ps256
  | "PS384" => some .ps384
  | "PS512" => some .ps512
  | "ES256" => some .es256
  | "ES384" => some .es384
  | _ => none

def defaultAlgs : List JwtAlgorithm := [.rs256, .rs384, .rs512, .es256, .es384]

/-- The names `parse_allowed_algs` reads, `none` for the default. -/
def algNames : Option Json → Except String (Option (List String))
  | none => .ok none
  | some (.string s) =>
    .ok (some ((((s.toList.splitOnP fun c => c = ',' || c = ' ').map String.ofList).map trim).filter
      (· ≠ "")))
  | some (.array items) => .ok (some (items.filterMap Json.asStr))
  | some _ => .error "token_signing_alg_values_expected must be a string or array"

/-- `parse_allowed_algs`. -/
def parseAllowedAlgs (value : Option Json) : Except String (List JwtAlgorithm) := do
  match ← algNames value with
  | none | some [] => return defaultAlgs
  | some names =>
    names.mapM fun name =>
      match parseAlg name with
      | some alg => .ok alg
      | none => .error ("unsupported token signing algorithm '" ++ name ++
          "' (supported: RS256/384/512, PS256/384/512, ES256/384)")

/-- `read_valid_issuers`. -/
def readValidIssuers (config : HashMap Json) : List String :=
  match ((config["claim_validator"]?.bind (·.get "issuer")).bind (·.get "valid_issuers")).bind
      Json.asArray with
  | some issuers => issuers.filterMap Json.asStr
  | none => []

/-- `read_audience_cfg`. -/
def readAudienceCfg (config : HashMap Json) : String × Bool × Bool :=
  let audience := config["claim_validator"]?.bind (·.get "audience")
  (((audience.bind (·.get "claim")).bind Json.asStr).getD "aud",
    ((audience.bind (·.get "required")).bind Json.asBool).getD false,
    ((audience.bind (·.get "match_with_client_id")).bind Json.asBool).getD false)

/-- `build_interactive`. -/
def buildInteractive [Sha256] (config : HashMap Json) (discovery : Option String) :
    Except String Interactive := do
  let secret ←
    match sessionField config "secret", stringOpt config "session_secret" with
    | some secret, _ => .ok secret
    | none, some secret => .ok secret
    | none, none => .error "openid-connect: interactive login requires 'session.secret'"
  let redirectUri ←
    match stringOpt config "redirect_uri" with
    | some uri => .ok uri
    | none => .error "openid-connect: interactive login requires 'redirect_uri'"
  let redirectPath := urlPath redirectUri
  let authorizationEndpointCfg := stringOpt config "authorization_endpoint"
  let tokenEndpointCfg := stringOpt config "token_endpoint"
  if discovery = none ∧ (authorizationEndpointCfg = none ∨ tokenEndpointCfg = none) then
    .error ("openid-connect: interactive login requires 'discovery', or both " ++
      "'authorization_endpoint' and 'token_endpoint'")
  let sessionCookie := (sessionCookieField config "name").getD "oidc_session"
  let cookiePath := (sessionCookieField config "path").getD "/"
  if pathCovers cookiePath redirectPath = false then
    .error ("openid-connect: session.cookie.path '" ++ cookiePath ++
      "' does not cover the redirect_uri path '" ++ redirectPath ++
      "'; the session cookie would not be sent to the callback and login would loop. " ++
      "Set session.cookie.path to a prefix of the callback path.")
  return {
    sealer := CookieSealer.new secret
    authorizationEndpointCfg := authorizationEndpointCfg
    tokenEndpointCfg := tokenEndpointCfg
    redirectUri := redirectUri
    redirectPath := redirectPath
    scope := (stringOpt config "scope").getD "openid"
    sessionCookie := sessionCookie
    flowCookie := sessionCookie ++ "_flow"
    cookiePath := cookiePath
    sessionLifetime := ((cookieField config "lifetime").bind Json.asU64).getD 3600
    logoutPath := stringOpt config "logout_path"
    postLogoutRedirectUri := (stringOpt config "post_logout_redirect_uri").getD "/"
  }

/-! ## Keys -/

/-- `select_jwk`. -/
def selectJwk (keys : List Jwk) : Option String → Option Jwk
  | some kid => keys.find? fun k => k.kid = some kid
  | none =>
    match keys with
    | [key] => some key
    | _ => none

/-- `alg_matches_kty`. -/
def algMatchesKty (alg : JwtAlgorithm) (kty : String) : Bool :=
  match alg with
  | .rs256 | .rs384 | .rs512 | .ps256 | .ps384 | .ps512 => kty = "RSA"
  | .es256 | .es384 => kty = "EC"
  | .hs256 | .hs384 | .hs512 => kty = "oct"
  | .edDSA => kty = "OKP"

/-- `algs_for_key`. -/
def algsForKey (allowed : List JwtAlgorithm) (kty : String) : Except String (List JwtAlgorithm) :=
  match allowed.filter (algMatchesKty · kty) with
  | [] => .error ("no permitted signing algorithm can verify a '" ++ kty ++
      "' key; check token_signing_alg_values_expected")
  | algs => .ok algs

/-- A member of a JWK that must be there. -/
def jwkMember (kind name : String) : Option String → Except String String
  | some v => .ok v
  | none => .error (kind ++ " JWK missing '" ++ name ++ "'")

/-- `jwk_to_decoding_key`. -/
def jwkToDecodingKey [JsonWebToken] (jwk : Jwk) : Except String DecodingKey :=
  if jwk.kty = "RSA" then do
    let n ← jwkMember "RSA" "n" jwk.n
    let e ← jwkMember "RSA" "e" jwk.e
    match JsonWebToken.fromRsaComponents n e with
    | .ok key => .ok key
    | .error e => .error ("invalid RSA JWK: " ++ e)
  else if jwk.kty = "EC" then do
    let x ← jwkMember "EC" "x" jwk.x
    let y ← jwkMember "EC" "y" jwk.y
    match JsonWebToken.fromEcComponents x y with
    | .ok key => .ok key
    | .error e => .error ("invalid EC JWK: " ++ e)
  else .error ("unsupported JWK key type '" ++ jwk.kty ++ "'")

/-- `decode_and_validate`, at a time. -/
def decodeAndValidate [JsonWebToken] (now : UInt64) (token : String) (key : DecodingKey)
    (allowedAlgs : List JwtAlgorithm) : Except String (HashMap Json) :=
  match JsonWebToken.decode now token key
      { algorithms := allowedAlgs, validateExp := true, validateAud := false } with
  | .ok claims => .ok claims
  | .error e => .error ("token verification failed: " ++ e)

/-- A `Jwk` among the entries of an object. -/
def readJwk : Json → Option Jwk
  | .object entries => do
    let kty ← (Json.requiredField entries "kty").bind Json.asStr
    let kid ← Json.optionalStr entries "kid"
    let alg ← Json.optionalStr entries "alg"
    let n ← Json.optionalStr entries "n"
    let e ← Json.optionalStr entries "e"
    let x ← Json.optionalStr entries "x"
    let y ← Json.optionalStr entries "y"
    let crv ← Json.optionalStr entries "crv"
    some { kty := kty, kid := kid, alg := alg, n := n, e := e, x := x, y := y, crv := crv }
  | .array (kty :: members) => do
    let kty ← kty.asStr
    match ← members.mapM Json.asOptionalStr with
    | [kid, alg, n, e, x, y, crv] =>
      some { kty := kty, kid := kid, alg := alg, n := n, e := e, x := x, y := y, crv := crv }
    | _ => none
  | _ => none

/-- The keys of a `JwkSet`. -/
def readJwkSet : Json → Option (List Jwk)
  | .object entries =>
    ((Json.requiredField entries "keys").bind Json.asArray).bind fun keys => keys.mapM readJwk
  | .array [.array keys] => keys.mapM readJwk
  | _ => none

/-! ## Texts -/

/-- The digits of `{:02X}`. -/
def upperHexDigit (n : Nat) : Char := "0123456789ABCDEF".toList.getD n '0'

/-- The bytes `form_encode` leaves as they are. -/
def isUnreserved (b : UInt8) : Bool :=
  (0x41 ≤ b && b ≤ 0x5A) || (0x61 ≤ b && b ≤ 0x7A) || (0x30 ≤ b && b ≤ 0x39) || b = 0x2D ||
    b = 0x5F || b = 0x2E || b = 0x7E

def formEncodeByte (b : UInt8) : List Char :=
  if isUnreserved b then [Char.ofNat b.toNat]
  else ['%', upperHexDigit (b.toNat / 16), upperHexDigit (b.toNat % 16)]

/-- `form_encode`. -/
def formEncode (value : String) : String := String.ofList ((asBytes value).flatMap formEncodeByte)

/-- `parse_bearer`. -/
def parseBearer (headerValue : String) : Option String := do
  let (scheme, token) ← splitOnceChar ' ' headerValue
  let token := trim token
  if eqIgnoreAsciiCase scheme "bearer" ∧ token ≠ "" then some token else none

/-- `audience_contains`. -/
def audienceContains (aud : Json) (clientId : String) : Bool :=
  match aud with
  | .string s => s = clientId
  | .array items => items.any fun v => v.asStr = some clientId
  | _ => false

/-- `parse_introspection`. -/
def parseIntrospection [JsonStructCodec] (body : Bytes) : Except String (HashMap Json) :=
  match JsonCodec.parse body with
  | none => .error ("invalid introspection response: " ++ JsonStructCodec.fault "Value" body)
  | some value =>
    if ((value.get "active").bind Json.asBool).getD false = false then .error "token is not active"
    else .ok (Std.ExtTreeMap.ofList (value.asObject.getD []) compare)

/-- The pairs of the query, encoded. -/
def queryPairs (queryParams : HashMap (List String)) : List String :=
  queryParams.toList.flatMap fun (k, values) => values.map fun v => formEncode k ++ "=" ++ formEncode v

/-- `request_uri`. -/
def requestUri (ctx : Context) : String :=
  match (queryPairs ctx.request.queryParams).mergeSort fun a b => decide (a ≤ b) with
  | [] => ctx.request.path
  | pairs => ctx.request.path ++ "?" ++ "&".intercalate pairs

/-- `first_query`. -/
def firstQuery (ctx : Context) (name : String) : Option String :=
  (ctx.request.queryParams[name]?).bind List.head?

/-- `request_is_https`. -/
def requestIsHttps (ctx : Context) : Bool := eqIgnoreAsciiCase ctx.request.scheme "https"

/-- `random_token`, of its bytes. -/
def randomToken [Base64Url] (bytes : Bytes) : String := Base64Url.encode bytes

/-- `pkce_challenge`. -/
def pkceChallenge [Base64Url] [Sha256] (verifier : String) : String :=
  Base64Url.encode (Sha256.digest (asBytes verifier))

/-- `redirect`. -/
def redirect (ctx : Context) (location : String) (setCookies : List String) : PluginResult :=
  let headers := ctx.response.headers.insert "location" [location]
  .error {
    context := { ctx with response := {
      statusCode := 302
      headers := if setCookies = [] then headers else headers.insert "set-cookie" setCookies
      body := [] } }
    error := {
      nodeId := "", code := "OIDC_REDIRECT", message := "redirecting for interactive login",
      metadata := ∅ } }

/-- `OpenidConnectPlugin::reject`. -/
def reject (ctx : Context) (message : String) : PluginResult :=
  let quoted := String.ofList (message.toList.map fun c => if c = '"' then '\'' else c)
  .error {
    context := { ctx with response := {
      statusCode := 401
      headers := (ctx.response.headers.insert "content-type" ["application/json"]).insert
        "www-authenticate" ["Bearer error=\"invalid_token\""]
      body := asBytes ("\x7b\"error\": \"unauthorized\", \"message\": \"" ++ quoted ++ "\"\x7d") } }
    error := { nodeId := "", code := "OIDC_UNAUTHORIZED", message := message, metadata := ∅ } }

end OpenidConnect

/-! ## The two cookies -/

namespace FlowState

/-- As it is written, in the order of the declaration. -/
def entries (flow : FlowState) : List (String × Json) :=
  [("state", .string flow.state), ("nonce", .string flow.nonce), ("verifier", .string flow.verifier),
    ("original_uri", .string flow.originalUri)]

/-- The derived reader. -/
def read : Json → Option FlowState
  | .object entries => do
    let state ← (Json.requiredField entries "state").bind Json.asStr
    let nonce ← (Json.requiredField entries "nonce").bind Json.asStr
    let verifier ← (Json.requiredField entries "verifier").bind Json.asStr
    let originalUri ← (Json.requiredField entries "original_uri").bind Json.asStr
    some { state := state, nonce := nonce, verifier := verifier, originalUri := originalUri }
  | .array [.string state, .string nonce, .string verifier, .string originalUri] =>
    some { state := state, nonce := nonce, verifier := verifier, originalUri := originalUri }
  | _ => none

/-- `serde_json::from_slice::<FlowState>`. -/
def fromSlice [JsonStructCodec] (text : Bytes) : Option FlowState :=
  (JsonStructCodec.entries text).bind read

end FlowState

namespace SessionData

/-- As it is written; an absent token is left out. -/
def entries (session : SessionData) : List (String × Json) :=
  ("claims", session.claims) ::
    match session.accessToken with
    | some token => [("access_token", .string token)]
    | none => []

/-- The derived reader. -/
def read : Json → Option SessionData
  | .object entries => do
    let claims ← Json.requiredField entries "claims"
    let accessToken ← Json.optionalStr entries "access_token"
    some { claims := claims.toValue, accessToken := accessToken }
  | .array [claims] => some { claims := claims.toValue, accessToken := none }
  | .array [claims, accessToken] => do
    let accessToken ← accessToken.asOptionalStr
    some { claims := claims.toValue, accessToken := accessToken }
  | _ => none

/-- `serde_json::from_slice::<SessionData>`. -/
def fromSlice [JsonStructCodec] (text : Bytes) : Option SessionData :=
  (JsonStructCodec.entries text).bind read

end SessionData

/-- What the node seals. -/
inductive CookiePayload where
  | flow (data : FlowState)
  | session (data : SessionData)
deriving DecidableEq

namespace CookiePayload

def entries : CookiePayload → List (String × Json)
  | flow data => data.entries
  | session data => data.entries

/-- `serde_json::to_vec`, which does not fail on either. -/
def toVec [JsonText] (payload : CookiePayload) : Bytes :=
  asBytes (JsonText.toText (.object payload.entries))

end CookiePayload

section Read

variable [JsonStructCodec]

theorem FlowState.fromSlice_flow (flow : FlowState) :
    FlowState.fromSlice (CookiePayload.flow flow).toVec = some flow := by
  have hdepth : (Json.object flow.entries).depth < 128 := by
    show 1 + max 0 (max 0 (max 0 (max 0 0))) < 128
    omega
  have hread := JsonStructCodec.entries_toText flow.entries
    ⟨trivial, trivial, trivial, trivial, trivial⟩ hdepth
  rw [FlowState.fromSlice, CookiePayload.toVec]
  show (JsonStructCodec.entries (asBytes (JsonText.toText (.object flow.entries)))).bind _ = _
  rw [hread]
  rfl

/-- A session is no flow state. -/
theorem FlowState.fromSlice_session {session : SessionData} (hclaims : session.claims.Canonical) :
    FlowState.fromSlice (CookiePayload.session session).toVec = none := by
  have hcanonical : Json.CanonicalFields session.entries := by
    unfold SessionData.entries
    cases session.accessToken with
    | none => exact ⟨hclaims, trivial⟩
    | some token => exact ⟨hclaims, trivial, trivial⟩
  rw [FlowState.fromSlice, CookiePayload.toVec]
  cases hread : JsonStructCodec.entries
      (asBytes (JsonText.toText (.object (CookiePayload.session session).entries))) with
  | none => rfl
  | some w =>
    obtain rfl := JsonStructCodec.eq_of_entries_toText session.entries w hcanonical hread
    rw [Option.bind_some, SessionData.entries]
    cases session.accessToken with
    | none => rfl
    | some token => rfl

/-- A flow state is no session. -/
theorem SessionData.fromSlice_flow (flow : FlowState) :
    SessionData.fromSlice (CookiePayload.flow flow).toVec = none := by
  rw [SessionData.fromSlice, CookiePayload.toVec]
  cases hread : JsonStructCodec.entries
      (asBytes (JsonText.toText (.object (CookiePayload.flow flow).entries))) with
  | none => rfl
  | some w =>
    obtain rfl := JsonStructCodec.eq_of_entries_toText flow.entries w
      ⟨trivial, trivial, trivial, trivial, trivial⟩ hread
    rfl

/-- A session is read back with its claims, but for their floats. -/
theorem SessionData.eq_of_fromSlice {session read : SessionData}
    (hclaims : session.claims.Canonical)
    (h : SessionData.fromSlice (CookiePayload.session session).toVec = some read) :
    read = { claims := session.claims.mapFloats JsonCodec.reread
             accessToken := session.accessToken } := by
  have hcanonical : Json.CanonicalFields session.entries := by
    unfold SessionData.entries
    cases session.accessToken with
    | none => exact ⟨hclaims, trivial⟩
    | some token => exact ⟨hclaims, trivial, trivial⟩
  obtain ⟨w, hentries, hread⟩ := Option.bind_eq_some_iff.mp h
  obtain rfl := JsonStructCodec.eq_of_entries_toText session.entries w hcanonical hentries
  have hvalue := Json.toValue_mapFloats JsonCodec.reread session.claims hclaims
  obtain ⟨claims, accessToken⟩ := session
  cases accessToken with
  | none =>
    rw [← Option.some.inj hread]
    exact congrArg (SessionData.mk · none) hvalue
  | some token =>
    rw [← Option.some.inj hread]
    exact congrArg (SessionData.mk · (some token)) hvalue

/-- A session is read back, with its floats as they are reread. -/
theorem SessionData.fromSlice_session {session : SessionData}
    (hclaims : session.claims.Canonical) (hdepth : (Json.object session.entries).depth < 128) :
    SessionData.fromSlice (CookiePayload.session session).toVec = some {
      claims := session.claims.mapFloats JsonCodec.reread, accessToken := session.accessToken } := by
  have hcanonical : Json.CanonicalFields session.entries := by
    unfold SessionData.entries
    cases session.accessToken with
    | none => exact ⟨hclaims, trivial⟩
    | some token => exact ⟨hclaims, trivial, trivial⟩
  have hread : ∃ read, SessionData.fromSlice (CookiePayload.session session).toVec = some read := by
    unfold SessionData.fromSlice CookiePayload.toVec
    show ∃ read, (JsonStructCodec.entries (asBytes (JsonText.toText (.object session.entries)))).bind _ =
      some read
    rw [JsonStructCodec.entries_toText session.entries hcanonical hdepth, Option.bind_some,
      SessionData.entries]
    cases session.accessToken with
    | none => exact ⟨_, rfl⟩
    | some token => exact ⟨_, rfl⟩
  obtain ⟨read, hread⟩ := hread
  rw [hread, SessionData.eq_of_fromSlice hclaims hread]

end Read

/-! ## Execution -/

/-- The URLs a node resolves once and keeps. -/
inductive UriCell where
  | jwksUri
  | authzEndpoint
  | tokenEndpoint
deriving DecidableEq

/-- What an execution asks of the outside. -/
inductive OidcCall where
  /-- `SystemTime::now()`, in seconds -/
  | unixNow
  /-- `Instant::now()` -/
  | instant
  /-- so many random bytes -/
  | random (size : Nat)
  | request (req : OutboundRequest)
  | readUri (cell : UriCell)
  | writeUri (cell : UriCell) (uri : String)
  /-- the key cache is taken for oneself -/
  | lockJwks
  /-- the key cache is given back with this content -/
  | unlockJwks (cache : Option CachedJwks)
  | sealCookie (sealer : CookieSealer) (payload : CookiePayload) (ttl : UInt64)
  | openCookie (sealer : CookieSealer) (value : String)

def OidcCall.Answer : OidcCall → Type
  | unixNow => UInt64
  | instant => Nat
  | random _ => Bytes
  | request _ => Except OutboundError OutboundResponse
  | readUri _ => Option String
  | writeUri _ _ => Unit
  | lockJwks => Option CachedJwks
  | unlockJwks _ => Unit
  | sealCookie _ _ _ => String
  | openCookie _ _ => Except CookieError Bytes

abbrev OidcTask := Task OidcCall OidcCall.Answer

namespace OidcTask

abbrev unixNow : OidcTask UInt64 := Task.perform OidcCall.unixNow

abbrev instant : OidcTask Nat := Task.perform OidcCall.instant

abbrev random (size : Nat) : OidcTask Bytes := Task.perform (OidcCall.random size)

abbrev request (req : OutboundRequest) : OidcTask (Except OutboundError OutboundResponse) :=
  Task.perform (OidcCall.request req)

abbrev readUri (cell : UriCell) : OidcTask (Option String) := Task.perform (OidcCall.readUri cell)

abbrev writeUri (cell : UriCell) (uri : String) : OidcTask Unit :=
  Task.perform (OidcCall.writeUri cell uri)

abbrev lockJwks : OidcTask (Option CachedJwks) := Task.perform OidcCall.lockJwks

abbrev unlockJwks (cache : Option CachedJwks) : OidcTask Unit :=
  Task.perform (OidcCall.unlockJwks cache)

abbrev sealCookie (sealer : CookieSealer) (payload : CookiePayload) (ttl : UInt64) :
    OidcTask String :=
  Task.perform (OidcCall.sealCookie sealer payload ttl)

abbrev openCookie (sealer : CookieSealer) (value : String) : OidcTask (Except CookieError Bytes) :=
  Task.perform (OidcCall.openCookie sealer value)

end OidcTask

namespace OpenidConnectPlugin

open OpenidConnect

section Config

variable [Sha256]

/-- `OpenidConnectPlugin::from_config`. -/
def fromConfig (config : HashMap Json) : Except String OpenidConnectPlugin := do
  let flag := fun field default => (config[field]?.bind Json.asBool).getD default
  let bearerOnly := flag "bearer_only" true
  let discovery := stringOpt config "discovery"
  let jwksUriCfg := stringOpt config "jwks_uri"
  let introspectionEndpoint := stringOpt config "introspection_endpoint"
  let useJwks := discovery.isSome || jwksUriCfg.isSome
  if useJwks = false ∧ introspectionEndpoint = none then
    .error ("openid-connect: requires a JWKS source ('discovery' or 'jwks_uri') " ++
      "or an 'introspection_endpoint'")
  let clientId := stringOpt config "client_id"
  let clientSecret := stringOpt config "client_secret"
  if useJwks = false ∧ (clientId = none ∨ clientSecret = none) then
    .error "openid-connect: introspection requires 'client_id' and 'client_secret'"
  let interactive ←
    if bearerOnly then .ok none
    else if useJwks = false then
      .error ("openid-connect: interactive login requires a JWKS source " ++
        "('discovery' or 'jwks_uri') to validate the id_token")
    else if clientId = none ∨ clientSecret = none then
      .error "openid-connect: interactive login requires 'client_id' and 'client_secret'"
    else (buildInteractive config discovery).map some
  let allowedAlgs ← parseAllowedAlgs config["token_signing_alg_values_expected"]?
  let (audienceClaim, audienceRequired, audienceMatchClientId) := readAudienceCfg config
  return {
    discovery := discovery
    jwksUriCfg := jwksUriCfg
    introspectionEndpoint := introspectionEndpoint
    clientId := clientId
    clientSecret := clientSecret
    sslVerify := flag "ssl_verify" true
    timeout := durationFromSecs (max ((config["timeout"]?.bind Json.asU64).getD 3).toNat 1)
    allowedAlgs := allowedAlgs
    validIssuers := readValidIssuers config
    audienceClaim := audienceClaim
    audienceRequired := audienceRequired
    audienceMatchClientId := audienceMatchClientId
    setUserinfoHeader := flag "set_userinfo_header" true
    setAccessTokenHeader := flag "set_access_token_header" true
    accessTokenInAuthorizationHeader := flag "access_token_in_authorization_header" false
    useJwks := useJwks
    jwkTtl := durationFromSecs ((config["jwk_expires_in"]?.bind Json.asU64).getD 86400).toNat
    interactive := interactive
  }

end Config

variable (plugin : OpenidConnectPlugin)

/-- `validate_claims`. -/
def validateClaims (claims : HashMap Json) : Except String Unit := do
  if plugin.validIssuers ≠ [] then
    match claims["iss"]?.bind Json.asStr with
    | some iss => if iss ∉ plugin.validIssuers then .error "issuer not in valid_issuers"
    | none => .error "issuer not in valid_issuers"
  let aud := claims[plugin.audienceClaim]?
  if plugin.audienceRequired ∧ aud = none then
    .error ("required audience claim '" ++ plugin.audienceClaim ++ "' missing")
  if plugin.audienceMatchClientId then
    match aud with
    | some aud =>
      if audienceContains aud (plugin.clientId.getD "") = false then
        .error "audience does not match client_id"
    | none => pure ()

/-- The request of `get`. -/
def getRequest (url : String) : OutboundRequest where
  method := "GET"
  url := url
  headers := []
  body := []
  timeout := plugin.timeout
  sslVerify := plugin.sslVerify

section Requests

variable [Base64Codec]

/-- A form sent with the client's credentials. -/
def formRequest (url body : String) : OutboundRequest where
  method := "POST"
  url := url
  headers := [
    ("content-type", "application/x-www-form-urlencoded"),
    ("authorization", "Basic " ++
      Base64Codec.encode (asBytes (plugin.clientId.getD "" ++ ":" ++ plugin.clientSecret.getD ""))),
    ("accept", "application/json")]
  body := asBytes body
  timeout := plugin.timeout
  sslVerify := plugin.sslVerify

/-- The request of `exchange_code`. -/
def exchangeRequest (tokenEndpoint code verifier redirectUri : String) : OutboundRequest :=
  plugin.formRequest tokenEndpoint
    ("grant_type=authorization_code&code=" ++ formEncode code ++ "&redirect_uri=" ++
      formEncode redirectUri ++ "&code_verifier=" ++ formEncode verifier ++ "&client_id=" ++
      formEncode (plugin.clientId.getD ""))

/-- The request of `validate_via_introspection`. -/
def introspectionRequest (endpoint token : String) : OutboundRequest :=
  plugin.formRequest endpoint ("token=" ++ formEncode token ++ "&token_type_hint=access_token")

/-- `Authorization: Bearer` or `X-Access-Token`, as configured. -/
def setAccessToken (headers : HashMap (List String)) (token : String) : HashMap (List String) :=
  if plugin.setAccessTokenHeader then
    if plugin.accessTokenInAuthorizationHeader then
      headers.insert "authorization" ["Bearer " ++ token]
    else headers.insert "x-access-token" [token]
  else headers

variable [JsonText]

/-- `X-Userinfo`, as configured. -/
def setUserinfo (headers : HashMap (List String)) (claims : Json) : HashMap (List String) :=
  if plugin.setUserinfoHeader then
    headers.insert "x-userinfo" [Base64Codec.encode (asBytes (JsonText.toText claims))]
  else headers

/-- The message with the claims, and the user where they name one. -/
def setMessage (message : HashMap Json) (sub : Option Json) (claims : Json) : HashMap Json :=
  (match sub with
    | some sub => message.insert "user_id" sub
    | none => message).insert "jwt_claims" claims

/-- `serde_json::to_value` of claims. -/
def claimsValue (claims : HashMap Json) : Json := .object claims.toList

/-- `attach`. -/
def attach (ctx : Context) (claims : HashMap Json) (token : String) : Context :=
  let value := claimsValue claims
  { ctx with
    message := setMessage ctx.message claims["sub"]? value
    request := { ctx.request with
      headers := plugin.setAccessToken (plugin.setUserinfo ctx.request.headers value) token } }

/-- What `execute_interactive` does with a session. -/
def attachSession (ctx : Context) (session : SessionData) : Context :=
  let headers := plugin.setUserinfo ctx.request.headers session.claims
  { ctx with
    message := setMessage ctx.message (session.claims.get "sub") session.claims
    request := { ctx.request with
      headers :=
        match session.accessToken with
        | some token => plugin.setAccessToken headers token
        | none => headers } }

end Requests

variable [Sha256] [Aes256Gcm] [Base64Url] [Base64Codec] [JsonStructCodec] [JsonWebToken]
  [DurationText]

/-- `get`. -/
def get (url : String) : OidcTask (Except OutboundError OutboundResponse) :=
  OidcTask.request (plugin.getRequest url)

/-- A URL field of a discovery response. -/
def readDiscovery (field : String) (resp : OutboundResponse) : Except String String :=
  if resp.status ≠ 200 then .error ("discovery returned status " ++ showNat resp.status.toNat)
  else
    match JsonCodec.parse resp.body with
    | none => .error ("failed to parse discovery doc: " ++ JsonStructCodec.fault "Value" resp.body)
    | some doc =>
      match (doc.get field).bind Json.asStr with
      | some uri => .ok uri
      | none => .error ("discovery doc missing " ++ field)

/-- A URL from its cell, or else from the discovery document. -/
def discover (cell : UriCell) (field missing : String) : OidcTask (Except String String) := do
  match ← OidcTask.readUri cell with
  | some uri => return .ok uri
  | none =>
  match plugin.discovery with
  | none => return .error missing
  | some discovery =>
  match ← plugin.get discovery with
  | .error e => return .error ("discovery fetch failed: " ++ e.text)
  | .ok resp =>
  match readDiscovery field resp with
  | .error e => return .error e
  | .ok uri =>
    OidcTask.writeUri cell uri
    return .ok uri

/-- `jwks_uri`. -/
def jwksUri : OidcTask (Except String String) :=
  match plugin.jwksUriCfg with
  | some uri => return .ok uri
  | none => plugin.discover .jwksUri "jwks_uri" "no discovery URL configured"

/-- `discovery_field`. -/
def discoveryField (field : String) (cell : UriCell) : OidcTask (Except String String) :=
  plugin.discover cell field ("no discovery URL to resolve " ++ field)

/-- `authorization_endpoint`. -/
def authorizationEndpoint (flow : Interactive) : OidcTask (Except String String) :=
  match flow.authorizationEndpointCfg with
  | some uri => return .ok uri
  | none => plugin.discoveryField "authorization_endpoint" .authzEndpoint

/-- `token_endpoint`. -/
def tokenEndpoint (flow : Interactive) : OidcTask (Except String String) :=
  match flow.tokenEndpointCfg with
  | some uri => return .ok uri
  | none => plugin.discoveryField "token_endpoint" .tokenEndpoint

/-- The keys of a JWKS response. -/
def readJwks (resp : OutboundResponse) : Except String (List Jwk) :=
  if resp.status ≠ 200 then .error ("JWKS endpoint returned status " ++ showNat resp.status.toNat)
  else
    match (JsonStructCodec.entries resp.body).bind readJwkSet with
    | some keys => .ok keys
    | none => .error ("failed to parse JWKS: " ++ JsonStructCodec.fault "JwkSet" resp.body)

/-- The callouts of `get_jwks`. -/
def fetchJwks : OidcTask (Except String (List Jwk)) := do
  match ← plugin.jwksUri with
  | .error e => return .error e
  | .ok uri =>
  match ← plugin.get uri with
  | .error e => return .error ("JWKS fetch failed: " ++ e.text)
  | .ok resp => return readJwks resp

/-- `get_jwks`; the cache stays locked meanwhile. -/
def getJwks (force : Bool) : OidcTask (Except String (List Jwk)) := do
  let cache ← OidcTask.lockJwks
  let now ← OidcTask.instant
  match cache.filter fun c => !force && decide (now - c.fetchedAt < plugin.jwkTtl) with
  | some fresh =>
    OidcTask.unlockJwks cache
    return .ok fresh.keys
  | none =>
  match ← plugin.fetchJwks with
  | .error e =>
    OidcTask.unlockJwks cache
    return .error e
  | .ok keys =>
    let fetchedAt ← OidcTask.instant
    OidcTask.unlockJwks (some { keys := keys, fetchedAt := fetchedAt })
    return .ok keys

/-- The key of a token: an unknown `kid` has the keys fetched again, once. -/
def jwkFor (kid : Option String) : OidcTask (Except String Jwk) := do
  match ← plugin.getJwks false with
  | .error e => return .error e
  | .ok keys =>
  match selectJwk keys kid with
  | some jwk => return .ok jwk
  | none =>
  match ← plugin.getJwks true with
  | .error e => return .error e
  | .ok keys =>
  match selectJwk keys kid with
  | some jwk => return .ok jwk
  | none => return .error "no matching JWK for token kid"

/-- A token under a key: signature, expiry, and the claims. -/
def checkToken (now : UInt64) (token : String) (jwk : Jwk) : Except String (HashMap Json) := do
  let key ← jwkToDecodingKey jwk
  let algs ← algsForKey plugin.allowedAlgs jwk.kty
  let claims ← decodeAndValidate now token key algs
  plugin.validateClaims claims
  return claims

/-- `validate_via_jwks`. -/
def validateViaJwks (token : String) : OidcTask (Except String (HashMap Json)) := do
  match JsonWebToken.decodeHeader token with
  | .error e => return .error ("invalid JWT header: " ++ e)
  | .ok kid =>
  match ← plugin.jwkFor kid with
  | .error e => return .error e
  | .ok jwk =>
    let now ← OidcTask.unixNow
    return plugin.checkToken now token jwk

/-- The claims of an introspection response. -/
def readIntrospection (resp : OutboundResponse) : Except String (HashMap Json) := do
  if resp.status ≠ 200 then .error ("introspection returned status " ++ showNat resp.status.toNat)
  let claims ← parseIntrospection resp.body
  plugin.validateClaims claims
  return claims

/-- `validate_via_introspection`. -/
def validateViaIntrospection (token : String) : OidcTask (Except String (HashMap Json)) := do
  match plugin.introspectionEndpoint with
  | none => return .error "no introspection endpoint configured"
  | some endpoint =>
  match ← OidcTask.request (plugin.introspectionRequest endpoint token) with
  | .error e => return .error ("introspection callout failed: " ++ e.text)
  | .ok resp => return plugin.readIntrospection resp

/-- The value of a cookie of the request, in its first `Cookie` header. -/
def requestCookie (ctx : Context) (name : String) : Option String :=
  (ctx.request.headers["cookie"]?.bind List.head?).bind fun header => readCookie header name

/-- The payload of a sealed cookie of the request. -/
def openedCookie (flow : Interactive) (ctx : Context) (name : String) : OidcTask (Option Bytes) := do
  match requestCookie ctx name with
  | none => return none
  | some raw =>
  match ← OidcTask.openCookie flow.sealer raw with
  | .ok bytes => return some bytes
  | .error _ => return none

/-- `read_session`. -/
def readSession (flow : Interactive) (ctx : Context) : OidcTask (Option SessionData) := do
  let opened ← openedCookie flow ctx flow.sessionCookie
  return opened.bind SessionData.fromSlice

/-- `read_flow`. -/
def readFlow (flow : Interactive) (ctx : Context) : OidcTask (Option FlowState) := do
  let opened ← openedCookie flow ctx flow.flowCookie
  return opened.bind FlowState.fromSlice

/-- How long a login may take, in seconds. -/
def flowTtl : UInt64 := 300

/-- The URL `begin_auth` sends the browser to. -/
def authorizationUrl (flow : Interactive) (authz state nonce challenge : String) : String :=
  authz ++ "?response_type=code&client_id=" ++ formEncode (plugin.clientId.getD "") ++
    "&redirect_uri=" ++ formEncode flow.redirectUri ++ "&scope=" ++ formEncode flow.scope ++
    "&state=" ++ formEncode state ++ "&nonce=" ++ formEncode nonce ++ "&code_challenge=" ++
    formEncode challenge ++ "&code_challenge_method=S256"

/-- `Set-Cookie` for a sealed value. -/
def sealedCookie (flow : Interactive) (ctx : Context) (name value : String) (maxAge : UInt64) :
    String :=
  buildSetCookie name value {
    path := flow.cookiePath, maxAge := some maxAge, httpOnly := true
    secure := requestIsHttps ctx, sameSite := .lax }

/-- `begin_auth`. -/
def beginAuth (flow : Interactive) (ctx : Context) : OidcTask PluginResult := do
  match ← plugin.authorizationEndpoint flow with
  | .error e => return reject ctx e
  | .ok authz =>
    let state ← OidcTask.random 32
    let nonce ← OidcTask.random 32
    let verifier ← OidcTask.random 32
    let flowState : FlowState := {
      state := randomToken state, nonce := randomToken nonce, verifier := randomToken verifier
      originalUri := requestUri ctx }
    let value ← OidcTask.sealCookie flow.sealer (.flow flowState) flowTtl
    return redirect ctx
      (plugin.authorizationUrl flow authz flowState.state flowState.nonce
        (pkceChallenge flowState.verifier))
      [sealedCookie flow ctx flow.flowCookie value flowTtl]

/-- `exchange_code`. -/
def exchangeCode (tokenEndpoint code verifier redirectUri : String) :
    OidcTask (Except String Json) := do
  match ← OidcTask.request (plugin.exchangeRequest tokenEndpoint code verifier redirectUri) with
  | .error e => return .error ("token exchange callout failed: " ++ e.text)
  | .ok resp =>
  if resp.status ≠ 200 then
    return .error ("token endpoint returned status " ++ showNat resp.status.toNat)
  else
  match JsonCodec.parse resp.body with
  | some tokens => return .ok tokens
  | none => return .error ("invalid token response: " ++ JsonStructCodec.fault "Value" resp.body)

/-- Where the callback sends the browser. -/
def callbackTarget (flowState : FlowState) : String :=
  if flowState.originalUri = "" then "/" else flowState.originalUri

/-- `handle_callback` from the tokens on. -/
def finishLogin (flow : Interactive) (ctx : Context) (flowState : FlowState) (tokens : Json) :
    OidcTask PluginResult := do
  match (tokens.get "id_token").bind Json.asStr with
  | none => return reject ctx "token response missing id_token"
  | some idToken =>
  match ← plugin.validateViaJwks idToken with
  | .error e => return reject ctx ("id_token validation failed: " ++ e)
  | .ok claims =>
  if claims["nonce"]?.bind Json.asStr ≠ some flowState.nonce then
    return reject ctx "id_token nonce mismatch"
  else
    let session : SessionData := {
      claims := claimsValue claims
      accessToken := (tokens.get "access_token").bind Json.asStr }
    let value ← OidcTask.sealCookie flow.sealer (.session session) flow.sessionLifetime
    return redirect ctx (callbackTarget flowState)
      [sealedCookie flow ctx flow.sessionCookie value flow.sessionLifetime,
        deleteCookie flow.flowCookie flow.cookiePath]

/-- `handle_callback`. -/
def handleCallback (flow : Interactive) (ctx : Context) : OidcTask PluginResult := do
  let code := (firstQuery ctx "code").getD ""
  let state := (firstQuery ctx "state").getD ""
  match ← readFlow flow ctx with
  | none => return reject ctx "missing or invalid login flow cookie"
  | some flowState =>
  if flowState.state ≠ state ∨ state = "" then
    return reject ctx "state mismatch (possible CSRF)"
  else
  match ← plugin.tokenEndpoint flow with
  | .error e => return reject ctx e
  | .ok endpoint =>
  match ← plugin.exchangeCode endpoint code flowState.verifier flow.redirectUri with
  | .error e => return reject ctx e
  | .ok tokens => plugin.finishLogin flow ctx flowState tokens

/-- The request asks for the logout path. -/
def IsLogout (flow : Interactive) (ctx : Context) : Prop := flow.logoutPath = some ctx.request.path

instance (flow : Interactive) (ctx : Context) : Decidable (IsLogout flow ctx) :=
  inferInstanceAs (Decidable (_ = _))

/-- The request is the provider's redirect back. -/
def IsCallback (flow : Interactive) (ctx : Context) : Prop :=
  ctx.request.path = flow.redirectPath ∧ (ctx.request.queryParams["code"]?).isSome

instance (flow : Interactive) (ctx : Context) : Decidable (IsCallback flow ctx) :=
  inferInstanceAs (Decidable (_ ∧ _))

/-- `execute_interactive`. -/
def executeInteractive (flow : Interactive) (ctx : Context) : OidcTask PluginResult :=
  if IsLogout flow ctx then
    return redirect ctx flow.postLogoutRedirectUri [deleteCookie flow.sessionCookie flow.cookiePath]
  else if IsCallback flow ctx then plugin.handleCallback flow ctx
  else do
    match ← readSession flow ctx with
    | some session => return .ok { context := plugin.attachSession ctx session, namedOutputs := ∅ }
    | none => plugin.beginAuth flow ctx

/-- The bearer token of the request. -/
def bearerToken (ctx : Context) : Option String :=
  (ctx.request.headers["authorization"]?.bind List.head?).bind parseBearer

/-- The validation of a bearer token, as configured. -/
def validateToken (token : String) : OidcTask (Except String (HashMap Json)) :=
  if plugin.useJwks then plugin.validateViaJwks token else plugin.validateViaIntrospection token

/-- `execute` in resource-server mode. -/
def executeBearer (ctx : Context) : OidcTask PluginResult := do
  match bearerToken ctx with
  | none => return reject ctx "No bearer token found in request"
  | some token =>
  match ← plugin.validateToken token with
  | .error e => return reject ctx e
  | .ok claims => return .ok { context := plugin.attach ctx claims token, namedOutputs := ∅ }

/-- The context without what a client sent as its identity. -/
def stripUserinfo (ctx : Context) : Context :=
  { ctx with request := { ctx.request with headers := ctx.request.headers.erase "x-userinfo" } }

/-- `execute`. -/
def execute (ctx : Context) : OidcTask PluginResult :=
  match plugin.interactive with
  | some flow => plugin.executeInteractive flow (stripUserinfo ctx)
  | none => plugin.executeBearer (stripUserinfo ctx)

end OpenidConnectPlugin

end Featherbit
