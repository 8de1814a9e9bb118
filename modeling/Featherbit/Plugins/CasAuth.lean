/-
  CAS TICKETS (`plugins/native/cas_auth.rs`).

  A ticket of the request is validated at the CAS server, whose answer is XML or JSON; the user found
  in it is attached to the request.  With a session secret the node also sends the browser to log in
  and keeps the user in a sealed cookie.  What the server answers, the clock and the nonce of a cookie
  are arguments.
-/
import Featherbit.Json.Struct
import Featherbit.Lib.TextSearch
import Featherbit.Outbound
import Featherbit.Plugins.AuthNodes
import Featherbit.Plugins.CookieSession
import Featherbit.Plugins.OpenidConnect
import Featherbit.Vars.FormDecode

namespace Featherbit

/-- A configured `cas-auth` node. -/
structure CasAuthPlugin where
  idpUri : String
  service : Option String
  ticketParam : String
  sslVerify : Bool
  timeout : Nat
  /-- seals the session cookie; present in interactive mode only -/
  sealer : Option CookieSealer
  cookieName : String
  cookiePath : String
  /-- in seconds -/
  cookieLifetime : UInt64
  logoutPath : Option String

namespace CasAuthPlugin

/-! ## Configuration -/

/-- A string that is not empty. -/
def nonEmptyStr (v : Option Json) : Option String := (v.bind Json.asStr).filter (· ≠ "")

/-- `session_secret`. -/
def sessionSecret (config : HashMap Json) : Option String :=
  ((config["session_secret"]?.bind Json.asStr).or
    ((config["session"]?.bind (Json.get "secret")).bind Json.asStr)).filter (· ≠ "")

/-- A field of `session.cookie`, or its flat form. -/
def sessionCookieField (config : HashMap Json) (key : String) : Option Json :=
  ((config["session"]?.bind (Json.get "cookie")).bind (Json.get key)).or
    config["session_cookie_" ++ key]?

/-- `CasAuthPlugin::from_config`. -/
def fromConfig [Sha256] (config : HashMap Json) : Except String CasAuthPlugin := do
  let idpUri ← match (config["idp_uri"]?.bind Json.asStr).filter fun s => trim s ≠ "" with
    | some uri => pure (trimEndMatches '/' uri)
    | none => throw "cas-auth plugin requires a non-empty 'idp_uri'"
  return {
    idpUri
    service := (config["service"]?.bind Json.asStr).filter fun s => trim s ≠ ""
    ticketParam := (config["ticket_param"]?.bind Json.asStr).getD "ticket"
    sslVerify := (config["ssl_verify"]?.bind Json.asBool).getD true
    timeout := ((config["timeout_ms"]?.bind Json.asU64).getD 3000).toNat * 1000000
    sealer := (sessionSecret config).map CookieSealer.new
    cookieName := (nonEmptyStr (sessionCookieField config "name")).getD "cas_session"
    cookiePath := (nonEmptyStr (sessionCookieField config "path")).getD "/"
    cookieLifetime := ((sessionCookieField config "lifetime").bind Json.asU64).getD 3600
    logoutPath := nonEmptyStr config["logout_path"]? }

/-! ## The answer of the server -/

/-- The trimmed text between the first `<tag>` and the `</tag>` behind it. -/
def extractXmlTag (text tag : String) : Option String := do
  let (_, inner) ← TextSearch.cut ("<" ++ tag ++ ">").toList text.toList
  let (value, _) ← TextSearch.cut ("</" ++ tag ++ ">").toList inner
  let value := trim (String.ofList value)
  if value = "" then none else some value

/-- `parse_service_validate`. -/
def parseServiceValidate [JsonCodec] (body : Bytes) : Option String :=
  match fromUtf8 body with
  | none => none
  | some text =>
    let xml :=
      if (TextSearch.cut "authenticationSuccess".toList text.toList).isSome then
        (extractXmlTag text "cas:user").or (extractXmlTag text "user")
      else none
    if (text.toList.dropWhile isWhitespace).head? = some '{' then
      match JsonCodec.parse body with
      | some json =>
        ((((json.get "serviceResponse").bind (Json.get "authenticationSuccess")).bind
          (Json.get "user")).bind Json.asStr).map trim
      | none => xml
    else xml

/-! ## Execution -/

/-- `percent_encode`. -/
def percentEncode (value : String) : String := Vars.percentText OpenidConnect.isUnreserved value

/-- `build_validate_url`. -/
def buildValidateUrl (idpUri ticket service : String) : String :=
  idpUri ++ "/serviceValidate?ticket=" ++ percentEncode ticket ++ "&service=" ++ percentEncode service

/-- `build_login_url`. -/
def buildLoginUrl (idpUri service : String) : String :=
  idpUri ++ "/login?service=" ++ percentEncode service

/-- `reject`. -/
def reject (ctx : Context) (message : String) : PluginResult :=
  rejectUnauthorized ctx "CAS_AUTH_FAILED" message []

/-- `redirect`. -/
def redirect (ctx : Context) (location : String) (setCookies : List String) : PluginResult :=
  let headers := ctx.response.headers.insert "location" [location]
  .error {
    context := { ctx with response := {
      statusCode := 302
      headers := if setCookies = [] then headers else headers.insert "set-cookie" setCookies
      body := [] } }
    error := { nodeId := "", code := "CAS_REDIRECT", message := "cas-auth redirect", metadata := ∅ } }

/-- `attach_user`. -/
def attachUser (ctx : Context) (user : String) : Context :=
  { ctx with
    request := { ctx.request with headers := ctx.request.headers.insert "x-cas-user" [user] }
    message := (ctx.message.insert "user" (.string user)).insert "user_id" (.string user) }

/-- `extract_ticket`. -/
def extractTicket (query : HashMap (List String)) (param : String) : Option String :=
  (query[param]?.bind List.head?).filter (· ≠ "")

variable (plugin : CasAuthPlugin)

/-- `service_url`. -/
def serviceUrl (ctx : Context) : String :=
  plugin.service.getD (ctx.request.scheme ++ "://" ++ ctx.request.host ++ ctx.request.path)

/-- The callout that validates a ticket. -/
def validateRequest (ctx : Context) (ticket : String) : OutboundRequest where
  method := "GET"
  url := buildValidateUrl plugin.idpUri ticket (plugin.serviceUrl ctx)
  headers := []
  body := []
  timeout := plugin.timeout
  sslVerify := plugin.sslVerify

section Validate

variable [JsonCodec] [DurationText]

/-- `cas_validate`, with the answer of the client. -/
def casValidate (client : OutboundClient) (ctx : Context) (ticket : String) : Except String String :=
  match client (plugin.validateRequest ctx ticket) with
  | .error e => .error ("CAS validation request failed: " ++ e.text)
  | .ok response =>
    if response.status ≠ 200 then .error "CAS validation returned non-200"
    else
      match parseServiceValidate response.body with
      | some user => .ok user
      | none => .error "invalid ticket"

/-- `execute_stateless`. -/
def executeStateless (client : OutboundClient) (ctx : Context) : PluginResult :=
  match extractTicket ctx.request.queryParams plugin.ticketParam with
  | none => reject ctx "missing CAS ticket"
  | some ticket =>
    match plugin.casValidate client ctx ticket with
    | .ok user => .ok { context := attachUser ctx user, namedOutputs := ∅ }
    | .error reason => reject ctx reason

/-- The user the node attaches is the one its answer names. -/
theorem executeStateless_user {client : OutboundClient} {ctx : Context} {output : PluginOutput}
    (h : plugin.executeStateless client ctx = .ok output) :
    ∃ ticket response user, extractTicket ctx.request.queryParams plugin.ticketParam = some ticket ∧
      client (plugin.validateRequest ctx ticket) = .ok response ∧ response.status = 200 ∧
      parseServiceValidate response.body = some user ∧ output.context = attachUser ctx user := by
  unfold executeStateless at h
  cases hticket : extractTicket ctx.request.queryParams plugin.ticketParam with
  | none =>
    rw [hticket] at h
    cases h
  | some ticket =>
    rw [hticket] at h
    dsimp only at h
    unfold casValidate at h
    cases hanswer : client (plugin.validateRequest ctx ticket) with
    | error e =>
      rw [hanswer] at h
      cases h
    | ok response =>
      rw [hanswer] at h
      dsimp only at h
      by_cases hstatus : response.status = 200
      · rw [if_neg (not_not.mpr hstatus)] at h
        cases huser : parseServiceValidate response.body with
        | none =>
          rw [huser] at h
          cases h
        | some user =>
          rw [huser] at h
          obtain rfl := Except.ok.inj h
          exact ⟨ticket, response, user, rfl, hanswer, hstatus, huser, rfl⟩
      · rw [if_pos hstatus] at h
        cases h

end Validate

section Interactive

variable [Sha256] [Aes256Gcm] [Base64Url] [JsonStructCodec] [DurationText]

/-- The payload of the session cookie. -/
def sessionPayload (user : String) : Bytes :=
  asBytes (JsonText.toText (.object [("user", .string user)]))

/-- The user of a payload, as the derived reader finds it. -/
def readPayload (payload : Bytes) : Option String :=
  (JsonStructCodec.entries payload).bind fun
    | .object entries => (Json.requiredField entries "user").bind Json.asStr
    | .array [.string user] => some user
    | _ => none

/-- `read_session`, at a time. -/
def readSession (sealer : CookieSealer) (now : UInt64) (ctx : Context) : Option String := do
  let header ← (← ctx.request.headers["cookie"]?).head?
  let raw ← readCookie header plugin.cookieName
  match sealer.openCookie now raw with
  | .ok payload => readPayload payload
  | .error _ => none

/-- `session_attrs`. -/
def sessionAttrs (ctx : Context) : CookieAttrs where
  path := plugin.cookiePath
  maxAge := some plugin.cookieLifetime
  httpOnly := true
  secure := decide (ctx.request.scheme = "https")
  sameSite := .lax

/-- `execute_interactive`: `now` is when a cookie is opened, `issued` when a new one is sealed. -/
def executeInteractive (sealer : CookieSealer) (client : OutboundClient) (now issued : UInt64)
    (nonce : Nonce) (ctx : Context) : PluginResult :=
  if plugin.logoutPath = some ctx.request.path then
    redirect ctx "/" [deleteCookie plugin.cookieName plugin.cookiePath]
  else
  match plugin.readSession sealer now ctx with
  | some user => .ok { context := attachUser ctx user, namedOutputs := ∅ }
  | none =>
  match extractTicket ctx.request.queryParams plugin.ticketParam with
  | some ticket =>
    match plugin.casValidate client ctx ticket with
    | .ok user =>
      let value := sealer.sealCookie issued nonce (sessionPayload user) plugin.cookieLifetime
      redirect ctx (plugin.serviceUrl ctx) [buildSetCookie plugin.cookieName value (plugin.sessionAttrs ctx)]
    | .error reason => reject ctx reason
  | none => redirect ctx (buildLoginUrl plugin.idpUri (plugin.serviceUrl ctx)) []

/-- `execute`. -/
def execute (client : OutboundClient) (now issued : UInt64) (nonce : Nonce) (ctx : Context) :
    PluginResult :=
  match plugin.sealer with
  | some sealer => plugin.executeInteractive sealer client now issued nonce ctx
  | none => plugin.executeStateless client ctx

end Interactive

end CasAuthPlugin

end Featherbit
