/-
  THE NODES THAT ASK AN EXTERNAL AUTHORITY: `forward-auth`, `opa`, `wolf-rbac` and `feishu-auth`
  (`plugins/native/{forward_auth,opa,wolf_rbac,feishu_auth}.rs`).

  1. **Each node** builds a request out of the context, and what the outbound client answers decides.

  2. **What an answer settles** — the headers and message keys the node writes from the answer or takes
     away for it.  `forward-auth` and `opa` go through the configured names and take away what the answer
     leaves out; `feishu-auth` takes the header away before it asks; `wolf-rbac` writes when the answer
     names a user.

  3. **Two runs** (`settled_identity_same`) — what is settled is the same after the node for any two
     contexts that were given the same answer, whatever stood under those names before.
-/
import Featherbit.Json.Text
import Featherbit.Outbound
import Featherbit.Plugins
import Featherbit.Rust.Base64
import Featherbit.Rust.ParseInt
import Featherbit.Vars

namespace Featherbit

/-- The text of `serde_json`'s error for bytes that do not parse. -/
class JsonErrorText where
  parseError : Bytes → String

/-- Lowercased texts of an array of the configuration. -/
def lowercaseList [CaseMapping] (config : HashMap Json) (key : String) : List String :=
  (((config[key]?.bind Json.asArray).getD []).filterMap Json.asStr).map toLowercase

/-- A text that is not empty. -/
def nonEmptyStr (config : HashMap Json) (key : String) : Option String :=
  (config[key]?.bind Json.asStr).filter (· ≠ "")

/-- A scalar as text. -/
def scalarText [JsonText] : Json → Option String
  | .string s => some s
  | .number n => some (JsonText.toText (.number n))
  | .bool b => some (if b then "true" else "false")
  | _ => none

/-- A duration of the configuration, in milliseconds. -/
def millis (config : HashMap Json) (key : String) (default : UInt64) : Nat :=
  ((config[key]?.bind Json.asU64).getD default).toNat * 1000000

/-- The headers with one name set, or taken away where there is no value for it. -/
def setOrRemove (headers : HashMap (List String)) (entry : String × Option (List String)) :
    HashMap (List String) :=
  match entry.2 with
  | some values => headers.insert entry.1 values
  | none => headers.erase entry.1

/-- What is under a name that is set or taken away does not depend on what was there. -/
theorem foldl_setOrRemove_getElem? {name : String} :
    ∀ (entries : List (String × Option (List String))) (headers headers' : HashMap (List String)),
      (headers[name]? = headers'[name]? ∨ name ∈ entries.map Prod.fst) →
      (entries.foldl setOrRemove headers)[name]? = (entries.foldl setOrRemove headers')[name]? := by
  intro entries
  induction entries with
  | nil =>
    intro headers headers' h
    rcases h with h | h
    · exact h
    · cases h
  | cons entry entries ih =>
    intro headers headers' h
    apply ih
    obtain ⟨key, values⟩ := entry
    by_cases hkey : key = name
    · left
      cases values with
      | none => simp [setOrRemove, hkey]
      | some values => simp [setOrRemove, hkey]
    · rcases h with h | h
      · left
        cases values with
        | none => simp [setOrRemove, Std.ExtTreeMap.getElem?_erase, hkey, h]
        | some values => simp [setOrRemove, Std.ExtTreeMap.getElem?_insert, hkey, h]
      · right
        rcases List.mem_cons.mp h with h | h
        · exact absurd h.symm hkey
        · exact h

/-! ## forward-auth -/

structure ForwardAuthPlugin where
  uri : String
  method : String
  isPost : Bool
  requestHeaders : List String
  upstreamHeaders : List String
  clientHeaders : List String
  extraHeaders : List (String × String)
  sslVerify : Bool
  timeout : Nat
  statusOnError : UInt16
  allowDegradation : Bool

namespace ForwardAuthPlugin

section

variable [CaseMapping] [JsonText]

/-- The callout method, and whether it is a `POST`. -/
def parseMethod (config : HashMap Json) : Except String (String × Bool) :=
  match toUppercase ((config["request_method"]?.bind Json.asStr).getD "GET") with
  | "GET" => .ok ("GET", false)
  | "POST" => .ok ("POST", true)
  | other => .error ("forward-auth request_method must be GET or POST, got '" ++ other ++ "'")

/-- `ForwardAuthPlugin::from_config`. -/
def fromConfig (config : HashMap Json) : Except String ForwardAuthPlugin := do
  let uri ← match nonEmptyStr config "uri" with
    | some uri => .ok uri
    | none => .error "forward-auth plugin requires 'uri'"
  let (method, isPost) ← parseMethod config
  return {
    uri := uri
    method := method
    isPost := isPost
    requestHeaders := lowercaseList config "request_headers"
    upstreamHeaders := lowercaseList config "upstream_headers"
    clientHeaders := lowercaseList config "client_headers"
    extraHeaders := ((config["extra_headers"]?.bind Json.asObject).getD []).filterMap fun entry =>
      (scalarText entry.2).map fun value => (entry.1, value)
    sslVerify := (config["ssl_verify"]?.bind Json.asBool).getD true
    timeout := millis config "timeout" 3000
    statusOnError := ((config["status_on_error"]?.bind Json.asU64).getD 403).toUInt16
    allowDegradation := (config["allow_degradation"]?.bind Json.asBool).getD false }

variable (plugin : ForwardAuthPlugin)

/-- One configured client header, unless the callout has it already. -/
def copyHeader (ctx : Context) (headers : List (String × String)) (name : String) :
    List (String × String) :=
  if headers.any fun entry => eqIgnoreAsciiCase entry.1 name then headers
  else
    match ctx.request.headers[name]?.bind List.head? with
    | some value => headers ++ [(name, value)]
    | none => headers

/-- `build_callout_headers`. -/
def buildCalloutHeaders (ctx : Context) : List (String × String) :=
  let forwarded := [
    ("X-Forwarded-Proto", ctx.request.scheme),
    ("X-Forwarded-Method", ctx.request.method),
    ("X-Forwarded-Host", ctx.request.host),
    ("X-Forwarded-Uri", (Vars.resolve ctx "request_uri").getD ctx.request.path),
    ("X-Forwarded-For", (Vars.resolve ctx "remote_addr").getD "")]
  let encoding :=
    if plugin.isPost then
      ((ctx.request.headers["content-encoding"]?.bind List.head?).map
        fun enc => ("Content-Encoding", enc)).toList
    else []
  let extra := plugin.extraHeaders.map fun entry => (entry.1, Vars.interpolate ctx entry.2)
  plugin.requestHeaders.foldl (copyHeader ctx) (forwarded ++ encoding ++ extra)

/-- The callout. -/
def request (ctx : Context) : OutboundRequest where
  method := plugin.method
  url := plugin.uri
  headers := plugin.buildCalloutHeaders ctx
  body := if plugin.isPost then ctx.request.body else []
  timeout := plugin.timeout
  sslVerify := plugin.sslVerify

/-- `apply_allow`. -/
def applyAllow (ctx : Context) (respHeaders : HashMap (List String)) : Context :=
  { ctx with request := { ctx.request with
      headers := (plugin.upstreamHeaders.map fun name => (name, respHeaders[name]?)).foldl setOrRemove
        ctx.request.headers } }

/-- `build_deny`. -/
def buildDeny (ctx : Context) (response : OutboundResponse) : PluginExecutionError where
  context := { ctx with response := {
    statusCode := response.status
    headers := plugin.clientHeaders.foldl (fun headers name =>
      match response.headers[name]? with
      | some values => headers.insert name values
      | none => headers) ctx.response.headers
    body := response.body } }
  error := { nodeId := "", code := "FORWARD_AUTH_DENIED",
             message := "Authorization service denied the request (" ++
               showNat response.status.toNat ++ ")", metadata := ∅ }

/-- `build_error`. -/
def buildError (ctx : Context) (message : String) : PluginExecutionError where
  context := { ctx with response := { ctx.response with statusCode := plugin.statusOnError } }
  error := { nodeId := "", code := "FORWARD_AUTH_ERROR", message := message, metadata := ∅ }

/-- `execute`; `client` answers the callout. -/
def execute [DurationText] (client : OutboundClient) (ctx : Context) : PluginResult :=
  match client (plugin.request ctx) with
  | .error e =>
    -- degrade open: the request continues unchanged
    if plugin.allowDegradation then .ok { context := ctx, namedOutputs := ∅ }
    else .error (plugin.buildError ctx ("forward-auth callout failed: " ++ e.text))
  | .ok response =>
    if 300 ≤ response.status then .error (plugin.buildDeny ctx response)
    else .ok { context := plugin.applyAllow ctx response.headers, namedOutputs := ∅ }

end

end ForwardAuthPlugin

/-! ## opa -/

structure OpaPlugin where
  host : String
  policy : String
  sslVerify : Bool
  timeout : Nat
  withConsumer : Bool
  sendHeadersUpstream : List String

structure OpaDecision where
  allow : Bool
  status : Option UInt16
  reason : Option String
  headers : HashMap String

inductive OpaParseError where
  | notJson
  | missingResult

namespace OpaPlugin

/-- `OpaPlugin::from_config`. -/
def fromConfig [CaseMapping] (config : HashMap Json) : Except String OpaPlugin := do
  let host ← match nonEmptyStr config "host" with
    | some host => .ok (trimEndMatches '/' host)
    | none => .error "opa plugin requires 'host'"
  let policy ← match nonEmptyStr config "policy" with
    | some policy => .ok (String.ofList (policy.toList.dropWhile (· = '/')))
    | none => .error "opa plugin requires 'policy'"
  return {
    host := host
    policy := policy
    sslVerify := (config["ssl_verify"]?.bind Json.asBool).getD true
    timeout := millis config "timeout" 3000
    withConsumer := (config["with_consumer"]?.bind Json.asBool).getD false
    sendHeadersUpstream := lowercaseList config "send_headers_upstream" }

/-- `split_host_port`. -/
def splitHostPort (host scheme : String) : String × UInt16 :=
  let defaultPort : UInt16 := if eqIgnoreAsciiCase scheme "https" then 443 else 80
  let bare :=
    match rsplitOnceChar ':' host with
    | some (h, port) =>
      if ':' ∈ h.toList then (host, defaultPort) else (h, (parseU16 port).getD defaultPort)
    | none => (host, defaultPort)
  match (stripPrefix "[" host).bind (splitOnceChar ']') with
  | some (h, rest) => (h, ((stripPrefix ":" rest).bind parseU16).getD defaultPort)
  | none => bare

/-- `split_addr_port`. -/
def splitAddrPort (addr : String) : String × Option UInt16 :=
  let bare :=
    match rsplitOnceChar ':' addr with
    | some (ip, port) => if ':' ∈ ip.toList then (addr, none) else (ip, parseU16 port)
    | none => (addr, none)
  match (stripPrefix "[" addr).bind (splitOnceChar ']') with
  | some (ip, rest) => (ip, (stripPrefix ":" rest).bind parseU16)
  | none => bare

def jsonNat (n : UInt64) : Json := .number (.posInt n)

/-- `collapse_multi`. -/
def collapseMulti (map : HashMap (List String)) : Json :=
  .object (map.toList.map fun entry => (entry.1, match entry.2 with
    | [single] => .string single
    | values => .array (values.map .string)))

/-- `build_consumer`. -/
def buildConsumer (ctx : Context) : Option Json :=
  let fields := ctx.message.toList.filterMap fun entry =>
    (stripPrefix "consumer." entry.1).map fun field => (field, entry.2)
  if fields = [] then none else some (.object fields)

variable (plugin : OpaPlugin)

/-- `build_opa_input`; the fields of an object are in the order of their keys. -/
def buildOpaInput (ctx : Context) (nowUnix : UInt64) : Json :=
  let (host, port) := splitHostPort ctx.request.host ctx.request.scheme
  let (remoteAddr, remotePort) := splitAddrPort ctx.request.remoteAddr
  let request := Json.object [
    ("headers", collapseMulti ctx.request.headers),
    ("host", .string host),
    ("method", .string ctx.request.method),
    ("path", .string ctx.request.path),
    ("port", jsonNat port.toUInt64),
    ("query", collapseMulti ctx.request.queryParams),
    ("scheme", .string ctx.request.scheme)]
  let var := Json.object ([("remote_addr", Json.string remoteAddr)] ++
    (remotePort.map fun p => ("remote_port", jsonNat p.toUInt64)).toList ++
    [("timestamp", jsonNat nowUnix)])
  let consumer := if plugin.withConsumer then (buildConsumer ctx).toList else []
  .object [("input", .object ((consumer.map fun c => ("consumer", c)) ++
    [("request", request), ("type", .string "http"), ("var", var)]))]

/-- The callout. -/
def request [JsonText] (ctx : Context) (nowUnix : UInt64) : OutboundRequest where
  method := "POST"
  url := plugin.host ++ "/v1/data/" ++ plugin.policy
  headers := [("Content-Type", "application/json")]
  body := asBytes (JsonText.toText (plugin.buildOpaInput ctx nowUnix))
  timeout := plugin.timeout
  sslVerify := plugin.sslVerify

/-- `parse_opa_response`. -/
def parseOpaResponse [CaseMapping] [JsonCodec] (body : Bytes) : Except OpaParseError OpaDecision :=
  match JsonCodec.parse body with
  | none => .error .notJson
  | some data =>
  match data.get "result" with
  | none => .error .missingResult
  | some result =>
    .ok {
      allow := ((result.get "allow").bind Json.asBool).getD false
      status := (((result.get "status_code").orElse fun _ => result.get "status").bind Json.asU64).map
        UInt64.toUInt16
      reason := (result.get "reason").bind fun v => match v with
        | .null => none
        | .string s => some s
        | other => some (JsonText.toText other)
      headers := (((result.get "headers").bind Json.asObject).getD []).foldl (fun headers entry =>
        match scalarText entry.2 with
        | some value => headers.insert (toLowercase entry.1) value
        | none => headers) ∅ }

/-- `apply_allow`. -/
def applyAllow (ctx : Context) (decision : OpaDecision) : Context :=
  { ctx with request := { ctx.request with
      headers := (plugin.sendHeadersUpstream.map fun name =>
        (name, decision.headers[name]?.map fun value => [value])).foldl setOrRemove
          ctx.request.headers } }

/-- `build_deny`. -/
def buildDeny (ctx : Context) (decision : OpaDecision) : PluginExecutionError where
  context := { ctx with response := {
    statusCode := decision.status.getD 403
    headers := decision.headers.toList.foldl (fun headers entry => headers.insert entry.1 [entry.2])
      ctx.response.headers
    body := (decision.reason.map asBytes).getD ctx.response.body } }
  error := { nodeId := "", code := "OPA_DENIED",
             message := "OPA denied the request (" ++ showNat (decision.status.getD 403).toNat ++ ")",
             metadata := ∅ }

/-- `build_error`. -/
def buildError (ctx : Context) (status : UInt16) (message : String) : PluginExecutionError where
  context := { ctx with response := { ctx.response with statusCode := status } }
  error := { nodeId := "", code := "OPA_ERROR", message := message, metadata := ∅ }

/-- `execute`. -/
def execute [CaseMapping] [JsonCodec] [DurationText] (client : OutboundClient) (nowUnix : UInt64)
    (ctx : Context) : PluginResult :=
  match client (plugin.request ctx nowUnix) with
  | .error e => .error (buildError ctx 403 ("OPA callout failed: " ++ e.text))
  | .ok response =>
  match parseOpaResponse response.body with
  | .error .notJson => .error (buildError ctx 503 "OPA response was not valid JSON")
  | .error .missingResult => .error (buildError ctx 503 "OPA response missing 'result' field")
  | .ok decision =>
    if decision.allow = false then .error (buildDeny ctx decision)
    else .ok { context := plugin.applyAllow ctx decision, namedOutputs := ∅ }

end OpaPlugin

/-! ## wolf-rbac -/

structure WolfRbacPlugin where
  server : String
  appid : String
  headerPrefix : String
  sslVerify : Bool
  timeout : Nat
  rejectedCode : UInt16

/-- The part of `userInfo` that is passed on. -/
structure UserInfo where
  id : String
  username : String
  nickname : String

namespace WolfRbacPlugin

/-- `WolfRbacPlugin::from_config`; never fails. -/
def fromConfig (config : HashMap Json) : WolfRbacPlugin where
  server := trimEndMatches '/' ((config["server"]?.bind Json.asStr).getD "http://127.0.0.1:12180")
  appid := (config["appid"]?.bind Json.asStr).getD "unset"
  headerPrefix := (config["header_prefix"]?.bind Json.asStr).getD "X-"
  sslVerify := (config["ssl_verify"]?.bind Json.asBool).getD false
  timeout := millis config "timeout_ms" 10000
  rejectedCode := 401

variable (plugin : WolfRbacPlugin)

/-- `reject`. -/
def reject (ctx : Context) (message : String) : PluginResult :=
  .error {
    context := { ctx with response := {
      statusCode := plugin.rejectedCode
      headers := ctx.response.headers.insert "content-type" ["application/json"]
      body := asBytes ("\x7b\"error\": \"forbidden\", \"message\": \"" ++ message ++ "\"\x7d") } }
    error := { nodeId := "", code := "WOLF_RBAC_DENIED", message := message, metadata := ∅ } }

/-- `extract_rbac_token`: query, `Authorization`, `X-RBAC-Token`, cookie. -/
def extractRbacToken (headers queryParams : HashMap (List String)) : Option String :=
  match queryParams["rbac_token"]?.bind List.head? with
  | some v => some v
  | none =>
  match headers["authorization"]?.bind List.head? with
  | some v => some v
  | none =>
  match headers["x-rbac-token"]?.bind List.head? with
  | some v => some v
  | none =>
    (headers["cookie"]?.bind List.head?).bind fun cookie =>
      (splitChar ';' cookie).findSome? fun part => stripPrefix "x-rbac-token=" (trim part)

/-- `parse_rbac_token`: `V1#appid#token`, the token to the end. -/
def parseRbacToken (token : String) : Option (String × String) := do
  let (version, rest) ← splitOnceChar '#' token
  let (appid, wolfToken) ← splitOnceChar '#' rest
  if version = "V1" then some (appid, wolfToken) else none

/-- The digits of `{:02X}`. -/
def upperHex (n : Nat) : Char := "0123456789ABCDEF".toList.getD n '0'

def percentEncodeByte (b : UInt8) : List Char :=
  let c := Char.ofNat b.toNat
  if b < 128 ∧ (c.isAlphanum ∨ c ∈ ['-', '_', '.', '~']) then [c]
  else ['%', upperHex (b.toNat / 16), upperHex (b.toNat % 16)]

/-- `percent_encode`. -/
def percentEncode (value : String) : String :=
  String.ofList ((asBytes value).flatMap percentEncodeByte)

/-- `build_access_check_url`. -/
def buildAccessCheckUrl (server appid action resName clientIp : String) : String :=
  server ++ "/wolf/rbac/access_check?appID=" ++ percentEncode appid ++ "&resName=" ++
    percentEncode resName ++ "&action=" ++ percentEncode action ++ "&clientIP=" ++
    percentEncode clientIp

/-- `parse_user_info`. -/
def parseUserInfo [JsonCodec] (body : Bytes) : Option UserInfo := do
  let json ← JsonCodec.parse body
  let info ← (← json.get "data").get "userInfo"
  let username ← (info.get "username").bind Json.asStr
  return {
    id := ((info.get "id").map fun v => match v with
      | .string s => s
      | other => JsonText.toText other).getD ""
    username := username
    nickname := ((info.get "nickname").bind Json.asStr).getD username }

/-- The callout for an application and a token. -/
def request (ctx : Context) (appid wolfToken : String) : OutboundRequest where
  method := "GET"
  url := buildAccessCheckUrl plugin.server (if appid = "" then plugin.appid else appid)
    ctx.request.method ctx.request.path
    (((rsplitOnceChar ':' ctx.request.remoteAddr).map Prod.fst).getD ctx.request.remoteAddr)
  headers := [("x-rbac-token", wolfToken), ("content-type", "application/json; charset=utf-8")]
  body := []
  timeout := plugin.timeout
  sslVerify := plugin.sslVerify

/-- The identity header of a suffix. -/
def headerName [CaseMapping] (suffix : String) : String := toLowercase (plugin.headerPrefix ++ suffix)

/-- The identity headers, with their values. -/
def identityWrites [CaseMapping] (user : UserInfo) : List (String × Option (List String)) :=
  [(plugin.headerName "UserId", some [user.id]), (plugin.headerName "Username", some [user.username]),
    (plugin.headerName "Nickname", some [percentEncode user.nickname])]

/-- The context with the identity of the answer, if it has one. -/
def propagate [CaseMapping] [JsonCodec] (ctx : Context) (body : Bytes) : Context :=
  match parseUserInfo body with
  | some user =>
    { ctx with
      request := { ctx.request with
        headers := (plugin.identityWrites user).foldl setOrRemove ctx.request.headers }
      message := (ctx.message.insert "user" (.string user.username)).insert "wolf_rbac.user_id"
        (.string user.id) }
  | none => ctx

/-- What the wolf server answers to the request of the context, where one is sent. -/
def answer (client : OutboundClient) (ctx : Context) :
    Option (Except OutboundError OutboundResponse) :=
  ((extractRbacToken ctx.request.headers ctx.request.queryParams).bind parseRbacToken).map
    fun (appid, wolfToken) => client (plugin.request ctx appid wolfToken)

/-- `execute`. -/
def execute [CaseMapping] [JsonCodec] [DurationText] (client : OutboundClient) (ctx : Context) :
    PluginResult :=
  match extractRbacToken ctx.request.headers ctx.request.queryParams with
  | none => plugin.reject ctx "Missing rbac token in request"
  | some token =>
  match parseRbacToken token with
  | none => plugin.reject ctx "invalid rbac token: parse failed"
  | some (appid, wolfToken) =>
  match client (plugin.request ctx appid wolfToken) with
  | .error e =>
    .error {
      context := { ctx with response := { ctx.response with statusCode := 500 } }
      error := { nodeId := "", code := "WOLF_RBAC_DENIED",
                 message := "request to wolf-server failed: " ++ e.text, metadata := ∅ } }
  | .ok response =>
    let ctx := plugin.propagate ctx response.body
    if response.status = 200 then .ok { context := ctx, namedOutputs := ∅ }
    else plugin.reject ctx ((((JsonCodec.parse response.body).bind (Json.get "reason")).bind
      Json.asStr).getD "access denied by wolf-server")

end WolfRbacPlugin

/-! ## feishu-auth -/

structure FeishuAuthPlugin where
  appId : String
  appSecret : String
  authRedirectUri : String
  codeHeader : String
  codeQuery : String
  tokenUrl : String
  userinfoUrl : String
  setUserinfoHeader : Bool
  timeout : Nat
  sslVerify : Bool

inductive FeishuError where
  | unauthorized (message : String)
  | upstream (message : String)

/-- `FeishuError::message`. -/
def FeishuError.message : FeishuError → String
  | unauthorized m => m
  | upstream m => m

namespace FeishuAuthPlugin

/-- `require_string`. -/
def requireString (config : HashMap Json) (key : String) : Except String String :=
  match nonEmptyStr config key with
  | some s => .ok s
  | none => .error ("feishu-auth plugin requires '" ++ key ++ "'")

/-- `FeishuAuthPlugin::from_config`. -/
def fromConfig [CaseMapping] (config : HashMap Json) : Except String FeishuAuthPlugin := do
  let appId ← requireString config "app_id"
  let appSecret ← requireString config "app_secret"
  let authRedirectUri ← requireString config "auth_redirect_uri"
  return {
    appId := appId
    appSecret := appSecret
    authRedirectUri := authRedirectUri
    codeHeader := toLowercase ((config["code_header"]?.bind Json.asStr).getD "X-Feishu-Code")
    codeQuery := (config["code_query"]?.bind Json.asStr).getD "code"
    tokenUrl := (config["access_token_url"]?.bind Json.asStr).getD
      "https://open.feishu.cn/open-apis/authen/v2/oauth/token"
    userinfoUrl := (config["userinfo_url"]?.bind Json.asStr).getD
      "https://open.feishu.cn/open-apis/authen/v1/user_info"
    setUserinfoHeader := (config["set_userinfo_header"]?.bind Json.asBool).getD true
    timeout := millis config "timeout" 6000
    sslVerify := (config["ssl_verify"]?.bind Json.asBool).getD true }

/-- `reject`. -/
def reject (ctx : Context) (message : String) : PluginResult :=
  .error {
    context := { ctx with response := {
      statusCode := 401
      headers := ctx.response.headers.insert "content-type" ["application/json"]
      body := asBytes ("\x7b\"error\": \"unauthorized\", \"message\": \"" ++
        String.ofList (message.toList.map fun c => if c = '"' then '\'' else c) ++ "\"\x7d") } }
    error := { nodeId := "", code := "FEISHU_AUTH_FAILED", message := message, metadata := ∅ } }

/-- The user's id in the userinfo: the first of the three that is there, if it is a text. -/
def userId (userinfo : Json) : Option String :=
  (((userinfo.get "user_id").orElse fun _ => userinfo.get "open_id").orElse
    fun _ => userinfo.get "union_id").bind Json.asStr

/-- `attach_identity`: the message of the userinfo. -/
def attachMessage (message : HashMap Json) (userinfo : Json) : HashMap Json :=
  let message := message.insert "feishu_userinfo" userinfo
  match userId userinfo with
  | some uid => message.insert "user_id" (.string uid)
  | none => message

section Requests

variable (plugin : FeishuAuthPlugin)

/-- `extract_code`: the header, or else the query. -/
def extractCode (ctx : Context) : Option String :=
  match (ctx.request.headers[plugin.codeHeader]?.bind List.head?).filter (· ≠ "") with
  | some v => some v
  | none => (ctx.request.queryParams[plugin.codeQuery]?.bind List.head?).filter (· ≠ "")

/-- `token_request_body`; the fields are in the order of their keys. -/
def tokenRequestBody (code : String) : Json :=
  .object [("client_id", .string plugin.appId), ("client_secret", .string plugin.appSecret),
    ("code", .string code), ("grant_type", .string "authorization_code"),
    ("redirect_uri", .string plugin.authRedirectUri)]

/-- The request of `fetch_access_token`. -/
def tokenRequest [JsonText] (code : String) : OutboundRequest where
  method := "POST"
  url := plugin.tokenUrl
  headers := [("content-type", "application/json")]
  body := asBytes (JsonText.toText (plugin.tokenRequestBody code))
  timeout := plugin.timeout
  sslVerify := plugin.sslVerify

/-- The request of `fetch_userinfo`. -/
def userinfoRequest (accessToken : String) : OutboundRequest where
  method := "GET"
  url := plugin.userinfoUrl
  headers := [("content-type", "application/json"), ("authorization", "Bearer " ++ accessToken)]
  body := []
  timeout := plugin.timeout
  sslVerify := plugin.sslVerify

end Requests

variable [JsonCodec] [JsonErrorText]

def showInt (n : Int64) : String := toString n.toInt

/-- `parse_access_token`. -/
def parseAccessToken (resp : OutboundResponse) : Except FeishuError String :=
  if resp.status ≠ 200 then
    .error (.upstream ("unexpected token response status: " ++ showNat resp.status.toNat))
  else
  match JsonCodec.parse resp.body with
  | none => .error (.upstream ("failed to decode token response: " ++ JsonErrorText.parseError resp.body))
  | some data =>
    let token : Except FeishuError String :=
      match (data.get "access_token").bind Json.asStr with
      | some token => .ok token
      | none => .error (.unauthorized "token response missing access_token")
    match (data.get "code").bind Json.asI64 with
    | some code =>
      if code ≠ 0 then
        .error (.unauthorized ("feishu rejected code (code " ++ showInt code ++ "): " ++
          ((((data.get "error_description").bind Json.asStr).orElse
            fun _ => (data.get "msg").bind Json.asStr).getD "unknown")))
      else token
    | none => token

/-- `parse_userinfo`. -/
def parseUserinfo (resp : OutboundResponse) : Except FeishuError Json :=
  if resp.status ≠ 200 then
    .error (.upstream ("unexpected userinfo response status: " ++ showNat resp.status.toNat))
  else
  match JsonCodec.parse resp.body with
  | none =>
    .error (.upstream ("failed to decode userinfo response: " ++ JsonErrorText.parseError resp.body))
  | some data =>
    let code := ((data.get "code").bind Json.asI64).getD (-1)
    if code ≠ 0 then
      .error (.unauthorized ("feishu userinfo rejected token (code " ++ showInt code ++ "): " ++
        ((data.get "msg").bind Json.asStr).getD "unknown"))
    else
      match data.get "data" with
      | some userinfo => .ok userinfo
      | none => .error (.upstream "userinfo response missing data")

variable [Base64Codec] [DurationText] (plugin : FeishuAuthPlugin)

/-- The identity header of the userinfo. -/
def userinfoHeader (userinfo : Json) : List String :=
  [Base64Codec.encode (asBytes (JsonText.toText userinfo))]

/-- `attach_identity`. -/
def attachIdentity (ctx : Context) (userinfo : Json) (setHeader : Bool) : Context :=
  { ctx with
    message := attachMessage ctx.message userinfo
    request := { ctx.request with headers :=
      if setHeader then ctx.request.headers.insert "x-userinfo" (userinfoHeader userinfo)
      else ctx.request.headers } }

/-- The context without the header that carries the identity. -/
def stripped (ctx : Context) : Context :=
  { ctx with request := { ctx.request with headers := ctx.request.headers.erase "x-userinfo" } }

/-- `fetch_access_token`. -/
def fetchAccessToken (client : OutboundClient) (code : String) : Except FeishuError String :=
  match client (plugin.tokenRequest code) with
  | .error e => .error (.upstream ("token callout failed: " ++ e.text))
  | .ok resp => parseAccessToken resp

/-- `fetch_userinfo`. -/
def fetchUserinfo (client : OutboundClient) (accessToken : String) : Except FeishuError Json :=
  match client (plugin.userinfoRequest accessToken) with
  | .error e => .error (.upstream ("userinfo callout failed: " ++ e.text))
  | .ok resp => parseUserinfo resp

/-- What the userinfo endpoint answers for the code of the context, where it is asked. -/
def answer (client : OutboundClient) (ctx : Context) :
    Option (Except OutboundError OutboundResponse) :=
  (plugin.extractCode (stripped ctx)).bind fun code =>
    (plugin.fetchAccessToken client code).toOption.map fun accessToken =>
      client (plugin.userinfoRequest accessToken)

/-- `execute`. -/
def execute (client : OutboundClient) (ctx : Context) : PluginResult :=
  let ctx := stripped ctx
  match plugin.extractCode ctx with
  | none => reject ctx "Missing Feishu authorization code"
  | some code =>
  match plugin.fetchAccessToken client code with
  | .error e => reject ctx e.message
  | .ok accessToken =>
  match plugin.fetchUserinfo client accessToken with
  | .error e => reject ctx e.message
  | .ok userinfo =>
    .ok { context := attachIdentity ctx userinfo plugin.setUserinfoHeader, namedOutputs := ∅ }

end FeishuAuthPlugin

/-! ## What an answer settles -/

/-- A node that asks an external authority. -/
inductive ExternalAuthPlugin where
  | forwardAuth (plugin : ForwardAuthPlugin)
  | opa (plugin : OpaPlugin)
  | wolfRbac (plugin : WolfRbacPlugin)
  | feishuAuth (plugin : FeishuAuthPlugin)

namespace ExternalAuthPlugin

variable [CaseMapping] [JsonCodec] [JsonErrorText] [Base64Codec] [DurationText]

/-- What the authority answers to what the node asks it for the context, at a time. -/
def answer (client : OutboundClient) (nowUnix : UInt64) (ctx : Context) :
    ExternalAuthPlugin → Option (Except OutboundError OutboundResponse)
  | forwardAuth plugin => some (client (plugin.request ctx))
  | opa plugin => some (client (plugin.request ctx nowUnix))
  | wolfRbac plugin => plugin.answer client ctx
  | feishuAuth plugin => plugin.answer client ctx

/-- `execute` of the node. -/
def execute (client : OutboundClient) (nowUnix : UInt64) (ctx : Context) :
    ExternalAuthPlugin → PluginResult
  | forwardAuth plugin => plugin.execute client ctx
  | opa plugin => plugin.execute client nowUnix ctx
  | wolfRbac plugin => plugin.execute client ctx
  | feishuAuth plugin => plugin.execute client ctx

/-- The identity headers that an answer settles. -/
def settledHeaders (answer : Except OutboundError OutboundResponse) : ExternalAuthPlugin → List String
  | forwardAuth plugin =>
    match answer with
    | .ok _ => plugin.upstreamHeaders
    | .error _ => []
  | opa plugin => plugin.sendHeadersUpstream
  | wolfRbac plugin =>
    match answer with
    | .ok response =>
      if (WolfRbacPlugin.parseUserInfo response.body).isSome then
        [plugin.headerName "UserId", plugin.headerName "Username", plugin.headerName "Nickname"]
      else []
    | .error _ => []
  | feishuAuth _ => ["x-userinfo"]

/-- The userinfo of an answer names the user in a text. -/
def namesUser (answer : Except OutboundError OutboundResponse) : Bool :=
  match answer with
  | .ok response =>
    match FeishuAuthPlugin.parseUserinfo response with
    | .ok userinfo => (FeishuAuthPlugin.userId userinfo).isSome
    | .error _ => false
  | .error _ => false

/-- The identity keys of the message that an answer settles. -/
def settledKeys (answer : Except OutboundError OutboundResponse) : ExternalAuthPlugin → List String
  | forwardAuth _ => []
  | opa _ => []
  | wolfRbac _ =>
    match answer with
    | .ok response =>
      if (WolfRbacPlugin.parseUserInfo response.body).isSome then ["user", "wolf_rbac.user_id"] else []
    | .error _ => []
  | feishuAuth _ => if namesUser answer then ["feishu_userinfo", "user_id"] else ["feishu_userinfo"]

/-- Both runs leave the same under the names the answer settles. -/
def SameIdentity (node : ExternalAuthPlugin) (answer : Except OutboundError OutboundResponse)
    (ctx ctx' : Context) : Prop :=
  (∀ name ∈ node.settledHeaders answer, ctx.request.headers[name]? = ctx'.request.headers[name]?) ∧
    ∀ key ∈ node.settledKeys answer, ctx.message[key]? = ctx'.message[key]?

end ExternalAuthPlugin

/-! ## Two runs -/

/-- `forward-auth` sets or takes away the configured headers by the answer. -/
theorem ForwardAuthPlugin.context_of_answer [CaseMapping] [JsonText] [DurationText]
    (plugin : ForwardAuthPlugin) {client : OutboundClient} {ctx : Context} {output : PluginOutput}
    {response : OutboundResponse} (hanswer : client (plugin.request ctx) = .ok response)
    (h : plugin.execute client ctx = .ok output) :
    output.context = plugin.applyAllow ctx response.headers := by
  unfold execute at h
  rw [hanswer] at h
  dsimp only at h
  split at h
  · cases h
  · cases h
    rfl

/-- `forward-auth` without an answer, where it is configured to continue: the request goes on as it
    is. -/
theorem ForwardAuthPlugin.context_of_failure [CaseMapping] [JsonText] [DurationText]
    (plugin : ForwardAuthPlugin) {client : OutboundClient} {ctx : Context} {output : PluginOutput}
    {e : OutboundError} (hanswer : client (plugin.request ctx) = .error e)
    (h : plugin.execute client ctx = .ok output) :
    plugin.allowDegradation = true ∧ output.context = ctx := by
  unfold execute at h
  rw [hanswer] at h
  dsimp only at h
  split at h
  · rename_i hdegrade
    cases h
    exact ⟨hdegrade, rfl⟩
  · cases h

/-- `opa` lets through on a decision that allows. -/
theorem OpaPlugin.context_of_answer [CaseMapping] [JsonCodec] [DurationText] (plugin : OpaPlugin)
    {client : OutboundClient} {nowUnix : UInt64} {ctx : Context} {output : PluginOutput}
    (h : plugin.execute client nowUnix ctx = .ok output) :
    ∃ response decision, client (plugin.request ctx nowUnix) = .ok response ∧
      parseOpaResponse response.body = .ok decision ∧
      output.context = plugin.applyAllow ctx decision := by
  unfold execute at h
  cases hanswer : client (plugin.request ctx nowUnix) with
  | error e => rw [hanswer] at h; cases h
  | ok response =>
    rw [hanswer] at h
    dsimp only at h
    cases hparse : parseOpaResponse response.body with
    | error e =>
      rw [hparse] at h
      cases e <;> cases h
    | ok decision =>
      rw [hparse] at h
      dsimp only at h
      split at h
      · cases h
      · cases h
        exact ⟨response, decision, rfl, hparse, rfl⟩

/-- `wolf-rbac` lets through on an answer, with the identity it has. -/
theorem WolfRbacPlugin.context_of_answer [CaseMapping] [JsonCodec] [DurationText]
    (plugin : WolfRbacPlugin) {client : OutboundClient} {ctx : Context} {output : PluginOutput}
    (h : plugin.execute client ctx = .ok output) :
    ∃ response, plugin.answer client ctx = some (.ok response) ∧
      output.context = plugin.propagate ctx response.body := by
  unfold execute at h
  unfold answer
  cases htoken : extractRbacToken ctx.request.headers ctx.request.queryParams with
  | none => rw [htoken] at h; cases h
  | some token =>
    rw [htoken] at h
    dsimp only at h
    cases hparse : parseRbacToken token with
    | none => rw [hparse] at h; cases h
    | some parts =>
      obtain ⟨appid, wolfToken⟩ := parts
      rw [hparse] at h
      dsimp only at h
      cases hanswer : client (plugin.request ctx appid wolfToken) with
      | error e => rw [hanswer] at h; cases h
      | ok response =>
        rw [hanswer] at h
        dsimp only at h
        split at h
        · cases h
          exact ⟨response, by simp [hparse, hanswer], rfl⟩
        · cases h

/-- `feishu-auth` lets through on a userinfo, over the context without the identity header. -/
theorem FeishuAuthPlugin.context_of_answer [JsonCodec] [JsonErrorText] [Base64Codec] [DurationText]
    (plugin : FeishuAuthPlugin) {client : OutboundClient} {ctx : Context} {output : PluginOutput}
    (h : plugin.execute client ctx = .ok output) :
    ∃ response userinfo, plugin.answer client ctx = some (.ok response) ∧
      parseUserinfo response = .ok userinfo ∧
      output.context = attachIdentity (stripped ctx) userinfo plugin.setUserinfoHeader := by
  unfold execute at h
  unfold answer
  dsimp only at h
  cases hcode : plugin.extractCode (stripped ctx) with
  | none => rw [hcode] at h; cases h
  | some code =>
    rw [hcode] at h
    dsimp only at h
    cases htoken : plugin.fetchAccessToken client code with
    | error e => rw [htoken] at h; cases h
    | ok accessToken =>
      rw [htoken] at h
      dsimp only at h
      unfold fetchUserinfo at h
      cases hanswer : client (plugin.userinfoRequest accessToken) with
      | error e => rw [hanswer] at h; cases h
      | ok response =>
        rw [hanswer] at h
        dsimp only at h
        cases hparse : parseUserinfo response with
        | error e => rw [hparse] at h; cases h
        | ok userinfo =>
          rw [hparse] at h
          cases h
          exact ⟨response, userinfo, by simp [htoken, hanswer, Except.toOption], hparse, rfl⟩

/-- The message keys of a userinfo. -/
theorem FeishuAuthPlugin.attachMessage_same (userinfo : Json) {key : String}
    (hkey : key = "feishu_userinfo" ∨ key = "user_id" ∧ (userId userinfo).isSome)
    (message message' : HashMap Json) :
    (attachMessage message userinfo)[key]? = (attachMessage message' userinfo)[key]? := by
  unfold attachMessage
  cases huid : userId userinfo with
  | some uid =>
    rcases hkey with rfl | ⟨rfl, -⟩
    · simp only [Std.ExtTreeMap.getElem?_insert]
      simp
    · simp
  | none =>
    rcases hkey with rfl | ⟨-, hsome⟩
    · simp
    · rw [huid] at hsome
      cases hsome

/-- Configured names that are set or taken away. -/
theorem configured_same {names : List String} {value : String → Option (List String)} {name : String}
    (hname : name ∈ names) (headers headers' : HashMap (List String)) :
    ((names.map fun name => (name, value name)).foldl setOrRemove headers)[name]? =
      ((names.map fun name => (name, value name)).foldl setOrRemove headers')[name]? := by
  apply foldl_setOrRemove_getElem?
  right
  rw [List.map_map]
  simpa using hname

namespace ExternalAuthPlugin

variable [CaseMapping] [JsonCodec] [JsonErrorText] [Base64Codec] [DurationText]

omit [Base64Codec] [DurationText] in
/-- The user that the service names, or nobody, is attached to any request alike. -/
theorem wolfRbac_same (plugin : WolfRbacPlugin) (response : OutboundResponse) (ctx ctx' : Context) :
    (wolfRbac plugin).SameIdentity (.ok response) (plugin.propagate ctx response.body)
      (plugin.propagate ctx' response.body) := by
  unfold SameIdentity WolfRbacPlugin.propagate
  cases hinfo : WolfRbacPlugin.parseUserInfo response.body with
  | none =>
    refine ⟨fun name hname => ?_, fun key hkey => ?_⟩
    · simp [settledHeaders, hinfo] at hname
    · simp [settledKeys, hinfo] at hkey
  | some user =>
    refine ⟨fun name hname => ?_, fun key hkey => ?_⟩
    · apply foldl_setOrRemove_getElem?
      right
      simpa [settledHeaders, hinfo, WolfRbacPlugin.identityWrites] using hname
    · have hkeys : key = "user" ∨ key = "wolf_rbac.user_id" := by
        simpa [settledKeys, hinfo] using hkey
      rcases hkeys with rfl | rfl
      · simp only [Std.ExtTreeMap.getElem?_insert]
        simp
      · simp

omit [DurationText] in
/-- The userinfo is attached to any request alike. -/
theorem feishuAuth_same (plugin : FeishuAuthPlugin) {response : OutboundResponse} {userinfo : Json}
    (hparse : FeishuAuthPlugin.parseUserinfo response = .ok userinfo) (ctx ctx' : Context) :
    (feishuAuth plugin).SameIdentity (.ok response)
      (FeishuAuthPlugin.attachIdentity (FeishuAuthPlugin.stripped ctx) userinfo plugin.setUserinfoHeader)
      (FeishuAuthPlugin.attachIdentity (FeishuAuthPlugin.stripped ctx') userinfo plugin.setUserinfoHeader) := by
  refine ⟨fun name hname => ?_, fun key hkey => ?_⟩
  · obtain rfl := List.mem_singleton.mp hname
    unfold FeishuAuthPlugin.attachIdentity FeishuAuthPlugin.stripped
    cases plugin.setUserinfoHeader with
    | true => simp
    | false => simp
  · apply FeishuAuthPlugin.attachMessage_same
    cases huid : FeishuAuthPlugin.userId userinfo with
    | none =>
      left
      simpa [settledKeys, namesUser, hparse, huid] using hkey
    | some uid => simpa [settledKeys, namesUser, hparse, huid] using hkey

/-- **The identity.**  Two runs that were given the same answer and let the request through leave the
    same under every name the answer settles, and `forward-auth` without an answer leaves the request as
    it is. -/
theorem settled_identity_same (node : ExternalAuthPlugin) (client client' : OutboundClient)
    (nowUnix nowUnix' : UInt64) (ctx ctx' : Context) (output output' : PluginOutput)
    (hanswer : node.answer client nowUnix ctx = node.answer client' nowUnix' ctx')
    (h : node.execute client nowUnix ctx = .ok output)
    (h' : node.execute client' nowUnix' ctx' = .ok output') :
    ∃ answer, node.answer client nowUnix ctx = some answer ∧
      node.SameIdentity answer output.context output'.context ∧
      ((∃ plugin e, node = forwardAuth plugin ∧ answer = .error e) →
        output.context = ctx ∧ output'.context = ctx') := by
  cases node with
  | forwardAuth plugin =>
    have hsame : client (plugin.request ctx) = client' (plugin.request ctx') := Option.some.inj hanswer
    refine ⟨_, rfl, ?_⟩
    cases hresponse : client (plugin.request ctx) with
    | ok response =>
      rw [plugin.context_of_answer hresponse h, plugin.context_of_answer (hsame ▸ hresponse) h']
      refine ⟨⟨fun name hname => configured_same hname _ _, fun key hkey => ?_⟩, ?_⟩
      · exact absurd hkey List.not_mem_nil
      · rintro ⟨-, e, -, he⟩
        cases he
    | error e =>
      refine ⟨⟨fun name hname => ?_, fun key hkey => ?_⟩, fun _ => ?_⟩
      · exact absurd hname List.not_mem_nil
      · exact absurd hkey List.not_mem_nil
      · exact ⟨(plugin.context_of_failure hresponse h).2,
          (plugin.context_of_failure (hsame ▸ hresponse) h').2⟩
  | opa plugin =>
    have hsame : client (plugin.request ctx nowUnix) = client' (plugin.request ctx' nowUnix') :=
      Option.some.inj hanswer
    obtain ⟨response, decision, hresponse, hparse, hcontext⟩ := plugin.context_of_answer h
    obtain ⟨response', decision', hresponse', hparse', hcontext'⟩ := plugin.context_of_answer h'
    rw [hsame, hresponse'] at hresponse
    obtain rfl := Except.ok.inj hresponse
    rw [hparse'] at hparse
    obtain rfl := Except.ok.inj hparse
    refine ⟨_, rfl, ⟨fun name hname => ?_, fun key hkey => ?_⟩, ?_⟩
    · rw [hcontext, hcontext']
      exact configured_same hname _ _
    · exact absurd hkey List.not_mem_nil
    · rintro ⟨plugin', e, hnode, -⟩
      cases hnode
  | wolfRbac plugin =>
    obtain ⟨response, hresponse, hcontext⟩ := plugin.context_of_answer h
    obtain ⟨response', hresponse', hcontext'⟩ := plugin.context_of_answer h'
    have hsame : some (Except.ok response) = some (Except.ok response') :=
      (hresponse.symm.trans hanswer).trans hresponse'
    obtain rfl := Except.ok.inj (Option.some.inj hsame)
    refine ⟨_, hresponse, ?_, ?_⟩
    · rw [hcontext, hcontext']
      exact wolfRbac_same plugin response ctx ctx'
    · rintro ⟨plugin', e, hnode, -⟩
      cases hnode
  | feishuAuth plugin =>
    obtain ⟨response, userinfo, hresponse, hparse, hcontext⟩ := plugin.context_of_answer h
    obtain ⟨response', userinfo', hresponse', hparse', hcontext'⟩ := plugin.context_of_answer h'
    have hsame : some (Except.ok response) = some (Except.ok response') :=
      (hresponse.symm.trans hanswer).trans hresponse'
    obtain rfl := Except.ok.inj (Option.some.inj hsame)
    rw [hparse'] at hparse
    obtain rfl := Except.ok.inj hparse
    refine ⟨_, hresponse, ?_, ?_⟩
    · rw [hcontext, hcontext']
      exact feishuAuth_same plugin hparse' ctx ctx'
    · rintro ⟨plugin', e, hnode, -⟩
      cases hnode

end ExternalAuthPlugin

/-! ## What no answer settles -/

/-- A request that brings a name under the identity headers, after a node that left it in the message. -/
def visitor (name : String) : Context :=
  { Context.new {
      method := "GET", path := "/", host := "h", scheme := "http"
      headers := ((∅ : HashMap (List String)).insert "x-user-id" [name]).insert "x-userid" [name]
      queryParams := ((∅ : HashMap (List String)).insert "rbac_token" ["V1#app#t"]).insert "code" ["c"]
      body := [], remoteAddr := "1.2.3.4:5", protocol := .http1 } with
    message := (∅ : HashMap Json).insert "user_id" (.string name) }

/-- A `forward-auth` node; a degrading one goes on without an answer. -/
def userIdAuth (allowDegradation : Bool) : ForwardAuthPlugin where
  uri := "http://auth/verify"
  method := "GET"
  isPost := false
  requestHeaders := []
  upstreamHeaders := ["x-user-id"]
  clientHeaders := []
  extraHeaders := []
  sslVerify := true
  timeout := 3000000000
  statusOnError := 403
  allowDegradation := allowDegradation

def restfulWolf : WolfRbacPlugin := WolfRbacPlugin.fromConfig ∅

def feishuApp : FeishuAuthPlugin where
  appId := "app"
  appSecret := "secret"
  authRedirectUri := "https://app/callback"
  codeHeader := "x-feishu-code"
  codeQuery := "code"
  tokenUrl := "https://open/token"
  userinfoUrl := "https://open/user_info"
  setUserinfoHeader := true
  timeout := 6000000000
  sslVerify := true

def response200 (body : Bytes) : OutboundResponse where
  status := 200
  headers := ∅
  body := body

/-- An authority that cannot be reached. -/
def unreachable : OutboundClient := fun _ => .error (.transport "connection refused")

theorem unreachable_same (request request' : OutboundRequest) :
    unreachable request = unreachable request' := rfl

/-- An authority that answers with the user's id. -/
def answersUserId : OutboundClient := fun _ =>
  .ok { response200 [] with headers := (∅ : HashMap (List String)).insert "x-user-id" ["u1"] }

/-- A wolf server that answers without a body. -/
def answersNothing : OutboundClient := fun _ => .ok (response200 [])

def feishuToken : Json := .object [("access_token", .string "t")]

/-- A userinfo whose id is a number. -/
def numberedUser : Json := .object [("user_id", .number (.posInt 7))]

def feishuServer [JsonText] : OutboundClient := fun req =>
  if req.url = "https://open/token" then .ok (response200 (asBytes (JsonText.toText feishuToken)))
  else .ok (response200 (asBytes (JsonText.toText (.object [("code", .number (.posInt 0)),
    ("data", numberedUser)]))))

theorem visitor_token (name : String) :
    (WolfRbacPlugin.extractRbacToken (visitor name).request.headers (visitor name).request.queryParams).bind
      WolfRbacPlugin.parseRbacToken = some ("app", "t") := by
  have htoken : WolfRbacPlugin.extractRbacToken (visitor name).request.headers
      (visitor name).request.queryParams = some "V1#app#t" := by
    have hquery : (visitor name).request.queryParams["rbac_token"]? = some ["V1#app#t"] := by
      show (((∅ : HashMap (List String)).insert "rbac_token" ["V1#app#t"]).insert "code"
        ["c"])["rbac_token"]? = _
      simp only [Std.ExtTreeMap.getElem?_insert]
      simp
    simp [WolfRbacPlugin.extractRbacToken, hquery]
  rw [htoken]
  decide

theorem visitor_header (name : String) :
    (visitor name).request.headers["x-user-id"]? = some [name] ∧
      (visitor name).request.headers["x-userid"]? = some [name] := by
  have hheaders : (visitor name).request.headers =
      ((∅ : HashMap (List String)).insert "x-user-id" [name]).insert "x-userid" [name] := rfl
  rw [hheaders]
  constructor
  · simp only [Std.ExtTreeMap.getElem?_insert]
    simp
  · simp

section Runs

variable [JsonCodec]

/-- `forward-auth` on an answer. -/
theorem userIdAuth_answered [CaseMapping] [DurationText] (name : String) :
    (userIdAuth false).execute answersUserId (visitor name) = .ok {
      context := (userIdAuth false).applyAllow (visitor name)
        ((∅ : HashMap (List String)).insert "x-user-id" ["u1"])
      namedOutputs := ∅ } := by
  unfold ForwardAuthPlugin.execute
  generalize (userIdAuth false).request (visitor name) = request
  rfl

/-- A degrading `forward-auth` without an answer. -/
theorem userIdAuth_unreachable [CaseMapping] [DurationText] (name : String) :
    (userIdAuth true).execute unreachable (visitor name) =
      .ok { context := visitor name, namedOutputs := ∅ } := by
  unfold ForwardAuthPlugin.execute
  generalize (userIdAuth true).request (visitor name) = request
  rfl

/-- `wolf-rbac` on an answer that names no user. -/
theorem restfulWolf_answered [CaseMapping] [DurationText] (hnone : JsonCodec.parse [] = none) (name : String) :
    restfulWolf.answer answersNothing (visitor name) = some (.ok (response200 [])) ∧
      restfulWolf.execute answersNothing (visitor name) =
        .ok { context := visitor name, namedOutputs := ∅ } := by
  obtain ⟨token, htoken, hparse⟩ := Option.bind_eq_some_iff.mp (visitor_token name)
  have hinfo : WolfRbacPlugin.parseUserInfo [] = none := by
    unfold WolfRbacPlugin.parseUserInfo
    rw [hnone]
    rfl
  have hcontext : restfulWolf.propagate (visitor name) [] = visitor name := by
    unfold WolfRbacPlugin.propagate
    rw [hinfo]
  constructor
  · unfold WolfRbacPlugin.answer
    rw [visitor_token]
    rfl
  · unfold WolfRbacPlugin.execute
    rw [htoken]
    dsimp only
    rw [hparse]
    show (Except.ok { context := restfulWolf.propagate (visitor name) [], namedOutputs := ∅ } :
      PluginResult) = _
    rw [hcontext]

theorem parse_feishuToken :
    JsonCodec.parse (asBytes (JsonText.toText feishuToken)) = some feishuToken :=
  JsonCodec.parse_toText feishuToken ⟨by decide, trivial, trivial⟩ (by decide +kernel)

theorem parse_numberedUser :
    JsonCodec.parse (asBytes (JsonText.toText (.object [("code", .number (.posInt 0)),
      ("data", numberedUser)]))) =
        some (.object [("code", .number (.posInt 0)), ("data", numberedUser)]) :=
  JsonCodec.parse_toText (.object [("code", .number (.posInt 0)), ("data", numberedUser)])
    ⟨by decide, trivial, ⟨by decide, trivial, trivial⟩, trivial⟩ (by decide +kernel)

/-- `feishu-auth` on a user whose id is a number. -/
theorem feishuApp_answered [JsonErrorText] [Base64Codec] [DurationText] (name : String) :
    feishuApp.answer feishuServer (visitor name) =
        some (.ok (response200 (asBytes (JsonText.toText (.object [("code", .number (.posInt 0)),
          ("data", numberedUser)]))))) ∧
      feishuApp.execute feishuServer (visitor name) = .ok {
        context := FeishuAuthPlugin.attachIdentity (FeishuAuthPlugin.stripped (visitor name))
          numberedUser true
        namedOutputs := ∅ } := by
  have hcode : feishuApp.extractCode (FeishuAuthPlugin.stripped (visitor name)) = some "c" := by
    have hheader : (FeishuAuthPlugin.stripped (visitor name)).request.headers["x-feishu-code"]? =
        none := by
      show ((((∅ : HashMap (List String)).insert "x-user-id" [name]).insert "x-userid" [name]).erase
        "x-userinfo")["x-feishu-code"]? = none
      simp
    have hquery : (FeishuAuthPlugin.stripped (visitor name)).request.queryParams["code"]? =
        some ["c"] := by
      show (((∅ : HashMap (List String)).insert "rbac_token" ["V1#app#t"]).insert "code"
        ["c"])["code"]? = _
      simp
    unfold FeishuAuthPlugin.extractCode
    rw [show feishuApp.codeHeader = "x-feishu-code" from rfl, hheader,
      show feishuApp.codeQuery = "code" from rfl, hquery]
    rfl
  have htoken : feishuApp.fetchAccessToken feishuServer "c" = .ok "t" := by
    have hserver : feishuServer (feishuApp.tokenRequest "c") =
        .ok (response200 (asBytes (JsonText.toText feishuToken))) := if_pos rfl
    unfold FeishuAuthPlugin.fetchAccessToken FeishuAuthPlugin.parseAccessToken
    rw [hserver]
    dsimp only [response200]
    rw [parse_feishuToken]
    rfl
  have huserinfo : feishuServer (feishuApp.userinfoRequest "t") =
      .ok (response200 (asBytes (JsonText.toText (.object [("code", .number (.posInt 0)),
        ("data", numberedUser)])))) :=
    if_neg (show ¬ "https://open/user_info" = "https://open/token" by decide)
  have hparse : FeishuAuthPlugin.parseUserinfo (response200 (asBytes (JsonText.toText
      (.object [("code", .number (.posInt 0)), ("data", numberedUser)])))) = .ok numberedUser := by
    unfold FeishuAuthPlugin.parseUserinfo
    dsimp only [response200]
    rw [parse_numberedUser]
    rfl
  constructor
  · unfold FeishuAuthPlugin.answer
    rw [hcode]
    simp only [Option.bind_some, htoken, Except.toOption, Option.map_some, huserinfo]
  · unfold FeishuAuthPlugin.execute FeishuAuthPlugin.fetchUserinfo
    simp only [hcode, htoken, huserinfo, hparse]
    rfl

/-- The user id is left as it was. -/
theorem feishuApp_userId [Base64Codec] (name : String) :
    (FeishuAuthPlugin.attachIdentity (FeishuAuthPlugin.stripped (visitor name)) numberedUser
      true).message["user_id"]? = some (.string name) := by
  have hid : FeishuAuthPlugin.userId numberedUser = none := by decide
  show (FeishuAuthPlugin.attachMessage (visitor name).message numberedUser)["user_id"]? = _
  unfold FeishuAuthPlugin.attachMessage
  rw [hid]
  show (((∅ : HashMap Json).insert "user_id" (.string name)).insert "feishu_userinfo"
    numberedUser)["user_id"]? = _
  simp only [Std.ExtTreeMap.getElem?_insert]
  simp

/-- The authority answers whatever it is asked. -/
theorem userIdAuth_answer [CaseMapping] [JsonErrorText] [Base64Codec] [DurationText] (name : String) :
    (ExternalAuthPlugin.forwardAuth (userIdAuth false)).answer answersUserId 0 (visitor name) =
      some (.ok { response200 [] with
        headers := (∅ : HashMap (List String)).insert "x-user-id" ["u1"] }) := by
  show some (answersUserId ((userIdAuth false).request (visitor name))) = _
  generalize (userIdAuth false).request (visitor name) = request
  rfl

end Runs

theorem settled_identity_same_visitor :
    let _ : CaseMapping := asciiCaseMapping
    let _ : JsonCodec := compactJson
    let _ : JsonErrorText := ⟨fun _ => ""⟩
    let _ : Base64Codec := standardBase64
    let _ : DurationText := ⟨fun _ => "3s"⟩
    ∃ (output output' : PluginOutput) (answer : Except OutboundError OutboundResponse),
      (ExternalAuthPlugin.forwardAuth (userIdAuth false)).answer answersUserId 0 (visitor "alice") =
        some answer ∧
      (ExternalAuthPlugin.forwardAuth (userIdAuth false)).SameIdentity answer output.context
        output'.context := by
  intro _ _ _ _ _
  obtain ⟨answer, h, hsame, -⟩ := ExternalAuthPlugin.settled_identity_same
    (.forwardAuth (userIdAuth false)) answersUserId answersUserId 0 0 (visitor "alice")
    (visitor "mallory") _ _
    ((userIdAuth_answer "alice").trans (userIdAuth_answer "mallory").symm)
    (userIdAuth_answered "alice") (userIdAuth_answered "mallory")
  exact ⟨_, _, answer, h, hsame⟩

theorem compactJson_empty : compactJson.parse [] = none := by decide

theorem restfulWolf_headerName :
    let _ : CaseMapping := asciiCaseMapping
    restfulWolf.headerName "UserId" = "x-userid" := by decide

/-- The same answer, or none where the node goes on without, and still the name the client brought: a
    degrading `forward-auth`, a `wolf-rbac` answer without a user, and a `feishu-auth` user whose id is
    no text. -/
theorem brought_identity_kept :
    let _ : CaseMapping := asciiCaseMapping
    let _ : JsonCodec := compactJson
    let _ : JsonErrorText := ⟨fun _ => ""⟩
    let _ : Base64Codec := standardBase64
    let _ : DurationText := ⟨fun _ => "3s"⟩
    (∃ output output' : PluginOutput,
      unreachable ((userIdAuth true).request (visitor "alice")) =
        unreachable ((userIdAuth true).request (visitor "mallory")) ∧
      (userIdAuth true).execute unreachable (visitor "alice") = .ok output ∧
      (userIdAuth true).execute unreachable (visitor "mallory") = .ok output' ∧
      output.context.request.headers["x-user-id"]? ≠ output'.context.request.headers["x-user-id"]?) ∧
    (∃ output output' : PluginOutput,
      restfulWolf.answer answersNothing (visitor "alice") =
        restfulWolf.answer answersNothing (visitor "mallory") ∧
      restfulWolf.execute answersNothing (visitor "alice") = .ok output ∧
      restfulWolf.execute answersNothing (visitor "mallory") = .ok output' ∧
      output.context.request.headers[restfulWolf.headerName "UserId"]? ≠
        output'.context.request.headers[restfulWolf.headerName "UserId"]?) ∧
    ∃ output output' : PluginOutput,
      feishuApp.answer feishuServer (visitor "alice") =
        feishuApp.answer feishuServer (visitor "mallory") ∧
      feishuApp.execute feishuServer (visitor "alice") = .ok output ∧
      feishuApp.execute feishuServer (visitor "mallory") = .ok output' ∧
      output.context.message["user_id"]? ≠ output'.context.message["user_id"]? := by
  intro _ _ _ _ _
  refine ⟨⟨_, _, unreachable_same _ _, userIdAuth_unreachable "alice", userIdAuth_unreachable "mallory",
      ?_⟩,
    ⟨_, _, ?_, (restfulWolf_answered compactJson_empty "alice").2,
      (restfulWolf_answered compactJson_empty "mallory").2, ?_⟩,
    ⟨_, _, ?_, (feishuApp_answered "alice").2, (feishuApp_answered "mallory").2, ?_⟩⟩
  · rw [(visitor_header "alice").1, (visitor_header "mallory").1]
    decide
  · rw [(restfulWolf_answered compactJson_empty "alice").1,
      (restfulWolf_answered compactJson_empty "mallory").1]
  · rw [restfulWolf_headerName, (visitor_header "alice").2, (visitor_header "mallory").2]
    decide
  · rw [(feishuApp_answered "alice").1, (feishuApp_answered "mallory").1]
  · rw [feishuApp_userId, feishuApp_userId]
    decide

end Featherbit
