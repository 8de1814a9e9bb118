/-
  THE `hmac-auth` NODE (`plugins/native/hmac_auth.rs`): a request signed over a list of headers
  that the client chooses.

  The signing string is the access key and one line for each listed header that is there.  A
  header is read by its first value; the method, the path and the query (sorted) are one line,
  if the client lists `@request-target`; nothing else goes in, the `Date` of the clock check
  included.
-/
import Featherbit.Consumers
import Featherbit.Context.FromHyper
import Featherbit.Plugins
import Featherbit.Rust.Base64
import Featherbit.Rust.Ring

namespace Featherbit

/-! ## Reading texts -/

/-- `s.split_whitespace()`. -/
def splitWhitespace (s : String) : List String :=
  ((s.toList.splitOnP isWhitespace).filter (· ≠ [])).map String.ofList

/-- `s.trim_matches(c)`. -/
def trimMatches (c : Char) (s : String) : String :=
  String.ofList ((s.toList.dropWhile (· = c)).rdropWhile (· = c))

/-- `s.parse::<i64>()`. -/
def parseI64 (s : String) : Option Int64 :=
  let (negative, digits) :=
    match s.toList with
    | '-' :: rest => (true, rest)
    | '+' :: rest => (false, rest)
    | l => (false, l)
  if digits ≠ [] ∧ digits.all Char.isDigit then
    let n : Int := Nat.ofDigitChars 10 digits 0
    let n := if negative then -n else n
    if -2 ^ 63 ≤ n ∧ n < 2 ^ 63 then some (Int64.ofInt n) else none
  else none

def monthNames : List String :=
  ["Jan", "Feb", "Mar", "Apr", "May", "Jun", "Jul", "Aug", "Sep", "Oct", "Nov", "Dec"]

/-- The seconds of a civil date and time; like the `i64` arithmetic of a release build, it wraps. -/
def civilSeconds (year month day hour minute second : Int64) : Int64 :=
  let y := if month ≤ 2 then year - 1 else year
  let era := (if 0 ≤ y then y else y - 399) / 400
  let yoe := y - era * 400
  let doy := (153 * (if 2 < month then month - 3 else month + 9) + 2) / 5 + day - 1
  let doe := yoe * 365 + yoe / 4 - yoe / 100 + doy
  let days := era * 146097 + doe - 719468
  days * 86400 + hour * 3600 + minute * 60 + second

/-- `parse_http_date`. -/
def parseHttpDate (s : String) : Option Int64 :=
  match splitWhitespace s with
  | [_, day, month, year, time, _] => do
    let day ← parseI64 day
    let month ← monthNames.findIdx? (· = month)
    let year ← parseI64 year
    match splitChar ':' time with
    | [hour, minute, second] => do
      let hour ← parseI64 hour
      let minute ← parseI64 minute
      let second ← parseI64 second
      some (civilSeconds year (Int64.ofNat (month + 1)) day hour minute second)
    | _ => none
  | _ => none

/-! ## The node -/

/-- Signature parameters extracted from the request. -/
structure HmacParams where
  accessKey : String
  algorithm : Option String
  signature : String
  signedHeaders : List String
deriving DecidableEq

structure HmacAuthPlugin where
  accessKey : Option String
  secretKey : Option String
  algorithm : HmacAlgorithm
  /-- maximum distance of the `Date` header from now, in seconds; `0` disables the check -/
  clockSkew : UInt64
  /-- headers the client must have listed -/
  signedHeaders : List String
  useConsumers : Bool
  anonymousConsumer : Option String
  keepHeaders : Bool
  hideCredentials : Bool
  realm : String

/-- `HmacAlgorithm::parse`. -/
def HmacAlgorithm.parse : Option String → Except String HmacAlgorithm
  | none | some "hmac-sha256" => .ok .sha256
  | some "hmac-sha1" => .ok .sha1
  | some "hmac-sha512" => .ok .sha512
  | some other =>
    .error ("Unknown hmac-auth algorithm '" ++ other ++
      "' — supported: hmac-sha1, hmac-sha256, hmac-sha512")

/-- `HmacAlgorithm::name`. -/
def HmacAlgorithm.name : HmacAlgorithm → String
  | sha1 => "hmac-sha1"
  | sha256 => "hmac-sha256"
  | sha512 => "hmac-sha512"

theorem HmacAlgorithm.parse_name (algorithm : HmacAlgorithm) :
    parse (some algorithm.name) = .ok algorithm := by
  cases algorithm <;> rfl

namespace HmacAuthPlugin

/-- `HmacAuthPlugin::from_config`. -/
def fromConfig [CaseMapping] (config : HashMap Json) : Except String HmacAuthPlugin := do
  let text := fun field => (config[field]?.bind Json.asStr).filter (· ≠ "")
  let flag := fun field => (config[field]?.bind Json.asBool).getD false
  if text "access_key" = none ∧ flag "use_consumers" = false then
    .error "hmac-auth plugin requires 'access_key'+'secret_key' or 'use_consumers: true'"
  if (text "access_key").isSome ∧ text "secret_key" = none then
    .error "hmac-auth plugin: 'access_key' requires 'secret_key'"
  let algorithm ← HmacAlgorithm.parse (config["algorithm"]?.bind Json.asStr)
  let clockSkew ←
    match config["clock_skew"]? with
    | none => .ok 300
    | some v =>
      match v.asU64 with
      | some n => .ok n
      | none => .error "hmac-auth: clock_skew must be a non-negative integer"
  return {
    accessKey := text "access_key"
    secretKey := text "secret_key"
    algorithm := algorithm
    clockSkew := clockSkew
    signedHeaders := ((config["signed_headers"]?.bind Json.asArray).getD []).filterMap fun v =>
      v.asStr.map toLowercase
    useConsumers := flag "use_consumers"
    anonymousConsumer := config["anonymous_consumer"]?.bind Json.asStr
    keepHeaders := flag "keep_headers"
    hideCredentials := flag "hide_credentials"
    realm := (config["realm"]?.bind Json.asStr).getD "hmac"
  }

/-- The first value of a request header, by its lower-case name. -/
def header (ctx : Context) (name : String) : Option String :=
  ctx.request.headers[name]?.bind List.head?

/-- The fields of `Signature ...` read so far. -/
structure AuthorizationFields where
  keyId : Option String := none
  algorithm : Option String := none
  signature : Option String := none
  headers : List String := []

/-- One field of the list. -/
def AuthorizationFields.read (fields : AuthorizationFields) (field : String) :
    AuthorizationFields :=
  match splitOnceChar '=' (trim field) with
  | none => fields
  | some (k, v) =>
    let value := trimMatches '"' (trim v)
    if trim k = "keyId" then { fields with keyId := some value }
    else if trim k = "algorithm" then { fields with algorithm := some value }
    else if trim k = "signature" then { fields with signature := some value }
    else if trim k = "headers" then { fields with headers := splitWhitespace value }
    else fields

/-- `parse_authorization`. -/
def parseAuthorization (rest : String) : Option HmacParams := do
  let fields := (splitChar ',' rest).foldl AuthorizationFields.read {}
  some {
    accessKey := ← fields.keyId
    algorithm := fields.algorithm
    signature := ← fields.signature
    signedHeaders := fields.headers
  }

/-- The `X-HMAC-*` form. -/
def proofHeaders (ctx : Context) : Option HmacParams := do
  some {
    accessKey := ← header ctx "x-hmac-access-key"
    signature := ← header ctx "x-hmac-signature"
    algorithm := header ctx "x-hmac-algorithm"
    signedHeaders := ((header ctx "x-hmac-signed-headers").map splitWhitespace).getD []
  }

/-- `retrieve_params`. -/
def retrieveParams (ctx : Context) : Option HmacParams :=
  match (header ctx "authorization").bind (stripPrefix "Signature ") with
  | some rest => parseAuthorization rest
  | none => proofHeaders ctx

/-- The order of pairs of texts. -/
def PairLe (p q : String × String) : Prop := p.1 < q.1 ∨ p.1 = q.1 ∧ p.2 ≤ q.2

instance : DecidableRel PairLe := fun p q =>
  inferInstanceAs (Decidable (p.1 < q.1 ∨ p.1 = q.1 ∧ p.2 ≤ q.2))

/-- `key=value`. -/
def queryPair (pair : String × String) : String := pair.1 ++ "=" ++ pair.2

/-- `request_uri`. -/
def requestUri (ctx : Context) : String :=
  if ctx.request.queryParams.isEmpty then ctx.request.path
  else
    ctx.request.path ++ "?" ++
      "&".intercalate (((Multimap.toPairs ctx.request.queryParams).insertionSort PairLe).map queryPair)

section Sign

variable [CaseMapping]

/-- The line for one name of the list; a header that is not there has none. -/
def line (ctx : Context) (name : String) : Option String :=
  if name = "@request-target" then some (ctx.request.method ++ " " ++ requestUri ctx)
  else (header ctx (toLowercase name)).map fun value => name ++ ": " ++ value

/-- `signing_string`. -/
def signingString (ctx : Context) (params : HmacParams) : String :=
  "\n".intercalate (params.accessKey :: params.signedHeaders.filterMap (line ctx)) ++ "\n"

variable [Hmac] [Base64] (plugin : HmacAuthPlugin)

/-- `verify_signature`. -/
def verifySignature (ctx : Context) (params : HmacParams) (secret : String) : Bool :=
  match Base64.decode (asBytes params.signature) with
  | .error _ => false
  | .ok tag =>
    Hmac.verify plugin.algorithm (asBytes secret) (asBytes (signingString ctx params)) tag

end Sign

section Execute

variable [CaseMapping] (plugin : HmacAuthPlugin)

/-- The clock check, against the first `Date`. -/
def checkDate (now : UInt64) (ctx : Context) : Except String Unit :=
  if plugin.clockSkew = 0 then .ok ()
  else
    match header ctx "date" with
    | none => .error "Date header missing, failed to validate clock skew"
    | some date =>
      match parseHttpDate date with
      | none => .error "Invalid GMT format time"
      | some ts =>
        if plugin.clockSkew.toNat < (now.toInt64 - ts).toInt.natAbs then
          .error "Clock skew exceeded"
        else .ok ()

/-- `validate_common`. -/
def validateCommon (now : UInt64) (ctx : Context) (params : HmacParams) : Except String Unit := do
  if params.algorithm.any (· ≠ plugin.algorithm.name) then
    .error "Invalid algorithm"
  plugin.checkDate now ctx
  match plugin.signedHeaders.find? fun required =>
      !params.signedHeaders.any fun name => toLowercase name = required with
  | some required => .error ("expected header \"" ++ required ++ "\" missing in signing")
  | none => .ok ()

/-- `reject`. -/
def reject (ctx : Context) (msg : String) : PluginResult :=
  .error {
    context := { ctx with response := {
      statusCode := 401
      headers := (ctx.response.headers.insert "content-type" ["application/json"]).insert
        "www-authenticate" ["hmac realm=\"" ++ plugin.realm ++ "\""]
      body := asBytes
        ("\x7b\"error\": \"unauthorized\", \"message\": \"" ++ msg ++ "\"\x7d") } }
    error := { nodeId := "", code := "HMAC_INVALID", message := msg, metadata := ∅ } }

/-- `strip_headers`. -/
def stripHeaders (ctx : Context) : Context :=
  let headers := ctx.request.headers
  let headers :=
    if plugin.keepHeaders then headers
    else
      (((headers.erase "x-hmac-access-key").erase "x-hmac-algorithm").erase
        "x-hmac-signed-headers").erase "x-hmac-signature"
  let headers := if plugin.hideCredentials then headers.erase "authorization" else headers
  { ctx with request := { ctx.request with headers := headers } }

/-- `attach_anonymous`. -/
def attachAnonymous (store : ConsumerStore) (ctx : Context) : PluginResult :=
  match plugin.anonymousConsumer.bind fun name => store.byName[name]? with
  | some consumer => .ok { context := attachConsumer ctx consumer "hmac-auth", namedOutputs := ∅ }
  | none => plugin.reject ctx "Invalid user authorization"

/-- The secret of the node's own access key. -/
def inlineSecret (accessKey : String) : Option String :=
  if plugin.accessKey = some accessKey then plugin.secretKey else none

/-- The consumer with the access key. -/
def findConsumer (store : ConsumerStore) (accessKey : String) : Option Consumer :=
  if plugin.useConsumers then store.findByCredential "hmac-auth" accessKey else none

/-- A consumer's secret. -/
def consumerSecret (consumer : Consumer) : Option String :=
  (consumer.credentials["hmac-auth"]?.bind (Json.get "secret_key")).bind Json.asStr

variable [Hmac] [Base64]

/-- `execute`.  The consumers are loaded anew for the anonymous one. -/
def execute (store store' : ConsumerStore) (now : UInt64) (ctx : Context) : PluginResult :=
  let anonymous := fun msg =>
    if plugin.anonymousConsumer.isSome then plugin.attachAnonymous store' ctx
    else plugin.reject ctx msg
  match retrieveParams ctx with
  | none => anonymous "client request can't be validated"
  | some params =>
    match plugin.validateCommon now ctx params with
    | .error e => plugin.reject ctx e
    | .ok () =>
      match plugin.inlineSecret params.accessKey with
      | some secret =>
        if plugin.verifySignature ctx params secret then
          .ok { context := plugin.stripHeaders ctx, namedOutputs := ∅ }
        else plugin.reject ctx "Invalid signature"
      | none =>
        match plugin.findConsumer store params.accessKey with
        | some consumer =>
          if (consumerSecret consumer).any (plugin.verifySignature ctx params) then
            .ok {
              context := attachConsumer (plugin.stripHeaders ctx) consumer "hmac-auth"
              namedOutputs := ∅ }
          else plugin.reject ctx "Invalid signature"
        | none => anonymous "Invalid access key"

end Execute

end HmacAuthPlugin

end Featherbit
