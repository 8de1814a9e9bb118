/-
  THE AUTHENTICATION NODES `key-auth`, `basic-auth`, `jwt-auth` and `jwe-decrypt`
  (`plugins/native/{key_auth,basic_auth,jwt_auth,jwe_decrypt}.rs`); `hmac-auth` is in
  `Plugins.HmacAuth`.

  A node that takes no consumer from the store and accepts nothing itself rejects.  Each rejection
  hands back the context it was given but for the response (`keepsRequest`), whatever was tried before.
-/
import Featherbit.Consumers
import Featherbit.Json.Text
import Featherbit.Plugins
import Featherbit.Rust.Base64
import Featherbit.Rust.Jsonwebtoken
import Featherbit.Rust.Ring
import Featherbit.Rust.Utf8

namespace Featherbit

/-- `DecodingKey::from_secret`. -/
class JwtSecret extends JsonWebToken where
  fromSecret : Bytes → DecodingKey

/-- `STANDARD_NO_PAD`. -/
class Base64NoPad where
  decode : Bytes → Option Bytes

/-- `open_in_place` of `AES_256_GCM` with associated data. -/
class Aes256GcmAad where
  openInPlace : AeadKey → Nonce → Bytes → Bytes → Option Bytes

/-- The context is the given one, but for its response. -/
def KeepsRequest (ctx : Context) (result : PluginResult) : Prop :=
  match result with
  | .ok _ => True
  | .error err => err.context.request = ctx.request ∧ err.context.message = ctx.message ∧
      err.context.errors = ctx.errors

/-- The first value of a header. -/
def firstHeader (ctx : Context) (name : String) : Option String :=
  ctx.request.headers[name]?.bind List.head?

/-- A 401 with a JSON body and the given headers. -/
def rejectUnauthorized (ctx : Context) (code message : String) (more : List (String × String)) :
    PluginResult :=
  .error {
    context := { ctx with response := {
      statusCode := 401
      headers := more.foldl (fun headers entry => headers.insert entry.1 [entry.2])
        (ctx.response.headers.insert "content-type" ["application/json"])
      body := asBytes ("\x7b\"error\": \"unauthorized\", \"message\": \"" ++ message ++ "\"\x7d") } }
    error := { nodeId := "", code := code, message := message, metadata := ∅ } }

theorem keepsRequest_reject (ctx : Context) (code message : String) (more : List (String × String)) :
    KeepsRequest ctx (rejectUnauthorized ctx code message more) := ⟨rfl, rfl, rfl⟩

def passOn (ctx : Context) : PluginResult := .ok { context := ctx, namedOutputs := ∅ }

/-- A text of a configuration. -/
def configStr (config : HashMap Json) (key : String) : Option String :=
  config[key]?.bind Json.asStr

/-- A flag of a configuration. -/
def configFlag (config : HashMap Json) (key : String) (default : Bool) : Bool :=
  (config[key]?.bind Json.asBool).getD default

/-! ## key-auth -/

structure KeyAuthPlugin where
  validKeys : List String
  headerName : String
  queryParam : Option String
  useConsumers : Bool
  anonymousConsumer : Option String
  hideCredentials : Bool
deriving DecidableEq

namespace KeyAuthPlugin

/-- `KeyAuthPlugin::from_config`. -/
def fromConfig [CaseMapping] (config : HashMap Json) : Except String KeyAuthPlugin :=
  let validKeys := ((config["keys"]?.bind Json.asArray).getD []).filterMap Json.asStr
  let useConsumers := configFlag config "use_consumers" false
  if validKeys = [] ∧ useConsumers = false then
    .error "key-auth plugin requires 'keys' or 'use_consumers: true'"
  else
    .ok {
      validKeys := validKeys
      headerName := toLowercase ((configStr config "header_name").getD "x-api-key")
      queryParam := configStr config "query_param"
      useConsumers := useConsumers
      anonymousConsumer := configStr config "anonymous_consumer"
      hideCredentials := configFlag config "hide_credentials" false }

variable (plugin : KeyAuthPlugin)

/-- `reject`. -/
def reject (ctx : Context) : PluginResult :=
  rejectUnauthorized ctx "UNAUTHORIZED" "Invalid or missing API key" []

/-- `strip_credential`. -/
def stripCredential (ctx : Context) : Context :=
  { ctx with request := { ctx.request with
      headers := ctx.request.headers.erase plugin.headerName
      queryParams := match plugin.queryParam with
        | some param => ctx.request.queryParams.erase param
        | none => ctx.request.queryParams } }

/-- The context the node passes on with a credential. -/
def hidden (ctx : Context) : Context :=
  if plugin.hideCredentials then plugin.stripCredential ctx else ctx

/-- The key of the request: in the header, or else in the query. -/
def key (ctx : Context) : Option String :=
  match firstHeader ctx plugin.headerName with
  | some k => some k
  | none => plugin.queryParam.bind fun param => ctx.request.queryParams[param]?.bind List.head?

/-- The consumer of the key. -/
def findConsumer (store : ConsumerStore) (ctx : Context) : Option Consumer :=
  if plugin.useConsumers then (plugin.key ctx).bind (store.findByCredential "key-auth") else none

/-- `execute`.  The consumers are loaded anew for the anonymous one. -/
def execute (store store' : ConsumerStore) (ctx : Context) : PluginResult :=
  if (plugin.key ctx).any (· ∈ plugin.validKeys) then passOn (plugin.hidden ctx)
  else
  match plugin.findConsumer store ctx with
  | some consumer => passOn (attachConsumer (plugin.hidden ctx) consumer "key-auth")
  | none =>
  match plugin.anonymousConsumer.bind fun name => store'.byName[name]? with
  | some consumer => passOn (attachConsumer ctx consumer "key-auth")
  | none => reject ctx

theorem keepsRequest (store store' : ConsumerStore) (ctx : Context) :
    KeepsRequest ctx (plugin.execute store store' ctx) := by
  unfold execute
  split
  · trivial
  · split
    · trivial
    · split
      · trivial
      · exact keepsRequest_reject ctx _ _ _

end KeyAuthPlugin

/-! ## basic-auth -/

structure BasicAuthPlugin where
  users : HashMap String
  realm : String
  useConsumers : Bool
  anonymousConsumer : Option String
  hideCredentials : Bool
deriving DecidableEq

namespace BasicAuthPlugin

/-- One `{username, password}` row; a blank one is skipped. -/
def addUser (users : HashMap String) (item : Json) : Except String (HashMap String) :=
  match item.asObject with
  | none => .error "basic-auth: 'users' entries must be objects with 'username' and 'password'"
  | some _ =>
    let username := ((item.get "username").bind Json.asStr).getD ""
    if trim username = "" then .ok users
    else .ok (users.insert username (((item.get "password").bind Json.asStr).getD ""))

/-- `parse_users`. -/
def parseUsers : Option Json → Except String (HashMap String)
  | none => .ok ∅
  | some (.object fields) =>
    .ok (fields.foldl (fun users field =>
      match field.2.asStr with
      | some password => users.insert field.1 password
      | none => users) ∅)
  | some (.array items) => items.foldlM addUser ∅
  | some _ => .error "basic-auth: 'users' must be a map or an array of \x7busername, password\x7d objects"

/-- `BasicAuthPlugin::from_config`. -/
def fromConfig (config : HashMap Json) : Except String BasicAuthPlugin := do
  let users ← parseUsers config["users"]?
  let useConsumers := configFlag config "use_consumers" false
  if users.isEmpty ∧ useConsumers = false then
    .error "basic-auth plugin requires 'users' or 'use_consumers: true'"
  else
    return {
      users := users
      realm := (configStr config "realm").getD "gateway"
      useConsumers := useConsumers
      anonymousConsumer := configStr config "anonymous_consumer"
      hideCredentials := configFlag config "hide_credentials" false }

variable (plugin : BasicAuthPlugin)

/-- `reject`. -/
def reject (ctx : Context) : PluginResult :=
  rejectUnauthorized ctx "UNAUTHORIZED" "Invalid credentials"
    [("www-authenticate", "Basic realm=\"" ++ plugin.realm ++ "\"")]

/-- `strip_credential`, as configured. -/
def hidden (ctx : Context) : Context :=
  if plugin.hideCredentials then
    { ctx with request := { ctx.request with headers := ctx.request.headers.erase "authorization" } }
  else ctx

def withUser (ctx : Context) (name : String) : Context :=
  { ctx with message := ctx.message.insert "user" (.string name) }

/-- The user name and the password of the request. -/
def credentials [Base64] (ctx : Context) : Option (String × String) := do
  let header ← firstHeader ctx "authorization"
  let encoded ← stripPrefix "Basic " header
  let decoded ← (Base64.decode (asBytes encoded)).toOption
  let text ← fromUtf8 decoded
  splitOnceChar ':' text

/-- The consumer of the user name, when its password is the one given. -/
def findConsumer (store : ConsumerStore) (username password : String) : Option Consumer :=
  if plugin.useConsumers then
    (store.findByCredential "basic-auth" username).filter fun consumer =>
      (consumer.credentials["basic-auth"]?.bind (Json.get "password")).bind Json.asStr = some password
  else none

/-- `execute`.  The consumers are loaded anew for the anonymous one. -/
def execute [Base64] (store store' : ConsumerStore) (ctx : Context) : PluginResult :=
  let anonymous : PluginResult :=
    match plugin.anonymousConsumer.bind fun name => store'.byName[name]? with
    | some consumer => passOn (withUser (attachConsumer ctx consumer "basic-auth") consumer.name)
    | none => plugin.reject ctx
  match credentials ctx with
  | none => anonymous
  | some (username, password) =>
  if plugin.users[username]? = some password then passOn (withUser (plugin.hidden ctx) username)
  else
  match plugin.findConsumer store username password with
  | some consumer =>
    passOn (withUser (attachConsumer (plugin.hidden ctx) consumer "basic-auth") username)
  | none => anonymous

theorem keepsRequest [Base64] (store store' : ConsumerStore) (ctx : Context) :
    KeepsRequest ctx (plugin.execute store store' ctx) := by
  have hanonymous : KeepsRequest ctx
      (match plugin.anonymousConsumer.bind fun name => store'.byName[name]? with
        | some consumer => passOn (withUser (attachConsumer ctx consumer "basic-auth") consumer.name)
        | none => plugin.reject ctx) := by
    split
    · trivial
    · exact keepsRequest_reject ctx _ _ _
  unfold execute
  dsimp only
  split
  · exact hanonymous
  · split
    · trivial
    · split
      · trivial
      · exact hanonymous

end BasicAuthPlugin

/-! ## jwt-auth -/

structure JwtAuthPlugin where
  secret : Option String
  algorithm : JwtAlgorithm
  headerName : String
  useConsumers : Bool
deriving DecidableEq

namespace JwtAuthPlugin

/-- `parse_algorithm`. -/
def parseAlgorithm : Option String → Except String JwtAlgorithm
  | none | some "HS256" => .ok .hs256
  | some "HS384" => .ok .hs384
  | some "HS512" => .ok .hs512
  | some other => .error ("Unknown jwt-auth algorithm '" ++ other ++
      "' — supported: HS256, HS384, HS512")

/-- `JwtAuthPlugin::from_config`. -/
def fromConfig [CaseMapping] (config : HashMap Json) : Except String JwtAuthPlugin := do
  let secret := configStr config "secret"
  let useConsumers := configFlag config "use_consumers" false
  if secret = none ∧ useConsumers = false then
    .error "jwt-auth plugin requires 'secret' or 'use_consumers: true'"
  else
    let algorithm ← parseAlgorithm (configStr config "algorithm")
    return {
      secret := secret
      algorithm := algorithm
      headerName := toLowercase ((configStr config "header_name").getD "authorization")
      useConsumers := useConsumers }

/-- `reject`. -/
def reject (ctx : Context) (message : String) : PluginResult :=
  rejectUnauthorized ctx "JWT_INVALID" message []

section Verify

variable [JwtSecret]

/-- `verify`: the context with the claims. -/
def verify (now : UInt64) (token secret : String) (algorithm : JwtAlgorithm) (ctx : Context) :
    Except String Context :=
  match JsonWebToken.decode now token (JwtSecret.fromSecret (asBytes secret))
      { algorithms := [algorithm], validateExp := true, validateAud := true } with
  | .error e => .error ("Invalid JWT: " ++ e)
  | .ok claims =>
    let message := ctx.message.insert "jwt_claims" (.object claims.toList)
    .ok { ctx with message := match claims["sub"]? with
      | some sub => message.insert "user_id" sub
      | none => message }

/-- `peek_key_claim`. -/
def peekKeyClaim [Base64Url] [JsonCodec] (token : String) : Option String := do
  let payload ← (splitChar '.' token)[1]?
  let decoded ← Base64Url.decode (asBytes payload)
  let claims ← JsonCodec.parse decoded
  (claims.get "key").bind Json.asStr

/-- Consumer mode: the `key` claim selects the consumer, whose secret verifies the token. -/
def executeConsumer [Base64Url] [JsonCodec] (store : ConsumerStore) (now : UInt64) (token : String)
    (ctx : Context) : PluginResult :=
  match peekKeyClaim token with
  | none => reject ctx "JWT missing 'key' claim"
  | some key =>
  match store.findByCredential "jwt-auth" key with
  | none => reject ctx "Unknown JWT key"
  | some consumer =>
  let credential := consumer.credentials["jwt-auth"]?
  let field := fun name => (credential.bind (Json.get name)).bind Json.asStr
  match field "secret", parseAlgorithm (field "algorithm") with
  | some secret, .ok algorithm =>
    match verify now token secret algorithm ctx with
    | .ok ctx => passOn (attachConsumer ctx consumer "jwt-auth")
    | .error e => reject ctx e
  | _, _ => reject ctx "Consumer has no valid jwt-auth secret"

variable (plugin : JwtAuthPlugin)

/-- The token of the request, without its `Bearer`. -/
def token (ctx : Context) : Option String :=
  (firstHeader ctx plugin.headerName).map fun v => (stripPrefix "Bearer " v).getD v

/-- `execute`. -/
def execute [Base64Url] [JsonCodec] (store : ConsumerStore) (now : UInt64) (ctx : Context) :
    PluginResult :=
  match plugin.token ctx with
  | none => reject ctx "Missing authorization token"
  | some token =>
  let consumers : PluginResult :=
    if plugin.useConsumers then executeConsumer store now token ctx else reject ctx "Invalid JWT"
  match plugin.secret with
  | none => consumers
  | some secret =>
  match verify now token secret plugin.algorithm ctx with
  | .ok ctx => passOn ctx
  | .error e => if plugin.useConsumers = false then reject ctx e else consumers

theorem keepsRequest [Base64Url] [JsonCodec] (store : ConsumerStore) (now : UInt64) (ctx : Context) :
    KeepsRequest ctx (plugin.execute store now ctx) := by
  have hreject : ∀ message, KeepsRequest ctx (reject ctx message) := fun message =>
    keepsRequest_reject ctx _ _ _
  have hconsumer : ∀ token, KeepsRequest ctx (executeConsumer store now token ctx) := by
    intro token
    unfold executeConsumer
    split
    · exact hreject _
    · split
      · exact hreject _
      · dsimp only
        split
        · split
          · trivial
          · exact hreject _
        · exact hreject _
  have hconsumers : ∀ token, KeepsRequest ctx
      (if plugin.useConsumers then executeConsumer store now token ctx else reject ctx "Invalid JWT") := by
    intro token
    split
    · exact hconsumer token
    · exact hreject _
  unfold execute
  split
  · exact hreject _
  · dsimp only
    split
    · exact hconsumers _
    · split
      · trivial
      · split
        · exact hreject _
        · exact hconsumers _

end Verify

end JwtAuthPlugin

/-! ## jwe-decrypt -/

structure JweDecryptPlugin where
  header : String
  forwardHeader : String
  strict : Bool
  inlineKey : Option Bytes
  useConsumers : Bool
deriving DecidableEq

namespace JweDecryptPlugin

section Decode

variable [Base64Url]

/-- `b64url_decode`. -/
def b64urlDecode (s : String) : Option Bytes := Base64Url.decode (asBytes (trimEndMatches '=' s))

/-- `decode_config_key`. -/
def decodeConfigKey [Base64] [Base64NoPad] (s : String) : Option Bytes :=
  match Base64.decode (asBytes s) with
  | .ok bytes => some bytes
  | .error _ =>
  match Base64NoPad.decode (asBytes s) with
  | some bytes => some bytes
  | none => b64urlDecode s

/-- The inline key: 32 bytes. -/
def inlineKeyOf [Base64] [Base64NoPad] : Option String → Except String (Option Bytes)
  | none => .ok none
  | some k =>
    match decodeConfigKey k with
    | none => .error "jwe-decrypt 'key' must be valid base64"
    | some bytes =>
      if bytes.length ≠ 32 then
        .error ("jwe-decrypt 'key' must decode to 32 bytes for AES-256 (got " ++
          showNat bytes.length ++ ")")
      else .ok (some bytes)

/-- `JweDecryptPlugin::from_config`. -/
def fromConfig [Base64] [Base64NoPad] [CaseMapping] (config : HashMap Json) :
    Except String JweDecryptPlugin := do
  match configStr config "alg" with
  | some alg =>
    if alg ≠ "dir" then
      .error ("jwe-decrypt only supports alg 'dir' (got '" ++ alg ++
        "'); RSA/ECDH/key-wrap are not implemented")
  | none => pure ()
  match configStr config "enc" with
  | some enc =>
    if enc ≠ "A256GCM" then
      .error ("jwe-decrypt only supports enc 'A256GCM' (got '" ++ enc ++ "')")
  | none => pure ()
  let inlineKey ← inlineKeyOf (configStr config "key")
  let useConsumers := configFlag config "use_consumers" false
  if inlineKey = none ∧ useConsumers = false then
    .error "jwe-decrypt plugin requires 'key' or 'use_consumers: true'"
  else
    return {
      header := toLowercase ((configStr config "header").getD "Authorization")
      forwardHeader := toLowercase ((configStr config "forward_header").getD "Authorization")
      strict := configFlag config "strict" true
      inlineKey := inlineKey
      useConsumers := useConsumers }

/-- `reject`. -/
def reject (ctx : Context) (message : String) : PluginResult :=
  rejectUnauthorized ctx "JWE_INVALID" message []

/-- `consumer_key`. -/
def consumerKey (store : ConsumerStore) (kid : Option String) : Except String Bytes := do
  let kid ← match kid with
    | some kid => .ok kid
    | none => .error "missing kid in JWE token"
  let consumer ← match store.findByCredential "jwe-decrypt" kid with
    | some consumer => .ok consumer
    | none => .error "invalid kid in JWE token"
  let credential ← match consumer.credentials["jwe-decrypt"]? with
    | some credential => .ok credential
    | none => .error "consumer has no jwe-decrypt credential"
  let secret ← match (credential.get "secret").bind Json.asStr with
    | some secret => .ok secret
    | none => .error "consumer jwe-decrypt credential missing 'secret'"
  let bytes ←
    if ((credential.get "is_base64_encoded").bind Json.asBool).getD false then
      match b64urlDecode secret with
      | some bytes => .ok bytes
      | none => .error "consumer secret is not valid base64url"
    else .ok (asBytes secret)
  if bytes.length ≠ 32 then .error "consumer secret must be 32 bytes for AES-256"
  else return bytes

/-- `aes256gcm_decrypt`. -/
def aes256gcmDecrypt [Aes256GcmAad] (key iv ciphertext tag aad : Bytes) : Option Bytes :=
  if hkey : key.length = 32 then
    if hiv : iv.length = nonceLen then
      Aes256GcmAad.openInPlace ⟨key, hkey⟩ ⟨iv, hiv⟩ aad (ciphertext ++ tag)
    else none
  else none

variable (plugin : JweDecryptPlugin)

/-- The token of a header value: without its `Bearer`, in any case. -/
def bearerStripped (value : String) : String :=
  if startsWith (toAsciiLowercase value) "bearer " then String.ofList (value.toList.drop 7) else value

/-- The plaintext of a token, or why there is none. -/
def decrypt [Aes256GcmAad] [JsonCodec] (store : ConsumerStore) (token : String) :
    Except String Bytes := do
  match splitChar '.' token with
  | [protectedPart, encryptedKey, ivPart, ciphertextPart, tagPart] =>
    if encryptedKey ≠ "" then
      .error "unsupported JWE: encrypted key present (only dir is supported)"
    let malformed := fun what found => match found with
      | some v => Except.ok v
      | none => .error ("malformed JWE " ++ what)
    let headerBytes ← malformed "protected header" (b64urlDecode protectedPart)
    let header ← match JsonCodec.parse headerBytes with
      | some header => .ok header
      | none => .error "malformed JWE protected header"
    if (header.get "alg").bind Json.asStr ≠ some "dir" ∨
        (header.get "enc").bind Json.asStr ≠ some "A256GCM" then
      .error "unsupported JWE alg/enc (only dir + A256GCM supported)"
    let iv ← malformed "iv" (b64urlDecode ivPart)
    let ciphertext ← malformed "ciphertext" (b64urlDecode ciphertextPart)
    let tag ← malformed "tag" (b64urlDecode tagPart)
    let key ← match plugin.inlineKey with
      | some key => .ok key
      | none => consumerKey store ((header.get "kid").bind Json.asStr)
    match aes256gcmDecrypt key iv ciphertext tag (asBytes protectedPart) with
    | some plaintext => .ok plaintext
    | none => .error "failed to decrypt JWE token"
  | _ => .error "malformed JWE token"

/-- `execute`. -/
def execute [Aes256GcmAad] [JsonCodec] (store : ConsumerStore) (ctx : Context) : PluginResult :=
  match firstHeader ctx plugin.header with
  | none => if plugin.strict then reject ctx "missing JWE token in request" else passOn ctx
  | some value =>
    match plugin.decrypt store (bearerStripped value) with
    | .ok plaintext =>
      passOn { ctx with request := { ctx.request with
        headers := ctx.request.headers.insert plugin.forwardHeader [fromUtf8Lossy plaintext] } }
    | .error e => reject ctx e

theorem keepsRequest [Aes256GcmAad] [JsonCodec] (store : ConsumerStore) (ctx : Context) :
    KeepsRequest ctx (plugin.execute store ctx) := by
  unfold execute
  split
  · split
    · exact keepsRequest_reject ctx _ _ _
    · trivial
  · split
    · trivial
    · exact keepsRequest_reject ctx _ _ _

end Decode

end JweDecryptPlugin

end Featherbit
