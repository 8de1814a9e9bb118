/-
  CALLING A LAMBDA FUNCTION (`plugins/native/aws_lambda.rs`).

  1. **The node** — its configuration, the signature of version 4, and the request it sends.  The digests
     and the clock are parameters.
  2. **The path** (`normalizePath_rooted_iff`) — a path of nothing but slashes, two at least, is
     normalized away; any other path of a URI begins with a slash.
  3. **The query** (`query_received_iff`) — what the function is called with, what is signed, and what
     the other nodes that call functions send, against what the client's query says.
-/
import Featherbit.Lib.Civil
import Featherbit.Plugins.Csrf
import Featherbit.Plugins.Faas
import Featherbit.Plugins.Upstream
import Featherbit.Rust.Fmt
import Featherbit.Rust.Ring

namespace Featherbit

namespace AwsLambda

/-! ## Signature version 4 -/

/-- `normalize_path`. -/
def normalizePath (path : String) : String :=
  if path = "" then "/"
  else if path ≠ "/" ∧ path.toList.getLast? = some '/' then trimEndMatches '/' path
  else path

/-- `canonical_query_string`. -/
def canonicalQueryString (query : HashMap (List String)) : String := Vars.sortedQuery query

/-- `civil_from_days`. -/
def civilFromDays (days : Int) : Int × Nat × Nat :=
  let date := Civil.fromDays days
  (date.year, date.month.toNat, date.day.toNat)

/-- `format_amz_date`. -/
def formatAmzDate (secs : Nat) : String :=
  let rem := secs % 86400
  let (year, month, day) := civilFromDays (secs / 86400 : Nat)
  showPaddedInt 4 year ++ showPadded 2 month ++ showPadded 2 day ++ "T" ++ showPadded 2 (rem / 3600) ++
    showPadded 2 (rem % 3600 / 60) ++ showPadded 2 (rem % 60) ++ "Z"

structure SigV4Input where
  method : String
  canonicalUri : String
  canonicalQuery : String
  headers : List (String × String)
  payload : Bytes
  accessKey : String
  secretKey : String
  region : String
  service : String
  amzDate : String
  datestamp : String

structure SigV4Output where
  authorization : String
  signedHeaders : String
  signature : String
  canonicalRequest : String
  stringToSign : String

/-- `ALGO`. -/
def algo : String := "AWS4-HMAC-SHA256"

section Sign

variable [Hmac] [Sha256]

/-- `hmac_sha256`. -/
def hmacSha256 (key msg : Bytes) : Bytes := Hmac.sign .sha256 key msg

/-- `derive_signing_key`. -/
def deriveSigningKey (secret datestamp region service : String) : Bytes :=
  let kDate := hmacSha256 (asBytes ("AWS4" ++ secret)) (asBytes datestamp)
  let kRegion := hmacSha256 kDate (asBytes region)
  let kService := hmacSha256 kRegion (asBytes service)
  hmacSha256 kService (asBytes "aws4_request")

/-- `sign_v4`. -/
def signV4 [CaseMapping] (input : SigV4Input) : SigV4Output :=
  let headers := (input.headers.map fun (k, v) => (toAsciiLowercase k, trim v)).mergeSort
    fun a b => decide (a.1 ≤ b.1)
  let canonicalHeaders := String.join (headers.map fun (k, v) => k ++ ":" ++ v ++ "\n")
  let signedHeaders := ";".intercalate (headers.map (·.1))
  let canonicalRequest := toUppercase input.method ++ "\n" ++ input.canonicalUri ++ "\n" ++
    input.canonicalQuery ++ "\n" ++ canonicalHeaders ++ "\n" ++ signedHeaders ++ "\n" ++
    hexEncode (Sha256.digest input.payload)
  let credentialScope := input.datestamp ++ "/" ++ input.region ++ "/" ++ input.service ++ "/aws4_request"
  let stringToSign := algo ++ "\n" ++ input.amzDate ++ "\n" ++ credentialScope ++ "\n" ++
    hexEncode (Sha256.digest (asBytes canonicalRequest))
  let signingKey := deriveSigningKey input.secretKey input.datestamp input.region input.service
  let signature := hexEncode (hmacSha256 signingKey (asBytes stringToSign))
  { authorization := algo ++ " Credential=" ++ input.accessKey ++ "/" ++ credentialScope ++
      ", SignedHeaders=" ++ signedHeaders ++ ", Signature=" ++ signature
    signedHeaders
    signature
    canonicalRequest
    stringToSign }

end Sign

/-! ## Configuration -/

structure IamAuth where
  accessKey : String
  secretKey : String
  region : String
  service : String
  sessionToken : Option String

inductive Authorization where
  | none
  | apiKey (key : String)
  | iam (auth : IamAuth)

/-- A field of an object, as a string that is not empty. -/
def fieldStr (fields : List (String × Json)) (key : String) : Option String :=
  ((fields.lookup key).bind Json.asStr).filter (· ≠ "")

/-- The `authorization.iam` object. -/
def iamAuth (iam : List (String × Json)) : Except String IamAuth := do
  let accessKey ← match fieldStr iam "accesskey" with
    | some key => .ok key
    | none => .error "aws-lambda plugin: authorization.iam requires 'accesskey'"
  let secretKey ← match fieldStr iam "secretkey" with
    | some key => .ok key
    | none => .error "aws-lambda plugin: authorization.iam requires 'secretkey'"
  return {
    accessKey
    secretKey
    region := (fieldStr iam "aws_region").getD "us-east-1"
    service := (fieldStr iam "aws_service").getD "lambda"
    sessionToken := fieldStr iam "session_token" }

/-- The `authorization` object. -/
def authorizationOf (config : HashMap Json) : Except String Authorization :=
  match config["authorization"]?.bind Json.asObject with
  | none => .ok .none
  | some authz =>
    match (authz.lookup "iam").bind Json.asObject with
    | some iam => (iamAuth iam).map .iam
    | none =>
      match (authz.lookup "apikey").bind Json.asStr with
      | some apikey => .ok (.apiKey apikey)
      | none => .ok .none

end AwsLambda

/-- A configured `aws-lambda` node. -/
structure AwsLambdaPlugin where
  functionUri : String
  authorization : AwsLambda.Authorization
  sslVerify : Bool
  timeout : Nat

namespace AwsLambdaPlugin

open AwsLambda

/-- `AwsLambdaPlugin::from_config`. -/
def fromConfig (config : HashMap Json) : Except String AwsLambdaPlugin := do
  let functionUri ← match nonEmptyStr config "function_uri" with
    | some functionUri => .ok functionUri
    | none => .error "aws-lambda plugin requires 'function_uri'"
  let authorization ← authorizationOf config
  return {
    functionUri
    authorization
    sslVerify := (config["ssl_verify"]?.bind Json.asBool).getD false
    timeout := millis config "timeout" 3000 }

/-! ## The request -/

section Request

variable [CaseMapping] [Hmac] [Sha256]

/-- What is signed with the credentials of `iam`. -/
def sigInput (iam : IamAuth) (ctx : Context) (host canonicalUri amzDate : String) : SigV4Input where
  method := ctx.request.method
  canonicalUri := canonicalUri
  canonicalQuery := canonicalQueryString ctx.request.queryParams
  headers := [("host", host), ("x-amz-date", amzDate)] ++
    (iam.sessionToken.map fun token => ("x-amz-security-token", token)).toList
  payload := ctx.request.body
  accessKey := iam.accessKey
  secretKey := iam.secretKey
  region := iam.region
  service := iam.service
  amzDate := amzDate
  datestamp := String.ofList (amzDate.toList.take 8)

/-- The headers the authorization adds. -/
def authorizationHeaders (authorization : Authorization) (ctx : Context)
    (host canonicalUri : String) (amzTime : Nat) : List (String × String) :=
  match authorization with
  | .none => []
  | .apiKey key => if Faas.clientHas ctx "x-api-key" then [] else [("x-api-key", key)]
  | .iam iam =>
    let amzDate := formatAmzDate amzTime
    [("x-amz-date", amzDate)] ++
      (iam.sessionToken.map fun token => ("x-amz-security-token", token)).toList ++
      [("authorization", (signV4 (sigInput iam ctx host canonicalUri amzDate)).authorization)]

variable [UriParser] [MethodParser] (plugin : AwsLambdaPlugin)

/-- `build_request`. -/
def buildRequest (ctx : Context) (amzTime : Nat) : Except String OutboundRequest :=
  match parseUri plugin.functionUri with
  | .error e => .error ("aws-lambda: invalid function_uri: " ++ e)
  | .ok parsed =>
    match parsed.authority with
    | none => .error "aws-lambda: function_uri has no host"
    | some host =>
      let canonicalUri := normalizePath parsed.path
      .ok {
        method := (parseMethod ctx.request.method).getD "POST"
        url := Faas.targetUrl (parsed.scheme.getD "https") host canonicalUri
          (canonicalQueryString ctx.request.queryParams)
        headers := Faas.clientHeaders
            ["host", "connection", "content-length", "x-amz-date", "authorization"] ctx ++
          [("host", host)] ++ authorizationHeaders plugin.authorization ctx host canonicalUri amzTime
        body := ctx.request.body
        timeout := plugin.timeout
        sslVerify := plugin.sslVerify }

/-- `AwsLambdaPlugin::execute`, at the time `now`. -/
def execute [DurationText] (client : OutboundClient) (now : Nat) (ctx : Context) : PluginResult :=
  Faas.callFunction client ctx (Faas.rejectCallout "AWS_LAMBDA_CALLOUT_ERROR")
    (Faas.classifyError "aws-lambda") (plugin.buildRequest ctx now)

end Request

end AwsLambdaPlugin

/-! ## The path -/

namespace AwsLambda

/-- A path that begins with a slash and is more than slashes, but for the root. -/
def Rooted (path : String) : Prop :=
  path = "/" ∨ path.toList.head? = some '/' ∧ ∃ c ∈ path.toList, c ≠ '/'

theorem mem_normalizePath {path : String} {c : Char} (hc : c ∈ (normalizePath path).toList) :
    c = '/' ∨ c ∈ path.toList := by
  unfold normalizePath at hc
  split at hc
  · exact Or.inl (List.mem_singleton.mp hc)
  · split at hc
    · have hchars : (trimEndMatches '/' path).toList = path.toList.rdropWhile (· = '/') :=
        String.toList_ofList
      rw [hchars] at hc
      exact Or.inr ((List.rdropWhile_prefix _ _).subset hc)
    · exact Or.inr hc

theorem normalizePath_plain {path : String} (h : BeforeQuery path) : BeforeQuery (normalizePath path) := by
  constructor
  · intro hc
    rcases mem_normalizePath hc with heq | hmem
    · exact absurd heq (by decide)
    · exact h.1 hmem
  · intro hc
    rcases mem_normalizePath hc with heq | hmem
    · exact absurd heq (by decide)
    · exact h.2 hmem

/-- What is left of a text of slashes is nothing; of another one, what it begins with. -/
theorem head_rdropWhile_slash (l : List Char) :
    (l.rdropWhile (· = '/')).head? = if ∃ c ∈ l, c ≠ '/' then l.head? else none := by
  have hsplit := List.rdropWhile_append_rtakeWhile (p := fun c => decide (c = '/')) (l := l)
  have htail : ∀ c ∈ l.rtakeWhile (· = '/'), c = '/' := by
    intro c hc
    exact of_decide_eq_true (List.mem_rtakeWhile_imp (p := fun c => decide (c = '/')) hc)
  cases hleft : l.rdropWhile (· = '/') with
  | nil =>
    rw [hleft, List.nil_append] at hsplit
    rw [if_neg]
    · rfl
    · rintro ⟨c, hc, hne⟩
      rw [← hsplit] at hc
      exact hne (htail c hc)
  | cons c left =>
    have hne : l.rdropWhile (fun c => decide (c = '/')) ≠ [] := by
      rw [hleft]
      exact List.cons_ne_nil _ _
    have hlast := List.rdropWhile_last_not (fun c => decide (c = '/')) l hne
    have hmem := (List.rdropWhile_prefix (fun c => decide (c = '/')) l).subset (List.getLast_mem hne)
    rw [if_pos ⟨_, hmem, fun heq => hlast (decide_eq_true heq)⟩]
    rw [hleft] at hsplit
    rw [← hsplit]
    rfl

/-- **The path.**  A normalized path begins with a slash exactly when the path was empty or rooted. -/
theorem normalizePath_rooted_iff (path : String) :
    (normalizePath path).toList.head? = some '/' ↔ path = "" ∨ Rooted path := by
  unfold normalizePath Rooted
  by_cases hempty : path = ""
  · rw [if_pos hempty]
    exact ⟨fun _ => Or.inl hempty, fun _ => rfl⟩
  rw [if_neg hempty]
  by_cases hroot : path = "/"
  · subst hroot
    exact ⟨fun _ => Or.inr (Or.inl rfl), fun _ => rfl⟩
  by_cases hlast : path.toList.getLast? = some '/'
  · have hchars : (trimEndMatches '/' path).toList = path.toList.rdropWhile (· = '/') := String.toList_ofList
    rw [if_pos ⟨hroot, hlast⟩, hchars, head_rdropWhile_slash]
    constructor
    · intro hhead
      split at hhead
      · rename_i hmore
        exact Or.inr (Or.inr ⟨hhead, hmore⟩)
      · cases hhead
    · rintro (h | h | ⟨hhead, hmore⟩)
      · exact absurd h hempty
      · exact absurd h hroot
      · rw [if_pos hmore]
        exact hhead
  · rw [if_neg fun h => hlast h.2]
    constructor
    · intro hhead
      -- the last character is no slash
      have hne : path.toList ≠ [] := fun h => hempty (String.toList_inj.mp h)
      refine Or.inr (Or.inr ⟨hhead, path.toList.getLast hne, List.getLast_mem hne, fun heq => hlast ?_⟩)
      rw [List.getLast?_eq_some_getLast hne, heq]
    · rintro (h | h | ⟨hhead, -⟩)
      · exact absurd h hempty
      · exact absurd h hroot
      · exact hhead

end AwsLambda

/-! ## The query -/

namespace AwsLambdaPlugin

open AwsLambda

section Query

variable [CaseMapping] [Hmac] [Sha256] [UriParser] [MethodParser]

/-- What `build_request` sends and signs, where it builds anything. -/
theorem buildRequest_ok {plugin : AwsLambdaPlugin} {ctx : Context} {amzTime : Nat}
    {request : OutboundRequest} (h : plugin.buildRequest ctx amzTime = .ok request) :
    ∃ (parsed : Uri) (host : String), parsed.authority = some host ∧
      request.url = Faas.targetUrl (parsed.scheme.getD "https") host (normalizePath parsed.path)
        (canonicalQueryString ctx.request.queryParams) := by
  unfold buildRequest at h
  cases hparse : parseUri plugin.functionUri with
  | error e =>
    rw [hparse] at h
    cases h
  | ok parsed =>
    simp only [hparse] at h
    cases hauthority : parsed.authority with
    | none =>
      rw [hauthority] at h
      cases h
    | some host =>
      rw [hauthority] at h
      obtain rfl := Except.ok.inj h
      exact ⟨parsed, host, hauthority, rfl⟩

theorem buildRequest_perm_iff {plugin : AwsLambdaPlugin} {ctx : Context} {amzTime : Nat} {query : String}
    {request : OutboundRequest} (h : plugin.buildRequest ctx amzTime = .ok request)
    (hquery : ctx.request.queryParams = parseQuery (some query)) :
    (Vars.decodedQuery request.url).Perm (Vars.decodedPairs query) ↔ Vars.Unescaped query := by
  obtain ⟨parsed, host, hauthority, hurl⟩ := buildRequest_ok h
  rw [hurl, hquery]
  exact Faas.targetUrl_perm_iff (Faas.scheme_plain parsed) (parsed.authority_plain host hauthority)
    (normalizePath_plain parsed.path_plain) query

/-- **The query.**  For a request with a query, what a function is called with says what the query says,
    and what is signed is the sorted form of that, exactly when nothing in the query is encoded; a path is
    normalized to one that begins with a slash exactly when it was empty or rooted. -/
theorem query_received_iff (query : String) (ctx : Context)
    (hquery : ctx.request.queryParams = parseQuery (some query)) :
    (∀ (plugin : AwsLambdaPlugin) (amzTime : Nat) (request : OutboundRequest),
      plugin.buildRequest ctx amzTime = .ok request →
      ((Vars.decodedQuery request.url).Perm (Vars.decodedPairs query) ↔ Vars.Unescaped query)) ∧
    (∀ (functionUri : String) (parts : Faas.ForwardParts),
      Faas.forwardParts functionUri ctx = .ok parts →
      ((Vars.decodedQuery parts.url).Perm (Vars.decodedPairs query) ↔ Vars.Unescaped query)) ∧
    (∀ (plugin : AzureFunctionsPlugin) (request : OutboundRequest), plugin.buildRequest ctx = .ok request →
      ((Vars.decodedQuery request.url).Perm (Vars.decodedPairs query) ↔ Vars.Unescaped query)) ∧
    (∀ (plugin : OpenFunctionPlugin) (request : OutboundRequest), plugin.buildRequest ctx = .ok request →
      ((Vars.decodedQuery request.url).Perm (Vars.decodedPairs query) ↔ Vars.Unescaped query)) ∧
    (∀ (iam : IamAuth) (host canonicalUri amzDate : String),
      (sigInput iam ctx host canonicalUri amzDate).canonicalQuery =
        Vars.canonicalForm (Vars.decodedPairs query) ↔ Vars.Unescaped query) ∧
    ∀ path : String, (normalizePath path).toList.head? = some '/' ↔ path = "" ∨ Rooted path := by
  refine ⟨?_, ?_, ?_, ?_, ?_, normalizePath_rooted_iff⟩
  · intro plugin amzTime request h
    exact buildRequest_perm_iff h hquery
  · intro functionUri parts h
    exact Faas.forwardParts_perm_iff h hquery
  · intro plugin request h
    obtain ⟨parts, hparts, hurl⟩ := AzureFunctionsPlugin.buildRequest_url h
    rw [hurl]
    exact Faas.forwardParts_perm_iff hparts hquery
  · intro plugin request h
    obtain ⟨parts, hparts, hurl⟩ := OpenFunctionPlugin.buildRequest_url h
    rw [hurl]
    exact Faas.forwardParts_perm_iff hparts hquery
  · intro iam host canonicalUri amzDate
    show canonicalQueryString ctx.request.queryParams = _ ↔ _
    rw [hquery]
    exact Vars.sortedQuery_canonical_iff query

end Query

/-- A parser that knows one address. -/
abbrev oneAddress : UriParser where
  parseUri s :=
    if s = "https://fn.example.com/run" then .ok {
      scheme := some "https"
      authority := some "fn.example.com"
      path := "/run"
      query := none
      scheme_plain := by decide
      authority_plain := by decide
      path_plain := by decide }
    else .error "invalid uri character"

/-- A node that calls it without credentials. -/
def plainNode : AwsLambdaPlugin where
  functionUri := "https://fn.example.com/run"
  authorization := .none
  sslVerify := false
  timeout := 3000 * 1000000

/-- A request with a query. -/
def queryContext (query : String) : Context := Context.new (GatewayRequest.fromHyper
  { method := "GET"
    uri := { scheme := none, path := "/", query := some query }
    version := .http11
    headers := [] } [] "10.0.0.1:50000")

theorem query_received_plain :
    let _ : CaseMapping := asciiCaseMapping
    let _ : Hmac := echoTag
    let _ : Sha256 := cutDigest
    let _ : UriParser := oneAddress
    let _ : MethodParser := tokenMethods
    ∃ request, plainNode.buildRequest (queryContext "b=2&a=1") 0 = .ok request ∧
      (Vars.decodedQuery request.url).Perm (Vars.decodedPairs "b=2&a=1") := by
  intro _ _ _ _ _
  refine ⟨_, rfl, ?_⟩
  exact ((query_received_iff "b=2&a=1" (queryContext "b=2&a=1") rfl).1 plainNode 0 _ rfl).mpr
    (by decide +kernel)

/-- What came encoded is encoded again, and a path of two slashes is gone. -/
theorem query_encoded_twice :
    let _ : CaseMapping := asciiCaseMapping
    let _ : Hmac := echoTag
    let _ : Sha256 := cutDigest
    let _ : UriParser := oneAddress
    let _ : MethodParser := tokenMethods
    (∃ request, plainNode.buildRequest (queryContext "q=a%20b") 0 = .ok request ∧
      ¬(Vars.decodedQuery request.url).Perm (Vars.decodedPairs "q=a%20b")) ∧
    normalizePath "//" = "" := by
  intro _ _ _ _ _
  refine ⟨⟨_, rfl, fun hsame => ?_⟩, by decide +kernel⟩
  have hplain := ((query_received_iff "q=a%20b" (queryContext "q=a%20b") rfl).1 plainNode 0 _ rfl).mp hsame
  revert hplain
  decide +kernel

end AwsLambdaPlugin

end Featherbit
