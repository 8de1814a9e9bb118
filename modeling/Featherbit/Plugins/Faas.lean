/-
  CALLING A FUNCTION (`plugins/native/faas.rs`, `azure_functions.rs`, `openfunction.rs`): the request that
  `azure-functions` and `openfunction` send for the client's.

  `forward_parts` copies the headers and puts the client's query behind the path of `function_uri`.  The
  query of `function_uri` itself is used where the client sent none at all: a request with a `?` has a
  parameter, be it the empty one.
-/
import Featherbit.Outbound
import Featherbit.Plugins.ExternalAuth
import Featherbit.Rust.Uri
import Featherbit.Vars.SortedQuery

namespace Featherbit

namespace Faas

/-- The headers of the client under their lowercased names, but for those in `skipped`. -/
def clientHeaders (skipped : List String) (ctx : Context) : List (String × String) :=
  ctx.request.headers.toList.flatMap fun (name, values) =>
    if toAsciiLowercase name ∈ skipped then []
    else values.map fun value => (toAsciiLowercase name, value)

/-- `query_string`. -/
def queryString (query : HashMap (List String)) : String := Vars.sortedQuery query

/-- `format!("{}://{}{}?{}", …)`, without the `?` where the query is empty. -/
def targetUrl (scheme authority path query : String) : String :=
  if query = "" then scheme ++ "://" ++ authority ++ path
  else scheme ++ "://" ++ authority ++ path ++ "?" ++ query

/-- The header list, the target URL and the method. -/
structure ForwardParts where
  headers : List (String × String)
  url : String
  method : String
deriving DecidableEq

/-- `forward_parts`. -/
def forwardParts [UriParser] [MethodParser] (functionUri : String) (ctx : Context) :
    Except String ForwardParts :=
  match parseUri functionUri with
  | .error e => .error ("invalid function_uri '" ++ functionUri ++ "': " ++ e)
  | .ok parsed =>
    match parsed.authority with
    | none => .error ("function_uri '" ++ functionUri ++ "' has no host")
    | some authority =>
      -- the client's query, else the one `function_uri` has
      let query := queryString ctx.request.queryParams
      .ok {
        headers := clientHeaders ["host", "connection", "content-length"] ctx ++ [("host", authority)]
        url := targetUrl (parsed.scheme.getD "https") authority
          (if parsed.path = "" then "/" else parsed.path)
          (if query = "" then parsed.query.getD "" else query)
        method := (parseMethod ctx.request.method).getD "POST" }

/-- `classify_error`. -/
def classifyError [DurationText] (plugin : String) : OutboundError → UInt16 × String
  | .timeout deadline => (504, plugin ++ " callout timed out after " ++ DurationText.debug deadline)
  | .invalidRequest message => (502, plugin ++ " request build error: " ++ message)
  | .transport message => (503, plugin ++ " callout failed: " ++ message)

/-- `reject`: the context with a status, and the node's own error code. -/
def rejectCallout (code : String) (ctx : Context) (status : UInt16) (message : String) : PluginResult :=
  .error {
    context := { ctx with response := { ctx.response with statusCode := status } }
    error := { nodeId := "", code := code, message := message, metadata := ∅ } }

/-- `apply_response`. -/
def applyResponse (ctx : Context) (response : OutboundResponse) : Context :=
  { ctx with response := {
    statusCode := response.status
    headers := response.headers
    body := response.body } }

/-- `execute` of the nodes that call a function: what was built is sent, and the reply is the response. -/
def callFunction (client : OutboundClient) (ctx : Context)
    (reject : Context → UInt16 → String → PluginResult) (classify : OutboundError → UInt16 × String) :
    Except String OutboundRequest → PluginResult
  | .error message => reject ctx 502 message
  | .ok request =>
    match client request with
    | .ok response => .ok { context := applyResponse ctx response, namedOutputs := ∅ }
    | .error e => reject ctx (classify e).1 (classify e).2

/-- A header the client sent, under any case. -/
def clientHas (ctx : Context) (name : String) : Bool :=
  ctx.request.headers.keys.any fun k => eqIgnoreAsciiCase k name

/-- A string of the `authorization` object that is not empty. -/
def authorizationStr (config : HashMap Json) (key : String) : Option String :=
  (((config["authorization"]?.bind (Json.get key))).bind Json.asStr).filter (· ≠ "")

/-! ## The target -/

section Target

variable {scheme authority path : String}

/-- The query of a target is what was put there. -/
theorem decodedQuery_targetUrl {query : String} (hscheme : BeforeQuery scheme)
    (hauthority : BeforeQuery authority) (hpath : BeforeQuery path) (hne : query ≠ "")
    (hsent : '#' ∉ query.toList) :
    Vars.decodedQuery (targetUrl scheme authority path query) = Vars.decodedPairs query := by
  have hbefore := ((hscheme.append (t := "://") (by decide)).append hauthority).append hpath
  unfold targetUrl
  rw [if_neg hne]
  exact OpenidConnect.decodedQuery_of_query hbefore.1 hbefore.2 hsent

/-- A request with a query is sent with the form of its pieces. -/
theorem decodedQuery_sorted (hscheme : BeforeQuery scheme) (hauthority : BeforeQuery authority)
    (hpath : BeforeQuery path) (query : String) :
    Vars.decodedQuery (targetUrl scheme authority path
        (Vars.sortedQuery (Multimap.ofPairs (queryPieces query)))) =
      Vars.decodedPairs (Vars.sortedQuery (Multimap.ofPairs (queryPieces query))) := by
  have hne := Vars.undecodedPairs_ne_nil query
  apply decodedQuery_targetUrl hscheme hauthority hpath
  · rw [Vars.sortedQuery_eq]
    exact Vars.canonicalForm_ne_empty hne
  · rw [Vars.sortedQuery_eq]
    exact Vars.canonicalForm_chars _

/-- The pairs a target says are those of the query exactly when nothing in the query is encoded. -/
theorem targetUrl_perm_iff (hscheme : BeforeQuery scheme) (hauthority : BeforeQuery authority)
    (hpath : BeforeQuery path) (query : String) :
    (Vars.decodedQuery (targetUrl scheme authority path
        (Vars.sortedQuery (Multimap.ofPairs (queryPieces query))))).Perm (Vars.decodedPairs query) ↔
      Vars.Unescaped query := by
  rw [decodedQuery_sorted hscheme hauthority hpath]
  exact Vars.decodedPairs_sortedQuery_iff query

end Target

theorem scheme_plain (uri : Uri) : BeforeQuery (uri.scheme.getD "https") := by
  cases h : uri.scheme with
  | none => exact ⟨by decide, by decide⟩
  | some scheme => exact uri.scheme_plain scheme h

/-- What `forward_parts` builds, where it builds anything. -/
theorem forwardParts_ok [UriParser] [MethodParser] {functionUri : String} {ctx : Context}
    {parts : ForwardParts} (h : forwardParts functionUri ctx = .ok parts) :
    ∃ parsed authority, parseUri functionUri = .ok parsed ∧ parsed.authority = some authority ∧
      parts.url = targetUrl (parsed.scheme.getD "https") authority
        (if parsed.path = "" then "/" else parsed.path)
        (if queryString ctx.request.queryParams = "" then parsed.query.getD ""
          else queryString ctx.request.queryParams) := by
  unfold forwardParts at h
  cases hparse : parseUri functionUri with
  | error e =>
    rw [hparse] at h
    cases h
  | ok parsed =>
    simp only [hparse] at h
    cases hauthority : parsed.authority with
    | none =>
      rw [hauthority] at h
      cases h
    | some authority =>
      rw [hauthority] at h
      obtain rfl := Except.ok.inj h
      exact ⟨parsed, authority, rfl, hauthority, rfl⟩

/-- The URL of a call says what the client's query says exactly when nothing in that query is encoded. -/
theorem forwardParts_perm_iff [UriParser] [MethodParser] {functionUri query : String} {ctx : Context}
    {parts : ForwardParts} (h : forwardParts functionUri ctx = .ok parts)
    (hquery : ctx.request.queryParams = parseQuery (some query)) :
    (Vars.decodedQuery parts.url).Perm (Vars.decodedPairs query) ↔ Vars.Unescaped query := by
  obtain ⟨parsed, authority, -, hauthority, hurl⟩ := forwardParts_ok h
  have hpath : BeforeQuery (if parsed.path = "" then "/" else parsed.path) := by
    split
    · exact ⟨by decide, by decide⟩
    · exact parsed.path_plain
  have hsent : queryString ctx.request.queryParams =
      Vars.sortedQuery (Multimap.ofPairs (queryPieces query)) := by
    rw [hquery]
    rfl
  have hne : Vars.sortedQuery (Multimap.ofPairs (queryPieces query)) ≠ "" := by
    rw [Vars.sortedQuery_eq]
    exact Vars.canonicalForm_ne_empty (Vars.undecodedPairs_ne_nil query)
  rw [hurl, hsent, if_neg hne]
  exact targetUrl_perm_iff (scheme_plain parsed) (parsed.authority_plain authority hauthority) hpath query

end Faas

/-! ## azure-functions -/

/-- A configured `azure-functions` node. -/
structure AzureFunctionsPlugin where
  functionUri : String
  apikey : Option String
  clientid : Option String
  sslVerify : Bool
  timeout : Nat

namespace AzureFunctionsPlugin

/-- `AzureFunctionsPlugin::from_config`. -/
def fromConfig (config : HashMap Json) : Except String AzureFunctionsPlugin := do
  let functionUri ← match nonEmptyStr config "function_uri" with
    | some functionUri => .ok functionUri
    | none => .error "azure-functions plugin requires 'function_uri'"
  return {
    functionUri
    apikey := Faas.authorizationStr config "apikey"
    clientid := Faas.authorizationStr config "clientid"
    sslVerify := (config["ssl_verify"]?.bind Json.asBool).getD true
    timeout := millis config "timeout" 3000 }

variable [UriParser] [MethodParser] (plugin : AzureFunctionsPlugin)

/-- The credentials, unless the client brings its own. -/
def credentials (ctx : Context) : List (String × String) :=
  if Faas.clientHas ctx "x-functions-key" || Faas.clientHas ctx "x-functions-clientid" then []
  else (plugin.apikey.map fun key => ("x-functions-key", key)).toList ++
    (plugin.clientid.map fun id => ("x-functions-clientid", id)).toList

/-- `build_request`. -/
def buildRequest (ctx : Context) : Except String OutboundRequest := do
  let parts ← Faas.forwardParts plugin.functionUri ctx
  return {
    method := parts.method
    url := parts.url
    headers := parts.headers ++ plugin.credentials ctx
    body := ctx.request.body
    timeout := plugin.timeout
    sslVerify := plugin.sslVerify }

theorem buildRequest_url {plugin : AzureFunctionsPlugin} {ctx : Context} {request : OutboundRequest}
    (h : plugin.buildRequest ctx = .ok request) :
    ∃ parts, Faas.forwardParts plugin.functionUri ctx = .ok parts ∧ request.url = parts.url := by
  unfold buildRequest at h
  cases hparts : Faas.forwardParts plugin.functionUri ctx with
  | error message =>
    rw [hparts] at h
    cases h
  | ok parts =>
    rw [hparts] at h
    obtain rfl := Except.ok.inj h
    exact ⟨parts, rfl, rfl⟩

/-- `AzureFunctionsPlugin::execute`. -/
def execute [DurationText] (client : OutboundClient) (ctx : Context) : PluginResult :=
  Faas.callFunction client ctx (Faas.rejectCallout "AZURE_FUNCTIONS_CALLOUT_ERROR")
    (Faas.classifyError "azure-functions") (plugin.buildRequest ctx)

end AzureFunctionsPlugin

/-! ## openfunction -/

/-- A configured `openfunction` node. -/
structure OpenFunctionPlugin where
  functionUri : String
  authorization : Option String
  sslVerify : Bool
  timeout : Nat

namespace OpenFunctionPlugin

/-- `OpenFunctionPlugin::from_config`. -/
def fromConfig [Base64Codec] (config : HashMap Json) : Except String OpenFunctionPlugin := do
  let functionUri ← match nonEmptyStr config "function_uri" with
    | some functionUri => .ok functionUri
    | none => .error "openfunction plugin requires 'function_uri'"
  return {
    functionUri
    authorization := (Faas.authorizationStr config "service_token").map fun token =>
      "Basic " ++ Base64Codec.encode (asBytes token)
    sslVerify := (config["ssl_verify"]?.bind Json.asBool).getD true
    timeout := millis config "timeout" 3000 }

variable [UriParser] [MethodParser] (plugin : OpenFunctionPlugin)

/-- The headers with the node's authorization in place of any other. -/
def authorized (headers : List (String × String)) : List (String × String) :=
  match plugin.authorization with
  | some authz => headers.filter (fun header => header.1 ≠ "authorization") ++ [("authorization", authz)]
  | none => headers

/-- `build_request`. -/
def buildRequest (ctx : Context) : Except String OutboundRequest := do
  let parts ← Faas.forwardParts plugin.functionUri ctx
  return {
    method := parts.method
    url := parts.url
    headers := plugin.authorized parts.headers
    body := ctx.request.body
    timeout := plugin.timeout
    sslVerify := plugin.sslVerify }

theorem buildRequest_url {plugin : OpenFunctionPlugin} {ctx : Context} {request : OutboundRequest}
    (h : plugin.buildRequest ctx = .ok request) :
    ∃ parts, Faas.forwardParts plugin.functionUri ctx = .ok parts ∧ request.url = parts.url := by
  unfold buildRequest at h
  cases hparts : Faas.forwardParts plugin.functionUri ctx with
  | error message =>
    rw [hparts] at h
    cases h
  | ok parts =>
    rw [hparts] at h
    obtain rfl := Except.ok.inj h
    exact ⟨parts, rfl, rfl⟩

/-- `OpenFunctionPlugin::execute`. -/
def execute [DurationText] (client : OutboundClient) (ctx : Context) : PluginResult :=
  Faas.callFunction client ctx (Faas.rejectCallout "OPENFUNCTION_CALLOUT_ERROR")
    (Faas.classifyError "openfunction") (plugin.buildRequest ctx)

end OpenFunctionPlugin

end Featherbit
