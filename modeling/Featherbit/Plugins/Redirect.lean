/-
  REDIRECTS AND MIRRORED REQUESTS (`plugins/native/redirect.rs`, `plugins/native/proxy_mirror.rs`): the
  query both carry over.

  A redirect appends `query_string` to a location of its own, the mirror to the address of the shadow
  host.  Where that location has no query of its own, the one it ends with is the rebuilt query, and
  the parameters it brings are the client's exactly when the rebuilt ones are
  (`appended_same_iff`, `mirrored_same_iff`).
-/
import Featherbit.Outbound
import Featherbit.Plugins
import Featherbit.Vars.QueryString

namespace Featherbit

/-- A configured `redirect` node. -/
structure RedirectPlugin where
  httpToHttps : Bool
  /-- the location, a template; the node has one or `httpToHttps` -/
  uri : Option String
  retCode : UInt16
  appendQueryString : Bool

namespace RedirectPlugin

/-- `RedirectPlugin::from_config`. -/
def fromConfig (config : HashMap Json) : Except String RedirectPlugin := do
  let httpToHttps := (config["http_to_https"]?.bind Json.asBool).getD false
  let uri := config["uri"]?.bind Json.asStr
  if httpToHttps = uri.isSome then
    throw "redirect plugin requires exactly one of 'uri' or 'http_to_https: true'"
  let retCode ← match config["ret_code"]? with
    | none => pure 302
    | some v =>
      match v.asU64.filter fun c => 200 ≤ c && c < 600 with
      | some code => pure code.toUInt16
      | none => throw "ret_code must be an integer status code >= 200"
  let appendQueryString := (config["append_query_string"]?.bind Json.asBool).getD false
  if httpToHttps && appendQueryString then
    throw "only one of 'http_to_https' and 'append_query_string' can be configured"
  return { httpToHttps, uri, retCode, appendQueryString }

variable [CaseMapping] [JsonText]

/-- The location with the query behind it, if there is one to append. -/
def appendQuery (ctx : Context) (newUri : String) : String :=
  match Vars.resolve ctx "query_string" with
  | some qs => newUri ++ (if '?' ∈ newUri.toList then "&" else "?") ++ qs
  | none => newUri

/-- Where the redirect leads, with its status; an `https` request passes through. -/
def target (plugin : RedirectPlugin) (ctx : Context) : Option (String × UInt16) :=
  if plugin.httpToHttps then
    -- an outer proxy's scheme counts
    let scheme := (ctx.request.headers["x-forwarded-proto"]?.bind List.head?).getD ctx.request.scheme
    if scheme = "https" then none
    else
      let retCode : UInt16 := if ctx.request.method = "GET" ∨ ctx.request.method = "HEAD" then 301 else 308
      some (Vars.interpolate ctx "https://$host$request_uri", retCode)
  else
    let newUri := Vars.interpolate ctx (plugin.uri.getD "")
    some (if plugin.appendQueryString then appendQuery ctx newUri else newUri, plugin.retCode)

/-- `RedirectPlugin::execute`. -/
def execute (plugin : RedirectPlugin) (ctx : Context) : PluginResult :=
  match plugin.target ctx with
  | none => .ok { context := ctx, namedOutputs := ∅ }
  | some (newUri, retCode) => .ok {
      context := { ctx with response := {
        statusCode := retCode
        headers := ((ctx.response.headers.insert "location" [newUri]).erase "content-length").erase
          "content-encoding"
        body := [] } }
      namedOutputs := ∅ }

/-- The response of a redirect: the location is where it leads, and no header speaks of a body. -/
theorem execute_location {plugin : RedirectPlugin} {ctx : Context} {newUri : String} {retCode : UInt16}
    (h : plugin.target ctx = some (newUri, retCode)) :
    let sent := (PluginResult.context (plugin.execute ctx)).response
    sent.statusCode = retCode ∧ sent.headers["location"]? = some [newUri] ∧ sent.body = [] ∧
      sent.headers["content-length"]? = none ∧ sent.headers["content-encoding"]? = none := by
  unfold execute
  rw [h]
  refine ⟨rfl, ?_, rfl, ?_, ?_⟩
  all_goals
    show (((ctx.response.headers.insert "location" [newUri]).erase "content-length").erase
      "content-encoding")[_]? = _
    rw [HashMap.get_erase, HashMap.get_erase]
  · rw [if_neg (by decide), if_neg (by decide), HashMap.get_insert, if_pos rfl]
  · rw [if_neg (by decide), if_pos rfl]
  · rw [if_pos rfl]

/-- Behind a location without a query of its own, the query is the rebuilt one. -/
theorem appendQuery_query {ctx : Context} {newUri qs : String} (hquery : '?' ∉ newUri.toList)
    (hfragment : '#' ∉ newUri.toList) (hqs : Vars.resolve ctx "query_string" = some qs)
    (hsent : '#' ∉ qs.toList) :
    HttpUri.ofReference (appendQuery ctx newUri) =
      { scheme := none, path := newUri, query := some qs } := by
  unfold appendQuery
  rw [hqs]
  show HttpUri.ofReference (newUri ++ (if '?' ∈ newUri.toList then "&" else "?") ++ qs) = _
  rw [if_neg hquery, HttpUri.ofReference_query hquery hfragment hsent]

/-- The parameters a location brings are the client's exactly when the rebuilt query has them. -/
theorem appended_same_iff {ctx : Context} {newUri query : String} (hquery : '?' ∉ newUri.toList)
    (hfragment : '#' ∉ newUri.toList) (hsent : '#' ∉ query.toList)
    (hparams : ctx.request.queryParams = parseQuery (some query)) :
    parseQuery (HttpUri.ofReference (appendQuery ctx newUri)).query = ctx.request.queryParams ↔
      AscendingValues (queryPieces query) := by
  have hrebuilt := Vars.resolve_queryString hparams
  have hchars : '#' ∉ ("&".intercalate (sortedTexts (Multimap.ofPairs (queryPieces query)))).toList := by
    intro h
    rcases mem_sortedTexts h with h | h | h
    · exact absurd h (by decide)
    · exact absurd h (by decide)
    · exact hsent h
  rw [appendQuery_query hquery hfragment hrebuilt hchars, hparams,
    ← Vars.parseQuery_resolve_same_iff hparams, hrebuilt]
  rfl

end RedirectPlugin

/-- A configured `proxy-mirror` node, the share of requests it mirrors apart. -/
structure ProxyMirrorPlugin where
  /-- scheme, host and port; no path and no slash behind them -/
  host : String
  path : Option String

namespace ProxyMirrorPlugin

/-- `MIRROR_TIMEOUT`, in nanoseconds. -/
def mirrorTimeout : Nat := 60 * 1000000000

/-- The configured host and path. -/
def fromConfig (config : HashMap Json) : Except String ProxyMirrorPlugin := do
  let host ← match (config["host"]?.bind Json.asStr).filter (· ≠ "") with
    | some host => pure (trimEndMatches '/' host)
    | none => throw "proxy-mirror requires 'host' (e.g. \"http://shadow:8080\")"
  if !startsWith host "http://" && !startsWith host "https://" then
    throw ("proxy-mirror 'host' must start with http:// or https:// (got '" ++ host ++ "')")
  return { host, path := (config["path"]?.bind Json.asStr).filter (· ≠ "") }

variable [CaseMapping] [JsonText] [MethodParser]

/-- The address of the mirrored request. -/
def url (plugin : ProxyMirrorPlugin) (ctx : Context) : String :=
  let path := plugin.path.getD ctx.request.path
  match Vars.resolve ctx "query_string" with
  | some qs => plugin.host ++ path ++ "?" ++ qs
  | none => plugin.host ++ path

/-- `ProxyMirrorPlugin::build_request`. -/
def buildRequest (plugin : ProxyMirrorPlugin) (ctx : Context) : OutboundRequest where
  method := (parseMethod ctx.request.method).getD "GET"
  url := plugin.url ctx
  headers := Multimap.toPairs ctx.request.headers
  body := ctx.request.body
  timeout := mirrorTimeout
  sslVerify := true

/-- The shadow host is sent the client's parameters exactly when the rebuilt query has them. -/
theorem mirrored_same_iff {plugin : ProxyMirrorPlugin} {ctx : Context} {query : String}
    (hquery : '?' ∉ (plugin.host ++ plugin.path.getD ctx.request.path).toList)
    (hfragment : '#' ∉ (plugin.host ++ plugin.path.getD ctx.request.path).toList)
    (hsent : '#' ∉ query.toList) (hparams : ctx.request.queryParams = parseQuery (some query)) :
    parseQuery (HttpUri.ofReference (plugin.buildRequest ctx).url).query = ctx.request.queryParams ↔
      AscendingValues (queryPieces query) := by
  have happended : (plugin.buildRequest ctx).url =
      RedirectPlugin.appendQuery ctx (plugin.host ++ plugin.path.getD ctx.request.path) := by
    show plugin.url ctx = _
    unfold url RedirectPlugin.appendQuery
    rw [Vars.resolve_queryString hparams, if_neg hquery]
  rw [happended]
  exact RedirectPlugin.appended_same_iff hquery hfragment hsent hparams

end ProxyMirrorPlugin

end Featherbit
