/-
  WHAT THE BACKEND IS ASKED (`plugins/native/upstream.rs`, `plugins/native/traffic_split.rs`).

  The inbound request was taken apart into a path, a map of query parameters and a map of headers.
  The `upstream` node and a target slot of `traffic-split` each put a request together again from
  the path, the headers and the body.  Neither looks at the query parameters.

  `Forwards` says that a request reaches its target with the parts of the inbound one, as the
  target reads them off the URL, and `upstream_forwards_iff` when it does.  Which target is picked
  is left to the balancer: everything here is for any target.
-/
import Featherbit.Context.FromHyper
import Featherbit.Lib.UriRef
import Featherbit.Outbound
import Featherbit.Plugins
import Featherbit.Rust.Time

namespace Featherbit

/-- The header fields of an outbound request: all but `host`, then the target's own. -/
def forwardHeaders (headers : HashMap (List String)) (target : Target) : List (String × String) :=
  ((Multimap.toPairs headers).filter fun field => !eqIgnoreAsciiCase field.1 "host") ++
    [("host", target.address)]

/-- `JSON` number of an unsigned value. -/
def jsonU16 (n : UInt16) : Json := .number (.posInt n.toUInt64)

/-- A configured `upstream` node, its balancer apart. -/
structure UpstreamPlugin where
  /-- whole-call deadline per proxied request -/
  timeout : Nat
  /-- connect to the upstream over TLS -/
  tls : Bool
  /-- verify the upstream's TLS certificate -/
  sslVerify : Bool

namespace UpstreamPlugin

variable (plugin : UpstreamPlugin) (target : Target)

/-- A WebSocket upgrade: the target is left for the listener, which relays the connection. -/
def stashTarget (ctx : Context) : Context where
  request := ctx.request
  response := { ctx.response with statusCode := 101 }
  message := ctx.message
    |>.insert "__ws_upstream_host" (.string target.host)
    |>.insert "__ws_upstream_port" (jsonU16 target.port)
    |>.insert "__ws_upstream_path" (.string ctx.request.path)
    |>.insert "__ws_upstream_tls" (.bool plugin.tls)
    |>.insert "__ws_upstream_verify" (.bool plugin.sslVerify)
  errors := ctx.errors

/-- The code and message of a failed call. -/
def describe [DurationText] : OutboundError → String × String
  | .timeout d => ("UPSTREAM_TIMEOUT",
      "Upstream " ++ target.address ++ " timed out after " ++ DurationText.debug d)
  | .invalidRequest m => ("UPSTREAM_REQUEST_BUILD_ERROR", "Failed to build upstream request: " ++ m)
  | .transport m => ("UPSTREAM_CONNECTION_ERROR",
      "Failed to reach upstream " ++ target.address ++ ": " ++ m)

variable [MethodParser]

/-- The request for the target. -/
def outbound (ctx : Context) : OutboundRequest where
  method := (parseMethod ctx.request.method).getD "GET"
  url := (if plugin.tls then "https" else "http") ++ "://" ++ target.address ++ ctx.request.path
  headers := forwardHeaders ctx.request.headers target
  body := ctx.request.body
  timeout := plugin.timeout
  sslVerify := plugin.sslVerify

/-- `UpstreamPlugin::execute`, once the balancer has picked the target. -/
def execute [DurationText] (client : OutboundClient) (ctx : Context) : PluginResult :=
  if ctx.request.protocol = .webSocket then
    .ok { context := plugin.stashTarget target ctx, namedOutputs := ∅ }
  else
    match client (plugin.outbound target ctx) with
    | .ok response =>
      let response : GatewayResponse := ⟨response.status, response.headers, response.body⟩
      .ok { context := { ctx with response := response }, namedOutputs := ∅ }
    | .error e =>
      let (code, message) := describe target e
      .error {
        context := ctx
        error := { nodeId := "", code := code, message := message, metadata := ∅ } }

end UpstreamPlugin

namespace TrafficSplitPlugin

variable (timeout : Nat) (target : Target)

/-- The message of a failed call. -/
def describe [DurationText] : OutboundError → String
  | .timeout d =>
      "traffic-split target " ++ target.address ++ " timed out after " ++ DurationText.debug d
  | .invalidRequest m => "traffic-split failed to build request: " ++ m
  | .transport m => "traffic-split failed to reach target " ++ target.address ++ ": " ++ m

variable [MethodParser]

/-- The request for the target of a slot. -/
def outbound (ctx : Context) : OutboundRequest where
  method := (parseMethod ctx.request.method).getD "GET"
  url := "http://" ++ target.address ++ ctx.request.path
  headers := forwardHeaders ctx.request.headers target
  body := ctx.request.body
  timeout := timeout
  sslVerify := true

/-- `TrafficSplitPlugin::execute`, once a target slot and its target are picked: the reply goes
    out through the error port, and so does a failure. -/
def executeSlot [DurationText] (client : OutboundClient) (ctx : Context) : PluginResult :=
  match client (outbound timeout target ctx) with
  | .ok response =>
    let response : GatewayResponse := ⟨response.status, response.headers, response.body⟩
    .error {
      context := { ctx with response := response }
      error := {
        nodeId := ""
        code := "TRAFFIC_SPLIT_ROUTED"
        message := "traffic-split proxied request to " ++ target.address
        metadata := ∅ } }
  | .error e =>
    let response : GatewayResponse := {
      statusCode := 502
      headers := ctx.response.headers.insert "content-type" ["application/json"]
      body := asBytes ("\x7b\"error\": \"bad_gateway\", " ++
        "\"message\": \"traffic-split target unreachable\"\x7d") }
    .error {
      context := { ctx with response := response }
      error := {
        nodeId := ""
        code := "TRAFFIC_SPLIT_UPSTREAM_ERROR"
        message := describe target e
        metadata := ∅ } }

end TrafficSplitPlugin

/-! ## What is forwarded -/

/-- A path with the slash every request target starts with. -/
def withSlash (path : List Char) : List Char := if path.head? = some '/' then path else '/' :: path

/-- The outbound request goes to the target, and has the method, the path (up to a leading slash),
    the query parameters, the headers (but `host`) and the body of the inbound one. -/
structure Forwards (target : Target) (req : GatewayRequest) (out : OutboundRequest) : Prop where
  method : out.method = req.method
  url : ∃ parts, UriRef.parse out.url.toList = some parts ∧
    parts.authority = target.address.toList ∧
    withSlash parts.path = withSlash req.path.toList ∧
    parseQuery (parts.query.map String.ofList) = req.queryParams
  headers : ∀ name, eqIgnoreAsciiCase name "host" = false →
    Multimap.valuesOf name out.headers = req.headers[name]?.getD []
  body : out.body = req.body

/-- The inbound request can be forwarded: its method is one, its path is empty or starts with a
    slash and has no delimiter of a URL in it, there are no query parameters; and the target's host
    has no delimiter in it. -/
structure Forwardable [MethodParser] (target : Target) (req : GatewayRequest) : Prop where
  method : (parseMethod req.method).isSome
  slash : ∀ c, req.path.toList.head? = some c → c = '/'
  path : ∀ c ∈ req.path.toList, UriRef.endsPath c = false
  query : req.queryParams = ∅
  host : ∀ c ∈ target.host.toList, UriRef.endsAuthority c = false

/-! ## The parts, one by one -/

section Parts

variable {target : Target} {path : List Char} {req : GatewayRequest}

theorem not_endsAuthority_of_isDigit {c : Char} (h : c.isDigit = true) :
    UriRef.endsAuthority c = false := by
  have hne : c ≠ '/' ∧ c ≠ '?' ∧ c ≠ '#' := by
    refine ⟨?_, ?_, ?_⟩ <;> rintro rfl <;> exact absurd h (by decide)
  simp [UriRef.endsAuthority, hne]

/-- A port brings no delimiter into the address. -/
theorem address_clean_iff : (∀ c ∈ target.address.toList, (!UriRef.endsAuthority c) = true) ↔
    ∀ c ∈ target.host.toList, UriRef.endsAuthority c = false := by
  have haddress : target.address.toList =
      target.host.toList ++ ':' :: Nat.toDigits 10 target.port.toNat := by
    simp [Target.address, Nat.toString_eq_repr, Nat.toList_repr]
  rw [haddress]
  constructor
  · intro h c hc
    simpa using h c (List.mem_append_left _ hc)
  · intro h c hc
    rcases List.mem_append.mp hc with hc | hc
    · rw [h c hc]
      rfl
    · rcases List.mem_cons.mp hc with rfl | hc
      · decide
      · rw [not_endsAuthority_of_isDigit (Nat.isDigit_of_mem_toDigits (by decide) (by decide) hc)]
        rfl

theorem withSlash_slash (rest : List Char) : withSlash ('/' :: rest) = '/' :: rest := by
  simp [withSlash]

/-- After an authority, a path is read back up to a leading slash iff it starts with one, or is
    empty, and holds no delimiter. -/
theorem path_kept_iff (hhead : ∀ c, path.head? = some c → UriRef.endsAuthority c = true) :
    withSlash (UriRef.pathOf path) = withSlash path ↔
      (∀ c, path.head? = some c → c = '/') ∧ ∀ c ∈ path, UriRef.endsPath c = false := by
  constructor
  · intro h
    cases path with
    | nil => exact ⟨nofun, nofun⟩
    | cons c path =>
      by_cases hslash : c = '/'
      · subst hslash
        have hpath : UriRef.pathOf ('/' :: path) = '/' :: UriRef.pathOf path :=
          List.takeWhile_cons_of_pos (by decide)
        rw [hpath, withSlash_slash, withSlash_slash, ← hpath] at h
        exact ⟨by simp, UriRef.pathOf_eq_iff.mp h⟩
      · -- the path starts with the delimiter of a query or a fragment, and is not seen at all
        have hends : UriRef.endsPath c = true := by
          have := hhead c rfl
          simp only [UriRef.endsAuthority, UriRef.endsPath, Bool.or_eq_true, decide_eq_true_eq] at this ⊢
          tauto
        have hpath : UriRef.pathOf (c :: path) = [] :=
          List.takeWhile_cons_of_neg (by rw [hends]; exact Bool.false_ne_true)
        have hne : ¬ (c :: path).head? = some '/' := fun h => hslash (Option.some.inj h)
        rw [hpath, withSlash, withSlash, if_neg nofun, if_neg hne] at h
        nomatch h
  · rintro ⟨-, hclean⟩
    rw [UriRef.pathOf_eq_iff.mpr hclean]

/-- Every value of every header but `host` is passed on. -/
theorem valuesOf_forwardHeaders (headers : HashMap (List String)) {name : String}
    (hname : eqIgnoreAsciiCase name "host" = false) :
    Multimap.valuesOf name (forwardHeaders headers target) = headers[name]?.getD [] := by
  have hhost : ¬ "host" = name := by
    rintro rfl
    exact absurd hname (by decide)
  have hkept := Multimap.valuesOf_filter name (Multimap.toPairs headers) fun key =>
    !eqIgnoreAsciiCase key "host"
  rw [forwardHeaders, Multimap.valuesOf_append, hkept, hname, Multimap.valuesOf_toPairs,
    Multimap.valuesOf_cons, if_neg hhost]
  simp

theorem parseMethod_getD_iff [MethodParser] {method : String} :
    (parseMethod method).getD "GET" = method ↔ (parseMethod method).isSome = true := by
  cases hparse : parseMethod method with
  | some m => exact iff_of_true (MethodParser.parse_text hparse) rfl
  | none =>
    refine iff_of_false (fun h => ?_) nofun
    rw [← show "GET" = method from h, MethodParser.parse_get] at hparse
    nomatch hparse

/-- A request built as both nodes build theirs. -/
theorem forwards_iff [MethodParser] {out : OutboundRequest} {scheme : String}
    (hscheme : ':' ∉ scheme.toList) (hmethod : out.method = (parseMethod req.method).getD "GET")
    (hurl : out.url = scheme ++ "://" ++ target.address ++ req.path)
    (hheaders : out.headers = forwardHeaders req.headers target) (hbody : out.body = req.body) :
    Forwards target req out ↔ Forwardable target req := by
  have hlist : out.url.toList = scheme.toList ++ ':' :: '/' :: '/' ::
      (target.address.toList ++ req.path.toList) := by
    simp [hurl]
  have hparse := UriRef.parse_append hscheme (target.address.toList ++ req.path.toList)
  rw [← hlist] at hparse
  constructor
  · rintro ⟨hm, ⟨parts, hparts, hauth, hpath, hquery⟩, -, -⟩
    obtain rfl := Option.some.inj (hparse.symm.trans hparts)
    -- the authority was read to its end, so what is left is the path as it was sent
    have hrest := UriRef.dropWhile_append_of_takeWhile hauth
    simp only [UriRef.ofHier, hrest] at hpath hquery
    obtain ⟨hclean, hhead⟩ := UriRef.takeWhile_append_eq_iff.mp hauth
    obtain ⟨hslash, hpathClean⟩ := (path_kept_iff fun c hc => by simpa using hhead c hc).mp hpath
    -- and nothing of the URL is a query
    rw [UriRef.queryOf_eq_none hpathClean] at hquery
    exact ⟨parseMethod_getD_iff.mp (hmethod.symm.trans hm), hslash, hpathClean, hquery.symm,
      address_clean_iff.mp hclean⟩
  · rintro ⟨hm, hslash, hpathClean, hquery, hhost⟩
    have hhead : ∀ c, req.path.toList.head? = some c → UriRef.endsAuthority c = true := by
      intro c hc
      rw [hslash c hc]
      decide
    have hauth : (target.address.toList ++ req.path.toList).takeWhile
        (fun c => !UriRef.endsAuthority c) = target.address.toList :=
      UriRef.takeWhile_append_eq_iff.mpr ⟨address_clean_iff.mpr hhost, fun c hc => by
        rw [hhead c hc]
        rfl⟩
    have hrest := UriRef.dropWhile_append_of_takeWhile hauth
    refine ⟨hmethod.trans (parseMethod_getD_iff.mpr hm), ⟨_, hparse, hauth, ?_, ?_⟩,
      fun name hname => ?_, hbody⟩
    · simp only [UriRef.ofHier, hrest]
      exact (path_kept_iff hhead).mpr ⟨hslash, hpathClean⟩
    · simp only [UriRef.ofHier, hrest]
      rw [UriRef.queryOf_eq_none hpathClean, hquery]
      rfl
    · rw [hheaders]
      exact valuesOf_forwardHeaders req.headers hname

end Parts

/-! ## The two nodes -/

/-- Two requests that differ in their scheme at most, and in how the call is made. -/
def SameRequest (out out' : OutboundRequest) : Prop :=
  out.method = out'.method ∧ out.headers = out'.headers ∧ out.body = out'.body ∧
    ∃ parts parts', UriRef.parse out.url.toList = some parts ∧
      UriRef.parse out'.url.toList = some parts' ∧ parts.authority = parts'.authority ∧
      parts.path = parts'.path ∧ parts.query = parts'.query

/-- **When the backend is asked what the client asked.**  For every context and target, each node
    forwards the request it was given iff that request is `Forwardable`; and both build the same
    one, on the same URL unless the upstream is reached over TLS. -/
theorem upstream_forwards_iff [MethodParser] (plugin : UpstreamPlugin) (timeout : Nat)
    (target : Target) (ctx : Context) :
    (Forwards target ctx.request (plugin.outbound target ctx) ↔ Forwardable target ctx.request) ∧
    (Forwards target ctx.request (TrafficSplitPlugin.outbound timeout target ctx) ↔
      Forwardable target ctx.request) ∧
    SameRequest (plugin.outbound target ctx) (TrafficSplitPlugin.outbound timeout target ctx) ∧
    (plugin.tls = false → (plugin.outbound target ctx).url =
      (TrafficSplitPlugin.outbound timeout target ctx).url) := by
  have hscheme : ':' ∉ (if plugin.tls then "https" else "http").toList := by
    split <;> decide
  refine ⟨forwards_iff hscheme rfl rfl rfl rfl,
    forwards_iff (show ':' ∉ "http".toList by decide) rfl rfl rfl rfl, ⟨rfl, rfl, rfl, ?_⟩,
    fun htls => ?_⟩
  · have hlist : ∀ scheme : String, (scheme ++ "://" ++ target.address ++ ctx.request.path).toList =
        scheme.toList ++ ':' :: '/' :: '/' :: (target.address.toList ++ ctx.request.path.toList) := by
      intro scheme
      simp
    have hurl := UriRef.parse_append hscheme (target.address.toList ++ ctx.request.path.toList)
    have hurl' := UriRef.parse_append (show ':' ∉ "http".toList by decide)
      (target.address.toList ++ ctx.request.path.toList)
    rw [← hlist] at hurl hurl'
    exact ⟨_, _, hurl, hurl', rfl, rfl, rfl⟩
  · simp only [UpstreamPlugin.outbound, TrafficSplitPlugin.outbound, htls]
    rfl

/-! ## A query -/

/-- Methods are tokens. -/
abbrev tokenMethods : MethodParser where
  parseMethod s :=
    if s ≠ "" ∧ s.toList.all fun c => c.isAlphanum || "!#$%&'*+-.^_`|~".toList.contains c then some s
    else none
  parse_text := by
    intro s m h
    split at h
    · exact (Option.some.inj h).symm
    · nomatch h
  parse_get := by decide

/-- `GET /search?q=rust`, as hyper presents it. -/
def searchParts : HttpParts where
  method := "GET"
  uri := { scheme := none, path := "/search", query := some "q=rust" }
  version := .http11
  headers := [("host", asBytes "shop.example.com")]

/-- The backend is asked for `/search`: `q` is not among its parameters. -/
theorem search_query_dropped :
    let _ : MethodParser := tokenMethods
    let ctx := Context.new (.fromHyper searchParts [] "10.0.0.1:40000")
    ctx.request.queryParams["q"]? = some ["rust"] ∧
    (UpstreamPlugin.outbound ⟨60000, false, true⟩ ⟨"backend-1", 3000⟩ ctx).url =
      "http://backend-1:3000/search" ∧
    ¬ Forwards ⟨"backend-1", 3000⟩ ctx.request
      (UpstreamPlugin.outbound ⟨60000, false, true⟩ ⟨"backend-1", 3000⟩ ctx) := by
  intro _ ctx
  have hq : ctx.request.queryParams["q"]? = some ["rust"] := by decide +kernel
  refine ⟨hq, by decide +kernel, fun hforwards => ?_⟩
  have hforwardable := (forwards_iff (show ':' ∉ "http".toList by decide) rfl rfl rfl rfl).mp hforwards
  rw [hforwardable.query, Std.ExtTreeMap.getElem?_empty] at hq
  nomatch hq

end Featherbit
