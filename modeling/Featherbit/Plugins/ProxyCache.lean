/-
  THE `proxy-cache` NODES (`plugins/native/proxy_cache.rs`): a lookup before the upstream, a store
  after it.

  Each node derives the cache key from the context it is given; the default key is the method, the
  host and the path (`$uri` has no query).  The parts are joined with a control character that no
  part has in it, so equal keys have equal parts (`deriveKey_inj`), and a response served from the
  cache was stored by a pass with the same three (`hit_origin`).
-/
import Featherbit.Context.FromHyper
import Featherbit.Lib.TryFold
import Featherbit.Plugins
import Featherbit.Plugins.Pair
import Featherbit.Rust.Time
import Featherbit.Traffic.Cache
import Featherbit.Vars

namespace Featherbit

/-- Which half of the pair a node is. -/
inductive CacheRole where
  | lookup
  | store
deriving DecidableEq

/-- One node of a `proxy-cache` pair. -/
structure ProxyCachePlugin where
  role : CacheRole
  id : String
  /-- cache-key components, each interpolated and joined per request -/
  cacheKey : List String
  cacheTtl : Nat
  cacheStatuses : List UInt16
  /-- HTTP methods eligible for caching (uppercase) -/
  cacheMethods : List String
  hideCacheHeaders : Bool

namespace ProxyCachePlugin

def cacheStatusHeader : String := "featherbit-cache-status"

/-- Response headers hidden from clients when `hide_cache_headers` is set. -/
def hiddenHeaders : List String := ["cache-control", "expires"]

def roleOf (config : HashMap Json) : Except String CacheRole :=
  match phaseOrRole config with
  | some "lookup" => .ok .lookup
  | some "store" => .ok .store
  | some other => .error ("proxy-cache: unknown phase/role '" ++ other ++
      "' (expected 'lookup' or 'store')")
  | none => .error "proxy-cache: 'phase' (or 'role') is required: 'lookup' or 'store'"

def defaultCacheKey : List String := ["$request_method", "$host", "$uri"]

/-- A non-empty list of texts. -/
def stringList (notString empty : String) (items : List Json) : Except String (List String) := do
  let out ← items.mapM fun item =>
    match item.asStr with
    | some s => .ok s
    | none => .error notString
  if out = [] then .error empty else return out

def cacheKeyOf (config : HashMap Json) : Except String (List String) :=
  match config["cache_key"]? with
  | none => .ok defaultCacheKey
  | some (.string s) => .ok [s]
  | some (.array items) =>
    stringList "proxy-cache: cache_key entries must be strings"
      "proxy-cache: cache_key must not be empty" items
  | some _ => .error "proxy-cache: cache_key must be a string or an array of strings"

def parseStatuses : Option Json → Except String (Option (List UInt16)) :=
  statusList {
    notArray := "proxy-cache: cache_http_statuses must be an array of integers"
    notInteger := "proxy-cache: cache_http_statuses entries must be integers"
    outOfRange := fun n => "proxy-cache: cache status " ++ toString n ++ " is out of range (200-599)"
    empty := "proxy-cache: cache_http_statuses must not be empty" }

section Execute

variable [CaseMapping]

def cacheMethodsOf (config : HashMap Json) : Except String (List String) :=
  match config["cache_method"]? with
  | none => .ok ["GET", "HEAD"]
  | some v =>
    match v.asArray with
    | none => .error "proxy-cache: cache_method must be an array of strings"
    | some items => do
      let methods ← stringList "proxy-cache: cache_method entries must be strings"
        "proxy-cache: cache_method must not be empty" items
      return methods.map toUppercase

/-- `ProxyCachePlugin::from_config`. -/
def fromConfig (config : HashMap Json) : Except String ProxyCachePlugin := do
  let role ← roleOf config
  let id ← pairId config "proxy-cache: 'id' is required (links the lookup/store pair)"
  let cacheKey ← cacheKeyOf config
  let ttlSecs := (config["cache_ttl"]?.bind Json.asU64).getD 300
  if ttlSecs = 0 then .error "proxy-cache: cache_ttl must be >= 1 second"
  let cacheStatuses ← parseStatuses (config["cache_http_statuses"]?.or config["cache_http_status"]?)
  let cacheMethods ← cacheMethodsOf config
  return {
    role := role
    id := id
    cacheKey := cacheKey
    cacheTtl := durationFromSecs ttlSecs.toNat
    cacheStatuses := cacheStatuses.getD [200, 301, 404]
    cacheMethods := cacheMethods
    hideCacheHeaders := (config["hide_cache_headers"]?.bind Json.asBool).getD false }

variable [JsonText] (plugin : ProxyCachePlugin)

omit [JsonText] in
/-- Whether this request's method is cacheable. -/
def methodCacheable (ctx : Context) : Bool :=
  decide (toUppercase ctx.request.method ∈ plugin.cacheMethods)

/-- The cache key: the `id`, and the components with a control character before each. -/
def deriveKey (ctx : Context) : String :=
  plugin.cacheKey.foldl (fun key component => key ++ "\x01" ++ Vars.interpolate ctx component)
    plugin.id

/-- What a pass asks of the cache. -/
def call (ctx : Context) : Option CacheCall :=
  if !plugin.methodCacheable ctx then none
  else
    let key := plugin.deriveKey ctx
    match plugin.role with
    | .lookup => some (.get key)
    | .store =>
      if ctx.response.statusCode ∈ plugin.cacheStatuses then
        some (.put key ctx.response.statusCode ctx.response.headers ctx.response.body plugin.cacheTtl)
      else none

omit [CaseMapping] [JsonText] in
/-- A hit: the cached response goes to the client, through the error port. -/
def serveHit (ctx : Context) (entry : CacheEntry) : PluginResult :=
  let headers :=
    if plugin.hideCacheHeaders then hiddenHeaders.foldl (fun headers h => headers.erase h) entry.headers
    else entry.headers
  .error {
    context := { ctx with response := {
      statusCode := entry.status
      headers := headers.insert cacheStatusHeader ["HIT"]
      body := entry.body } }
    error := { nodeId := "", code := "PROXY_CACHE_HIT", message := "Served from cache",
               metadata := ∅ } }

omit [JsonText] in
/-- What the node answers; `found` is what its lookup returned. -/
def answer (ctx : Context) (found : Option CacheEntry) : PluginResult :=
  if !plugin.methodCacheable ctx then .ok { context := ctx, namedOutputs := ∅ }
  else
    match plugin.role with
    | .lookup =>
      match found with
      | some entry => plugin.serveHit ctx entry
      | none => .ok { context := ctx, namedOutputs := ∅ }
    | .store =>
      .ok {
        context := { ctx with response := { ctx.response with
          headers := ctx.response.headers.insert cacheStatusHeader ["MISS"] } }
        namedOutputs := ∅ }

variable {plugin} {ctx ctx' : Context}

omit [JsonText] in
/-- A node without a `cache_key` has the default one. -/
theorem cacheKey_of_fromConfig {config : HashMap Json} (hkey : config["cache_key"]? = none)
    (h : fromConfig config = .ok plugin) : plugin.cacheKey = defaultCacheKey := by
  obtain ⟨role, -, h⟩ := TryFold.bind_eq_ok.mp h
  obtain ⟨id, -, h⟩ := TryFold.bind_eq_ok.mp h
  obtain ⟨cacheKey, hcacheKey, h⟩ := TryFold.bind_eq_ok.mp h
  rw [cacheKeyOf, hkey] at hcacheKey
  obtain rfl := Except.ok.inj hcacheKey
  dsimp only at h
  split at h
  · cases h
  · obtain ⟨statuses, -, h⟩ := TryFold.bind_eq_ok.mp h
    obtain ⟨methods, -, h⟩ := TryFold.bind_eq_ok.mp h
    obtain rfl := Except.ok.inj h
    rfl

/-- Where a node asks the cache for an entry, it is a lookup, and answers with what it gets. -/
theorem of_call_get {key : String} (h : plugin.call ctx = some (.get key)) :
    plugin.role = .lookup ∧ key = plugin.deriveKey ctx ∧
      ∀ entry, plugin.answer ctx (some entry) = plugin.serveHit ctx entry := by
  unfold call at h
  unfold answer
  split at h
  · cases h
  · rename_i hcacheable
    cases hrole : plugin.role with
    | lookup =>
      rw [hrole] at h
      obtain rfl := CacheCall.get.inj (Option.some.inj h)
      exact ⟨rfl, rfl, fun entry => if_neg hcacheable⟩
    | store =>
      rw [hrole] at h
      dsimp only at h
      split at h <;> cases h

/-- Where it puts an entry, it is a store, and the entry is the response it is given. -/
theorem of_call_writes {key : String} {entry : CacheEntry} {call : CacheCall}
    (hwrites : call.Writes key entry) (h : plugin.call ctx = some call) :
    plugin.role = .store ∧ key = plugin.deriveKey ctx ∧
      entry = { entry with
        status := ctx.response.statusCode
        headers := ctx.response.headers
        body := ctx.response.body } := by
  obtain ⟨ttl, rfl⟩ := hwrites
  unfold ProxyCachePlugin.call at h
  split at h
  · cases h
  · cases hrole : plugin.role with
    | lookup =>
      rw [hrole] at h
      cases h
    | store =>
      rw [hrole] at h
      dsimp only at h
      split at h
      · obtain ⟨rfl, hstatus, hheaders, hbody, -⟩ := CacheCall.put.inj (Option.some.inj h)
        refine ⟨rfl, rfl, ?_⟩
        rw [hstatus, hheaders, hbody]
      · cases h

/-- The default key, part by part. -/
theorem deriveKey_default (hkey : plugin.cacheKey = defaultCacheKey) (ctx : Context) :
    plugin.deriveKey ctx = plugin.id ++ "\x01" ++ ctx.request.method ++ "\x01" ++
      ctx.request.host ++ "\x01" ++ ctx.request.path := by
  have hmethod : Vars.interpolate ctx ("$" ++ "request_method") = ctx.request.method := by
    rw [Vars.interpolate_var ctx (by decide) (List.all_eq_true.mp (by decide))]
    rfl
  have hhost : Vars.interpolate ctx ("$" ++ "host") = ctx.request.host := by
    rw [Vars.interpolate_var ctx (by decide) (List.all_eq_true.mp (by decide))]
    rfl
  have huri : Vars.interpolate ctx ("$" ++ "uri") = ctx.request.path := by
    rw [Vars.interpolate_var ctx (by decide) (List.all_eq_true.mp (by decide))]
    rfl
  unfold deriveKey
  rw [hkey]
  show plugin.id ++ "\x01" ++ Vars.interpolate ctx ("$" ++ "request_method") ++ "\x01" ++
    Vars.interpolate ctx ("$" ++ "host") ++ "\x01" ++ Vars.interpolate ctx ("$" ++ "uri") = _
  rw [hmethod, hhost, huri]

end Execute

end ProxyCachePlugin

/-- Texts up to a separator that is not in them are read off one after the other. -/
theorem eq_of_append_separator {sep : Char} {a b rest rest' : String} (ha : sep ∉ a.toList)
    (hb : sep ∉ b.toList) (h : a ++ String.singleton sep ++ rest = b ++ String.singleton sep ++ rest') :
    a = b ∧ rest = rest' := by
  have hsplit := splitOnceChar_append ha rest
  rw [h, splitOnceChar_append hb] at hsplit
  obtain ⟨rfl, rfl⟩ := Prod.mk.inj (Option.some.inj hsplit)
  exact ⟨rfl, rfl⟩

/-- The host of a received request has no control character in it. -/
theorem HttpParts.separator_notMem_host (parts : HttpParts) : '\x01' ∉ parts.host.toList := by
  intro hmem
  unfold HttpParts.host at hmem
  cases hfield : (parts.headers.find? fun field => field.1 = "host").bind fun field =>
      headerToStr field.2 with
  | none =>
    rw [hfield] at hmem
    cases hmem
  | some s =>
    rw [hfield] at hmem
    obtain ⟨field, -, hfield⟩ := Option.bind_eq_some_iff.mp hfield
    unfold headerToStr at hfield
    split at hfield
    · rename_i hall
      have hbyte : (1 : UInt8) ∈ field.2 := by
        rw [fromUtf8_eq_some.mp hfield]
        obtain ⟨before, after, hs⟩ := List.append_of_mem hmem
        have hsplit : s = String.ofList before ++ String.singleton '\x01' ++ String.ofList after := by
          rw [← String.toList_inj]
          simpa using hs
        have hone : asBytes (String.singleton '\x01') = [1] := by decide
        rw [hsplit, asBytes_append, asBytes_append, hone]
        simp
      have hok := List.all_eq_true.mp hall 1 hbyte
      revert hok
      decide
    · cases hfield

/-! ## A pair with the default key -/

/-- A request at one of the nodes, where it asks something of the cache: the node, the request as
    it was received, and the context the node is given. -/
structure CachePass [CaseMapping] [JsonText] where
  node : ProxyCachePlugin
  parts : HttpParts
  ctx : Context
  call : CacheCall
  call_eq : node.call ctx = some call

namespace CachePass

variable [CaseMapping] [JsonText]

/-- What the request was for, as it was received. -/
def SameTarget (pass pass' : CachePass) : Prop :=
  pass.parts.method = pass'.parts.method ∧ pass.parts.host = pass'.parts.host ∧
    pass.parts.uri.path = pass'.parts.uri.path

/-- The nodes on the way have left method, host and path alone. -/
def Untouched (pass : CachePass) : Prop :=
  pass.ctx.request.method = pass.parts.method ∧ pass.ctx.request.host = pass.parts.host ∧
    pass.ctx.request.path = pass.parts.uri.path

end CachePass

section Pair

variable [CaseMapping] [JsonText] {ι : Type} {passes : ι → CachePass}

/-- Equal default keys of untouched requests: the requests were for the same method, host and
    path. -/
theorem deriveKey_inj {pass pass' : CachePass} (hid : pass.node.id = pass'.node.id)
    (hkey : pass.node.cacheKey = ProxyCachePlugin.defaultCacheKey)
    (hkey' : pass'.node.cacheKey = ProxyCachePlugin.defaultCacheKey)
    (hmethod : '\x01' ∉ pass.parts.method.toList) (hmethod' : '\x01' ∉ pass'.parts.method.toList)
    (huntouched : pass.Untouched) (huntouched' : pass'.Untouched)
    (h : pass.node.deriveKey pass.ctx = pass'.node.deriveKey pass'.ctx) :
    pass.SameTarget pass' := by
  obtain ⟨hm, hh, hp⟩ := huntouched
  obtain ⟨hm', hh', hp'⟩ := huntouched'
  rw [ProxyCachePlugin.deriveKey_default hkey, ProxyCachePlugin.deriveKey_default hkey', hid, hm,
    hh, hp, hm', hh', hp'] at h
  have hparts : pass.parts.method ++ "\x01" ++ (pass.parts.host ++ "\x01" ++ pass.parts.uri.path) =
      pass'.parts.method ++ "\x01" ++ (pass'.parts.host ++ "\x01" ++ pass'.parts.uri.path) := by
    simp only [← String.toList_inj, String.toList_append, List.append_assoc,
      List.append_cancel_left_eq] at h ⊢
    exact h
  obtain ⟨hsame, hrest⟩ := eq_of_append_separator hmethod hmethod' hparts
  obtain ⟨hsame', hrest⟩ := eq_of_append_separator pass.parts.separator_notMem_host
    pass'.parts.separator_notMem_host hrest
  exact ⟨hsame, hsame', hrest⟩

/-- **Where a hit comes from.**  Any number of passes go through the nodes of one pair with the
    default key, in any order of the steps of their calls.  What a lookup serves is the response of
    a store pass that is over; and where the nodes left method, host and path of the two requests
    alone, the requests were for the same method, host and path.  (Not the query: it is no part of
    the default key.) -/
theorem hit_origin [DecidableEq ι] {c : Interleave.Config (Option ι) CachePc CacheState}
    (hnodes : ∀ i, ∃ config : HashMap Json, config["cache_key"]? = none ∧
      ProxyCachePlugin.fromConfig config = .ok (passes i).node)
    (hid : ∀ i j, (passes i).node.id = (passes j).node.id)
    (hmethod : ∀ i, '\x01' ∉ (passes i).parts.method.toList)
    (hreach : (cacheSystem fun i => (passes i).call).Reaches cacheStart c) {i : ι}
    {entry : CacheEntry} (hlookup : (passes i).node.role = .lookup)
    (hhit : c.threads (some i) = .got (some entry)) :
    ∃ j, c.threads (some j) = .stored entry ∧ (passes j).node.role = .store ∧
      (passes i).node.answer (passes i).ctx (some entry) = (passes i).node.serveHit (passes i).ctx
        { entry with
          status := (passes j).ctx.response.statusCode
          headers := (passes j).ctx.response.headers
          body := (passes j).ctx.response.body } ∧
      ((passes i).Untouched → (passes j).Untouched → (passes i).SameTarget (passes j)) := by
  have hkey : ∀ i, (passes i).node.cacheKey = ProxyCachePlugin.defaultCacheKey := by
    intro i
    obtain ⟨config, hconfig, hnode⟩ := hnodes i
    exact ProxyCachePlugin.cacheKey_of_fromConfig hconfig hnode
  have hcall := (passes i).call_eq
  cases hget : (passes i).call with
  | put key status headers body ttl =>
    have hwrites : ((passes i).call).Writes key ⟨status, headers, body, 0⟩ := ⟨ttl, hget⟩
    obtain ⟨hstore, -⟩ := ProxyCachePlugin.of_call_writes hwrites hcall
    rw [hlookup] at hstore
    cases hstore
  | get key =>
    rw [hget] at hcall
    obtain ⟨-, rfl, hanswer⟩ := ProxyCachePlugin.of_call_get hcall
    obtain ⟨j, hstored, hwrites⟩ := storedAt_of_got hreach hget hhit
    obtain ⟨hstore, hsame, hentry⟩ :=
      ProxyCachePlugin.of_call_writes hwrites (passes j).call_eq
    refine ⟨j, hstored, hstore, ?_, ?_⟩
    · rw [hanswer, ← hentry]
    · intro huntouched huntouched'
      exact deriveKey_inj (hid i j) (hkey i) (hkey j) (hmethod i) (hmethod j) huntouched
        huntouched' hsame

/-- A hit is the response of an earlier request for the same method, host, path and query. -/
def OneResource [DecidableEq ι] (passes : ι → CachePass) : Prop :=
  ∀ c i entry, (cacheSystem fun i => (passes i).call).Reaches cacheStart c →
    (passes i).node.role = .lookup → c.threads (some i) = .got (some entry) →
    ∃ j, c.threads (some j) = .stored entry ∧ (passes i).SameTarget (passes j) ∧
      (passes i).parts.uri.query = (passes j).parts.uri.query

end Pair

/-! ## Two requests that differ in their query -/

/-- The nodes of a catalog's cache, with nothing configured but what is required. -/
def catalogConfig (phase : String) : HashMap Json :=
  (∅ : HashMap Json).insert "phase" (.string phase) |>.insert "id" (.string "catalog")

/-- A node it configures. -/
def catalogNode (role : CacheRole) : ProxyCachePlugin where
  role := role
  id := "catalog"
  cacheKey := ProxyCachePlugin.defaultCacheKey
  cacheTtl := durationFromSecs 300
  cacheStatuses := [200, 301, 404]
  cacheMethods := ["GET", "HEAD"]
  hideCacheHeaders := false

theorem fromConfig_catalog [CaseMapping] :
    ProxyCachePlugin.fromConfig (catalogConfig "lookup") = .ok (catalogNode .lookup) ∧
    ProxyCachePlugin.fromConfig (catalogConfig "store") = .ok (catalogNode .store) := ⟨rfl, rfl⟩

/-- `GET /items` with a query. -/
def itemsParts (query : String) : HttpParts where
  method := "GET"
  uri := { scheme := none, path := "/items", query := some query }
  version := .http10
  headers := [("host", asBytes "shop")]

/-- Its context when it comes in. -/
def itemsContext (query : String) : Context :=
  Context.new (GatewayRequest.fromHyper (itemsParts query) [] "10.0.0.1:5000")

theorem target_items (query : String) :
    (itemsContext query).request.method = "GET" ∧
    (itemsContext query).request.host = (itemsParts "").host ∧
    (itemsContext query).request.path = "/items" := by
  unfold itemsContext Context.new GatewayRequest.fromHyper
  dsimp only
  refine ⟨rfl, ?_, rfl⟩
  unfold HttpParts.host
  rfl

/-- Its context when the upstream has answered. -/
def itemsAnswered (query : String) (body : Bytes) : Context :=
  { itemsContext query with response := { statusCode := 200, headers := ∅, body := body } }

section Catalog

variable [CaseMapping] [JsonText]

omit [JsonText] in
theorem methodCacheable_items (role : CacheRole) {ctx : Context}
    (hmethod : ctx.request.method = "GET") : (catalogNode role).methodCacheable ctx = true := by
  have hupper : toUppercase "GET" = "GET" := by
    rw [CaseMapping.toUppercase_ascii "GET" (by simp)]
    decide
  unfold ProxyCachePlugin.methodCacheable
  rw [hmethod, hupper]
  exact decide_eq_true List.mem_cons_self

/-- The first request is stored, the second one looks up. -/
def catalogPasses : CacheRole → CachePass
  | .store => {
      node := catalogNode .store
      parts := itemsParts "page=1"
      ctx := itemsAnswered "page=1" [1]
      call := .put ((catalogNode .store).deriveKey (itemsAnswered "page=1" [1])) 200 ∅ [1]
        (durationFromSecs 300)
      call_eq := by
        rw [ProxyCachePlugin.call, methodCacheable_items .store rfl]
        rfl }
  | .lookup => {
      node := catalogNode .lookup
      parts := itemsParts "page=2"
      ctx := itemsContext "page=2"
      call := .get ((catalogNode .lookup).deriveKey (itemsContext "page=2"))
      call_eq := by
        rw [ProxyCachePlugin.call, methodCacheable_items .lookup rfl]
        rfl }

/-- The second request is served the first one's response. -/
theorem catalog_hit : ∃ c, (cacheSystem fun role => (catalogPasses role).call).Reaches cacheStart c ∧
    c.threads (some .store) = .stored ⟨200, ∅, [1], durationFromSecs 300⟩ ∧
    c.threads (some .lookup) = .got (some ⟨200, ∅, [1], durationFromSecs 300⟩) := by
  have hkey : (catalogNode .store).deriveKey (itemsAnswered "page=1" [1]) =
      (catalogNode .lookup).deriveKey (itemsContext "page=2") := by
    have hid : (catalogNode .store).id = (catalogNode .lookup).id := rfl
    have hrequest : (itemsAnswered "page=1" [1]).request = (itemsContext "page=1").request := rfl
    obtain ⟨hmethod, hhost, hpath⟩ := target_items "page=1"
    obtain ⟨hmethod', hhost', hpath'⟩ := target_items "page=2"
    rw [ProxyCachePlugin.deriveKey_default rfl, ProxyCachePlugin.deriveKey_default rfl, hid, hrequest,
      hmethod, hhost, hpath, hmethod', hhost', hpath']
  refine hit_after_put (p := CacheRole.store) (g := CacheRole.lookup) (by decide) ?_ (by decide) rfl
  show CacheCall.put _ 200 ∅ [1] (durationFromSecs 300) = _
  rw [hkey]

end Catalog

theorem hit_origin_catalog :
    let _ : CaseMapping := asciiCaseMapping
    let _ : JsonText := oneFieldText
    ∃ c, (cacheSystem fun role => (catalogPasses role).call).Reaches cacheStart c ∧
      ∃ j, c.threads (some j) = .stored ⟨200, ∅, [1], durationFromSecs 300⟩ ∧
        (catalogPasses j).node.role = .store ∧
        (catalogPasses .lookup).node.answer (catalogPasses .lookup).ctx
            (some ⟨200, ∅, [1], durationFromSecs 300⟩) =
          (catalogPasses .lookup).node.serveHit (catalogPasses .lookup).ctx
            ⟨(catalogPasses j).ctx.response.statusCode, (catalogPasses j).ctx.response.headers,
              (catalogPasses j).ctx.response.body, durationFromSecs 300⟩ ∧
        ((catalogPasses .lookup).Untouched → (catalogPasses j).Untouched →
          (catalogPasses .lookup).SameTarget (catalogPasses j)) := by
  intro _ _
  obtain ⟨c, hreach, -, hhit⟩ := catalog_hit
  refine ⟨c, hreach, hit_origin ?_ ?_ ?_ hreach rfl hhit⟩
  · intro role
    cases role with
    | lookup => exact ⟨catalogConfig "lookup", rfl, fromConfig_catalog.1⟩
    | store => exact ⟨catalogConfig "store", rfl, fromConfig_catalog.2⟩
  · intro i j
    cases i <;> cases j <;> rfl
  · intro role
    cases role <;> decide

/-- `page=2` is answered with the response to `page=1`. -/
theorem query_not_in_key :
    let _ : CaseMapping := asciiCaseMapping
    let _ : JsonText := oneFieldText
    ProxyCachePlugin.fromConfig (catalogConfig "lookup") = .ok (catalogPasses .lookup).node ∧
    ProxyCachePlugin.fromConfig (catalogConfig "store") = .ok (catalogPasses .store).node ∧
    ¬ OneResource catalogPasses := by
  intro _ _
  refine ⟨rfl, rfl, fun h => ?_⟩
  obtain ⟨c, hreach, -, hhit⟩ := catalog_hit
  obtain ⟨j, hstored, -, hquery⟩ := h c .lookup _ hreach rfl hhit
  cases j with
  | lookup =>
    rw [hhit] at hstored
    cases hstored
  | store =>
    revert hquery
    decide

end Featherbit
