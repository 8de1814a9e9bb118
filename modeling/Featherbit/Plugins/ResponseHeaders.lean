/-
  WHAT THE PLUGINS DO TO THE RESPONSE HEADERS (`plugins/native/*.rs`, `plugins/script/mod.rs`).

  A plugin changes `ctx.response.headers` by edits: it inserts an entry, adds a value to one, removes one, or
  assigns the whole map.  Which names it edits is written in its code, or taken from its configuration, or, in
  one case, given by the answer of another service.  `NativePlugin` has the types of `create_plugin`, each with
  the names its configuration gives; `Makes` says which edits an execution of it can consist of.

  `EditLog` ties that to a node of a graph: whatever the node does to the headers is the effect of edits its
  plugin makes.  The nodes that are modelled whole have such logs (`LimitCountPlugin.editLog` and the others).
-/
import Featherbit.Plugins.LimitCount
import Featherbit.Plugins.ProxyCache
import Featherbit.Plugins.Upstream

namespace Featherbit

/-! ## Edits -/

/-- Where a plugin has the name of a header from. -/
inductive NameSource where
  | code
  | config
  | answer
deriving DecidableEq

inductive HeaderEdit where
  /-- `headers.insert(name, values)` -/
  | insert (source : NameSource) (name : String) (values : List String)
  /-- `headers.entry(name).or_default().push(value)` -/
  | push (source : NameSource) (name value : String)
  /-- `headers.remove(name)` -/
  | remove (source : NameSource) (name : String)
  /-- `remove_ci(&mut headers, name)` -/
  | removeCi (source : NameSource) (name : String)
  /-- `response.headers = headers` -/
  | assign (headers : HashMap (List String))

namespace HeaderEdit

/-- The header an edit names, and where the name is from; an assignment names none. -/
def named : HeaderEdit → Option (NameSource × String)
  | insert source name _ | push source name _ | remove source name | removeCi source name =>
    some (source, name)
  | assign _ => none

def apply (headers : HashMap (List String)) : HeaderEdit → HashMap (List String)
  | insert _ name values => headers.insert name values
  | push _ name value => headers.insert name (headers[name]?.getD [] ++ [value])
  | remove _ name => headers.erase name
  | removeCi _ name => headers.filter fun k _ => !eqIgnoreAsciiCase k name
  | assign headers' => headers'

/-- An edit leaves the headers of other names. -/
theorem getElem?_apply {e : HeaderEdit} {source : NameSource} {name q : String}
    (headers : HashMap (List String)) (hnamed : e.named = some (source, name))
    (hother : eqIgnoreAsciiCase q name = false) : (e.apply headers)[q]? = headers[q]? := by
  have hne : q ≠ name := by
    rintro rfl
    rw [eqIgnoreAsciiCase, decide_eq_true rfl] at hother
    cases hother
  cases e with
  | insert source' name' values =>
    obtain ⟨-, rfl⟩ := Prod.mk.inj (Option.some.inj hnamed)
    rw [apply, HashMap.get_insert, if_neg hne]
  | push source' name' value =>
    obtain ⟨-, rfl⟩ := Prod.mk.inj (Option.some.inj hnamed)
    rw [apply, HashMap.get_insert, if_neg hne]
  | remove source' name' =>
    obtain ⟨-, rfl⟩ := Prod.mk.inj (Option.some.inj hnamed)
    rw [apply, HashMap.get_erase, if_neg hne]
  | removeCi source' name' =>
    obtain ⟨-, rfl⟩ := Prod.mk.inj (Option.some.inj hnamed)
    rw [apply, Std.ExtTreeMap.getElem?_filter', hother]
    cases headers[q]? with
    | none => rfl
    | some values => rfl
  | assign headers' => cases hnamed

end HeaderEdit

/-- The headers after some edits. -/
def applyEdits (edits : List HeaderEdit) (headers : HashMap (List String)) : HashMap (List String) :=
  edits.foldl HeaderEdit.apply headers

/-! ## The plugins -/

/-- The node types of `create_plugin`, with the header names of their configuration. -/
inductive NativePlugin where
  | acl | apiBreaker | attachConsumerLabel | authzCasbin | authzCasdoor | authzKeycloak
  | awsLambda | azureFunctions
  | basicAuth | bodyTransformer | brotli
  | casAuth | clickhouseLogger | client | consumerRestriction | cors | csrf
  | dataMask | datadog | degraphql | dingtalkAuth
  | echo (headers : List String)
  | elasticsearchLogger | errorHandler | errorLogLogger | errorPage | exitTransformer
  | faultInjection (abortHeaders : List String)
  | feishuAuth | fileLogger
  | forwardAuth (clientHeaders : List String)
  | googleCloudLogging | gzip
  | hmacAuth | httpLogger
  | ipRestriction
  | jweDecrypt | jwtAuth
  | keyAuth
  | lago | ldapAuth | limitConn | limitCount | listener | logging | loggly | lokiLogger
  | mocking (responseHeaders : List String)
  | multiAuth (subPlugins : List NativePlugin)
  | oasValidator | opa | openfunction | openidConnect | opentelemetry | openwhisk
  | prometheus | proxyCache | proxyMirror
  | proxyRewrite (addHeaders removeHeaders : List String)
  | rateLimit | realIp | redirect | refererRestriction
  | requestId (headerName : String)
  | requestSizeLimit | requestValidation
  | responseRewrite (addHeaders setHeaders removeHeaders : List String)
  | script | serverlessPostFunction | serverlessPreFunction | skywalking | skywalkingLogger | slsLogger
  | splunkHecLogging | syslog
  | tcpLogger | tencentCloudCls | trafficLabel | trafficSplit
  | uaRestriction | udpLogger | upstream | uriBlocker
  | wolfRbac | workflow
  | zipkin

/-- The headers of a quota. -/
def quotaNames : List String := ["x-ratelimit-limit", "x-ratelimit-remaining", "x-ratelimit-reset"]

namespace NativePlugin

/-- The header names that a plugin's code edits in the response. -/
def codeNames : NativePlugin → List String
  -- a JSON rejection, or a JSON body
  | acl | authzCasbin | authzKeycloak | consumerRestriction | degraphql | dingtalkAuth | errorHandler
  | feishuAuth | ipRestriction | jweDecrypt | jwtAuth | keyAuth | limitConn | multiAuth _ | oasValidator
  | refererRestriction | requestSizeLimit | requestValidation | trafficSplit | uaRestriction | uriBlocker
  | wolfRbac => ["content-type"]
  | basicAuth | hmacAuth | ldapAuth => ["content-type", "www-authenticate"]
  | rateLimit => ["content-type", "retry-after"]
  | csrf => ["content-type", "set-cookie"]
  | authzCasdoor | casAuth => ["content-type", "location", "set-cookie"]
  | openidConnect => ["content-type", "www-authenticate", "location", "set-cookie"]
  -- the quota
  | limitCount | workflow => "content-type" :: quotaNames
  -- another body
  | bodyTransformer | errorPage => ["content-type", "content-length", "content-encoding"]
  | echo _ | exitTransformer => ["content-length", "content-encoding"]
  | redirect => ["location", "content-length", "content-encoding"]
  | gzip => ["content-length", "content-encoding", "vary"]
  | brotli => ["content-length", "content-encoding", "etag", "vary"]
  | responseRewrite _ _ _ => ["content-length", "content-encoding", "last-modified", "etag"]
  | mocking _ => ["content-type", "x-mock-by"]
  | proxyCache => ["cache-control", "expires", "featherbit-cache-status"]
  | cors => ["access-control-allow-origin", "access-control-allow-credentials",
      "access-control-allow-methods", "access-control-allow-headers", "access-control-max-age"]
  | apiBreaker | attachConsumerLabel | awsLambda | azureFunctions | clickhouseLogger | client | dataMask
  | datadog | elasticsearchLogger | errorLogLogger | faultInjection _ | fileLogger | forwardAuth _
  | googleCloudLogging | httpLogger | lago | listener | logging | loggly | lokiLogger | opa | openfunction
  | opentelemetry | openwhisk | prometheus | proxyMirror | proxyRewrite _ _ | realIp | requestId _ | script
  | serverlessPostFunction | serverlessPreFunction | skywalking | skywalkingLogger | slsLogger
  | splunkHecLogging | syslog | tcpLogger | tencentCloudCls | trafficLabel | udpLogger | upstream
  | zipkin => []

/-- Those it has from its configuration. -/
def configNames : NativePlugin → List String
  | echo headers => headers
  | faultInjection abortHeaders => abortHeaders
  | forwardAuth clientHeaders => clientHeaders
  | mocking responseHeaders => responseHeaders
  | proxyRewrite addHeaders removeHeaders => addHeaders ++ removeHeaders
  | requestId headerName => [headerName]
  | responseRewrite addHeaders setHeaders removeHeaders => addHeaders ++ setHeaders ++ removeHeaders
  | _ => []

/-- It assigns the headers: those of a reply, of a cache entry, or of the table a script hands back. -/
def assigns : NativePlugin → Bool
  | awsLambda | azureFunctions | openfunction | openwhisk | proxyCache | script | serverlessPostFunction
  | serverlessPreFunction | trafficSplit | upstream => true
  | _ => false

/-- The edits an execution of a plugin can consist of. -/
inductive Makes : NativePlugin → HeaderEdit → Prop
  | code {p : NativePlugin} {e : HeaderEdit} {name : String} (hnamed : e.named = some (.code, name))
      (hname : name ∈ p.codeNames) : Makes p e
  | config {p : NativePlugin} {e : HeaderEdit} {name : String} (hnamed : e.named = some (.config, name))
      (hname : name ∈ p.configNames) : Makes p e
  /-- a denial takes the headers that the policy server lists -/
  | answer {e : HeaderEdit} {name : String} (hnamed : e.named = some (.answer, name)) : Makes opa e
  | assign {p : NativePlugin} (headers : HashMap (List String)) (hassigns : p.assigns = true) :
      Makes p (.assign headers)
  /-- the response of a sub-plugin that failed is put back -/
  | sub {subPlugins : List NativePlugin} {p : NativePlugin} {e : HeaderEdit} (hsub : p ∈ subPlugins)
      (h : Makes p e) : Makes (multiAuth subPlugins) e

/-- A plugin that counts requests in a window, by itself or as a sub-plugin. -/
inductive LimitsRate : NativePlugin → Prop
  | limitCount : LimitsRate limitCount
  | workflow : LimitsRate workflow
  | sub {subPlugins : List NativePlugin} {p : NativePlugin} (hsub : p ∈ subPlugins) (h : LimitsRate p) :
      LimitsRate (multiAuth subPlugins)

/-- Only these have the quota's names in their code. -/
theorem limitsRate_of_code {p : NativePlugin} {e : HeaderEdit} (h : p.Makes e) {name q : String}
    (hnamed : e.named = some (.code, name)) (hq : q ∈ quotaNames)
    (hsame : eqIgnoreAsciiCase q name = true) : p.LimitsRate := by
  induction h with
  | @code p e name' hnamed' hname =>
    obtain ⟨-, rfl⟩ := Prod.mk.inj (Option.some.inj (hnamed.symm.trans hnamed'))
    have hquota : ¬ (p.codeNames.all fun name => quotaNames.all fun q => !eqIgnoreAsciiCase q name) = true := by
      intro hall
      have hthis := List.all_eq_true.mp (List.all_eq_true.mp hall name hname) q hq
      rw [hsame] at hthis
      cases hthis
    cases p with
    | limitCount => exact .limitCount
    | workflow => exact .workflow
    | _ =>
      simp only [codeNames] at hquota
      exact absurd (by decide +kernel) hquota
  | config hnamed' => exact absurd (hnamed.symm.trans hnamed') (by simp)
  | answer hnamed' => exact absurd (hnamed.symm.trans hnamed') (by simp)
  | assign headers => cases hnamed
  | sub hsub _ ih => exact .sub hsub (ih hnamed)

end NativePlugin

/-! ## Nodes -/

/-- What a node does to the response headers, as edits that its plugin makes. -/
structure EditLog {σ : Type} (node : Plugin σ) where
  plugin : NativePlugin
  edits : Context → HashMap Json → σ → List HeaderEdit
  made : ∀ ctx inputs w, ∀ e ∈ edits ctx inputs w, plugin.Makes e
  does : ∀ ctx inputs w, (PluginResult.context (node.execute ctx inputs w).1).response.headers =
    applyEdits (edits ctx inputs w) ctx.response.headers

/-- A node that is another one has its log. -/
def EditLog.cast {σ : Type} {node node' : Plugin σ} (h : node' = node) (log : EditLog node) :
    EditLog node' where
  plugin := log.plugin
  edits := log.edits
  made := log.made
  does := by
    subst h
    exact log.does

/-- A structural node makes no edit. -/
def passThroughLog {σ : Type} (pluginType : String) : EditLog (passThrough (σ := σ) pluginType) where
  plugin := .client
  edits _ _ _ := []
  made _ _ _ e he := by cases he
  does _ _ _ := rfl

namespace LimitCountPlugin

variable {σ : Type} [WholeSeconds] (plugin : LimitCountPlugin σ)

/-- The quota headers, as edits. -/
def quotaEdits (remaining reset : Nat) : List HeaderEdit :=
  if !plugin.showLimitQuotaHeader then []
  else
    [.insert .code "x-ratelimit-limit" [toString plugin.count],
      .insert .code "x-ratelimit-remaining" [toString remaining],
      .insert .code "x-ratelimit-reset" [toString (WholeSeconds.ceilSecs reset)]]

theorem setQuotaHeaders_headers (ctx : Context) (remaining reset : Nat) :
    (plugin.setQuotaHeaders ctx remaining reset).response.headers =
      applyEdits (plugin.quotaEdits remaining reset) ctx.response.headers := by
  unfold setQuotaHeaders quotaEdits
  split
  · rfl
  · rfl

theorem quotaEdits_made (remaining reset : Nat) :
    ∀ e ∈ plugin.quotaEdits remaining reset, NativePlugin.limitCount.Makes e := by
  unfold quotaEdits
  split
  · intro e he
    cases he
  · intro e he
    rcases List.mem_cons.mp he with rfl | he
    · exact .code rfl (by decide)
    · rcases List.mem_cons.mp he with rfl | he
      · exact .code rfl (by decide)
      · obtain rfl := List.mem_singleton.mp he
        exact .code rfl (by decide)

/-- The edits of an answer. -/
def answerEdits : Except CounterError WindowResult → List HeaderEdit
  | .error _ =>
    if plugin.allowDegradation then [] else [.insert .code "content-type" ["application/json"]]
  | .ok result =>
    if result.allowed then plugin.quotaEdits result.remaining result.reset
    else plugin.quotaEdits 0 result.reset ++ [.insert .code "content-type" ["application/json"]]

theorem answerEdits_made (reported : Except CounterError WindowResult) :
    ∀ e ∈ plugin.answerEdits reported, NativePlugin.limitCount.Makes e := by
  have htype : NativePlugin.limitCount.Makes (.insert .code "content-type" ["application/json"]) :=
    .code rfl (by decide)
  unfold answerEdits
  intro e he
  split at he
  · split at he
    · cases he
    · rw [List.mem_singleton.mp he]
      exact htype
  · split at he
    · exact plugin.quotaEdits_made _ _ e he
    · rcases List.mem_append.mp he with he | he
      · exact plugin.quotaEdits_made _ _ e he
      · rw [List.mem_singleton.mp he]
        exact htype

variable [JsonText]

theorem respond_headers (ctx : Context) (reported : Except CounterError WindowResult) :
    (PluginResult.context (plugin.respond ctx reported)).response.headers =
      applyEdits (plugin.answerEdits reported) ctx.response.headers := by
  cases reported with
  | error e =>
    unfold respond answerEdits
    dsimp only
    split
    · rfl
    · rfl
  | ok result =>
    unfold respond answerEdits
    dsimp only
    split
    · exact plugin.setQuotaHeaders_headers ctx _ _
    · show ((plugin.setQuotaHeaders ctx 0 result.reset).response.headers.insert _ _) = _
      rw [setQuotaHeaders_headers, applyEdits, applyEdits, List.foldl_append]
      rfl

/-- The log of a `limit-count` node. -/
def editLog [CaseMapping] : EditLog plugin.toPlugin where
  plugin := .limitCount
  edits ctx _ world := plugin.answerEdits (plugin.charge ctx world.1 world.2).1
  made _ _ _ := plugin.answerEdits_made _
  does ctx _ _ := plugin.respond_headers ctx _

end LimitCountPlugin

/-! ### Nodes that assign the headers -/

/-- A reply takes the place of the headers; a failure leaves them to `failed`. -/
def replyEdits (failed : List HeaderEdit) : Except OutboundError OutboundResponse → List HeaderEdit
  | .ok response => [.assign response.headers]
  | .error _ => failed

theorem replyEdits_made {p : NativePlugin} {failed : List HeaderEdit} (hassigns : p.assigns = true)
    (hfailed : ∀ e ∈ failed, p.Makes e) (reply : Except OutboundError OutboundResponse) :
    ∀ e ∈ replyEdits failed reply, p.Makes e := by
  intro e he
  cases reply with
  | ok response =>
    rw [List.mem_singleton.mp he]
    exact .assign _ hassigns
  | error failure => exact hfailed e he

section Proxies

variable {σ : Type} [MethodParser] [DurationText]

/-- An `upstream` node: `pick` has its balancer and the call. -/
def UpstreamPlugin.toPlugin (plugin : UpstreamPlugin)
    (pick : Context → σ → (Target × OutboundClient) × σ) : Plugin σ where
  pluginType := "upstream"
  execute ctx _ w :=
    let ((target, client), w) := pick ctx w
    (plugin.execute target client ctx, w)

/-- The log of an `upstream` node. -/
def UpstreamPlugin.editLog (plugin : UpstreamPlugin)
    (pick : Context → σ → (Target × OutboundClient) × σ) : EditLog (plugin.toPlugin pick) where
  plugin := .upstream
  edits ctx _ w :=
    if ctx.request.protocol = .webSocket then []
    else replyEdits [] ((pick ctx w).1.2 (plugin.outbound (pick ctx w).1.1 ctx))
  made ctx inputs w := by
    split
    · intro e he
      cases he
    · exact replyEdits_made rfl (fun e he => by cases he) _
  does ctx inputs w := by
    show (PluginResult.context (plugin.execute (pick ctx w).1.1 (pick ctx w).1.2 ctx)).response.headers = _
    unfold UpstreamPlugin.execute
    split
    · rfl
    · cases (pick ctx w).1.2 (plugin.outbound (pick ctx w).1.1 ctx) with
      | ok response => rfl
      | error failure => rfl

/-- A `traffic-split` node: `pick` has its rules and the slot; without a target the request goes on. -/
def TrafficSplitPlugin.toPlugin (timeout : Nat)
    (pick : Context → σ → Option (Target × OutboundClient) × σ) : Plugin σ where
  pluginType := "traffic-split"
  execute ctx _ w :=
    match pick ctx w with
    | (none, w) => (.ok { context := ctx, namedOutputs := ∅ }, w)
    | (some (target, client), w) => (TrafficSplitPlugin.executeSlot timeout target client ctx, w)

/-- The edits of a `traffic-split` node, given its slot. -/
def TrafficSplitPlugin.slotEdits (timeout : Nat) (ctx : Context) :
    Option (Target × OutboundClient) → List HeaderEdit
  | none => []
  | some (target, client) =>
    replyEdits [.insert .code "content-type" ["application/json"]]
      (client (TrafficSplitPlugin.outbound timeout target ctx))

/-- The log of a `traffic-split` node. -/
def TrafficSplitPlugin.editLog (timeout : Nat)
    (pick : Context → σ → Option (Target × OutboundClient) × σ) :
    EditLog (TrafficSplitPlugin.toPlugin timeout pick) where
  plugin := .trafficSplit
  edits ctx _ w := TrafficSplitPlugin.slotEdits timeout ctx (pick ctx w).1
  made ctx inputs w := by
    cases (pick ctx w).1 with
    | none =>
      intro e he
      cases he
    | some slot =>
      refine replyEdits_made rfl (fun e he => ?_) _
      rw [List.mem_singleton.mp he]
      exact .code rfl (by decide)
  does ctx inputs w := by
    unfold TrafficSplitPlugin.toPlugin
    dsimp only
    obtain ⟨slot, w'⟩ := pick ctx w
    cases slot with
    | none => rfl
    | some slot =>
      obtain ⟨target, client⟩ := slot
      dsimp only [TrafficSplitPlugin.slotEdits]
      unfold TrafficSplitPlugin.executeSlot
      cases client (TrafficSplitPlugin.outbound timeout target ctx) with
      | ok response => rfl
      | error failure => rfl

end Proxies

namespace ProxyCachePlugin

variable {σ : Type} [CaseMapping] (plugin : ProxyCachePlugin)

/-- A `proxy-cache` node: `lookup` asks the cache. -/
def toPlugin (lookup : Context → σ → Option CacheEntry × σ) : Plugin σ where
  pluginType := "proxy-cache"
  execute ctx _ w := (plugin.answer ctx (lookup ctx w).1, (lookup ctx w).2)

/-- The edits of a hit. -/
def hitEdits (entry : CacheEntry) : List HeaderEdit :=
  (.assign entry.headers :: if plugin.hideCacheHeaders then hiddenHeaders.map (.remove .code) else []) ++
    [.insert .code cacheStatusHeader ["HIT"]]

/-- The edits of an answer. -/
def answerEdits (ctx : Context) (found : Option CacheEntry) : List HeaderEdit :=
  if !plugin.methodCacheable ctx then []
  else
    match plugin.role, found with
    | .lookup, some entry => plugin.hitEdits entry
    | .lookup, none => []
    | .store, _ => [.insert .code cacheStatusHeader ["MISS"]]

omit [CaseMapping] in
theorem hitEdits_made (entry : CacheEntry) : ∀ e ∈ plugin.hitEdits entry, NativePlugin.proxyCache.Makes e := by
  intro e he
  unfold hitEdits at he
  rcases List.mem_append.mp he with he | he
  · rcases List.mem_cons.mp he with rfl | he
    · exact .assign _ rfl
    · split at he
      · obtain ⟨name, hname, rfl⟩ := List.mem_map.mp he
        exact .code rfl (List.mem_append_left [cacheStatusHeader] hname)
      · cases he
  · rw [List.mem_singleton.mp he]
    exact .code rfl (by decide)

theorem answerEdits_made (ctx : Context) (found : Option CacheEntry) :
    ∀ e ∈ plugin.answerEdits ctx found, NativePlugin.proxyCache.Makes e := by
  unfold answerEdits
  intro e he
  split at he
  · cases he
  · split at he
    · exact plugin.hitEdits_made _ e he
    · cases he
    · rw [List.mem_singleton.mp he]
      exact .code rfl (by decide)

theorem answer_headers (ctx : Context) (found : Option CacheEntry) :
    (PluginResult.context (plugin.answer ctx found)).response.headers =
      applyEdits (plugin.answerEdits ctx found) ctx.response.headers := by
  unfold answer answerEdits
  split
  · rfl
  · cases plugin.role with
    | store => rfl
    | lookup =>
      cases found with
      | none => rfl
      | some entry =>
        unfold serveHit
        dsimp only [hitEdits, PluginResult.context]
        split
        · rfl
        · rfl

/-- The log of a `proxy-cache` node. -/
def editLog (lookup : Context → σ → Option CacheEntry × σ) : EditLog (plugin.toPlugin lookup) where
  plugin := .proxyCache
  edits ctx _ w := plugin.answerEdits ctx (lookup ctx w).1
  made _ _ _ := plugin.answerEdits_made _ _
  does _ _ _ := plugin.answer_headers _ _

end ProxyCachePlugin

end Featherbit
