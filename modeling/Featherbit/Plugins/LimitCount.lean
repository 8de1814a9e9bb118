/-
  THE `limit-count` NODE (`plugins/native/limit_count.rs`): a request count within a fixed window.

  A node resolves a key for the request, has the store count it, and answers from what the store
  reports.  All nodes of a gateway share one store, and a node's key names the counter in it: the
  rendered template, with the `group` before it when there is one.
-/
import Featherbit.Lib.TryFold
import Featherbit.Plugins
import Featherbit.RateLimit.CounterStore
import Featherbit.Rust.Time
import Featherbit.Vars

namespace Featherbit

/-- A configured `limit-count` node. -/
structure LimitCountPlugin (σ : Type) where
  /-- maximum number of requests allowed per window -/
  count : Nat
  count_pos : 0 < count
  /-- length of the fixed window -/
  window : Nat
  window_pos : 0 < window
  keyTemplate : String
  /-- counter-key prefix so multiple nodes share one counter -/
  group : Option String
  rejectedCode : UInt16
  rejectedMsg : Option String
  showLimitQuotaHeader : Bool
  allowDegradation : Bool
  store : CounterStore σ

namespace LimitCountPlugin

variable {σ : Type}

/-- A required integer greater than 0. -/
def positiveField (config : HashMap Json) (field message : String) :
    Except String { n : Nat // 0 < n } :=
  match config[field]?.bind Json.asU64 with
  | none => .error message
  | some n => if h : 0 < n.toNat then .ok ⟨n.toNat, h⟩ else .error message

/-- An optional text; the empty one counts as absent. -/
def nonEmptyField (config : HashMap Json) (field : String) : Option String :=
  (config[field]?.bind Json.asStr).filter fun s => s ≠ ""

/-- `LimitCountPlugin::from_config`. -/
def fromConfig (config : HashMap Json) (counters : CounterStoreRegistry σ) :
    Except String (LimitCountPlugin σ) := do
  let count ← positiveField config "count"
    "limit-count requires 'count' as an integer greater than 0"
  let timeWindow ← positiveField config "time_window"
    "limit-count requires 'time_window' as an integer greater than 0 (seconds)"
  let store ← counters.get ((config["policy"]?.bind Json.asStr).getD "local")
  return {
    count := count
    count_pos := count.2
    window := durationFromSecs timeWindow
    window_pos := Nat.mul_pos timeWindow.2 (by decide)
    keyTemplate := (nonEmptyField config "key").getD "$remote_addr"
    group := nonEmptyField config "group"
    rejectedCode :=
      (((config["rejected_code"]?.bind Json.asU64).filter fun n => 200 ≤ n ∧ n ≤ 599).map
        UInt64.toUInt16).getD 503
    rejectedMsg := nonEmptyField config "rejected_msg"
    showLimitQuotaHeader := (config["show_limit_quota_header"]?.bind Json.asBool).getD true
    allowDegradation := (config["allow_degradation"]?.bind Json.asBool).getD false
    store := store
  }

section Execute

variable [CaseMapping] [JsonText] [WholeSeconds] (plugin : LimitCountPlugin σ)

/-- The counter key of a request. -/
def resolveKey (ctx : Context) : String :=
  let rendered := Vars.interpolate ctx plugin.keyTemplate
  let key := if rendered = "" then Vars.interpolate ctx "$remote_addr" else rendered
  match plugin.group with
  | some group => group ++ ":" ++ key
  | none => key

/-- Writes the `X-RateLimit-*` headers onto the response. -/
def setQuotaHeaders (ctx : Context) (remaining reset : Nat) : Context :=
  if !plugin.showLimitQuotaHeader then ctx
  else
    let headers := ctx.response.headers
      |>.insert "x-ratelimit-limit" [toString plugin.count]
      |>.insert "x-ratelimit-remaining" [toString remaining]
      |>.insert "x-ratelimit-reset" [toString (WholeSeconds.ceilSecs reset)]
    { ctx with response := { ctx.response with headers := headers } }

/-- A rejection through the error port: status, JSON body, code and message. -/
def rejectWith (ctx : Context) (status : UInt16) (body code message : String) : PluginResult :=
  .error {
    context := { ctx with response := {
      statusCode := status
      headers := ctx.response.headers.insert "content-type" ["application/json"]
      body := asBytes body } }
    error := { nodeId := "", code := code, message := message, metadata := ∅ } }

/-- What the node answers, given what the store reported. -/
def respond (ctx : Context) : Except CounterError WindowResult → PluginResult
  | .error _ =>
    if plugin.allowDegradation then .ok { context := ctx, namedOutputs := ∅ }
    else rejectWith ctx 500 "\x7b\"error_msg\": \"failed to limit count\"\x7d"
      "RATE_LIMIT_UNAVAILABLE" "failed to limit count"
  | .ok result =>
    if result.allowed then
      .ok { context := plugin.setQuotaHeaders ctx result.remaining result.reset, namedOutputs := ∅ }
    else
      let ctx := plugin.setQuotaHeaders ctx 0 result.reset
      let msg := plugin.rejectedMsg.getD "Requests over the limit"
      rejectWith ctx plugin.rejectedCode (JsonText.toText (.object [("error_msg", .string msg)]))
        "RATE_LIMITED" msg

omit [CaseMapping] in
/-- A counted request goes on through the success port iff it was allowed. -/
theorem respond_isOk (ctx : Context) (result : WindowResult) :
    (plugin.respond ctx (.ok result)).isOk = result.allowed := by
  unfold respond
  dsimp only
  cases result.allowed <;> rfl

/-- The request is counted under its key. -/
def charge (ctx : Context) (now : Nat) (counters : σ) : Except CounterError WindowResult × σ :=
  plugin.store.incrFixedWindow counters now (plugin.resolveKey ctx) plugin.count plugin.window

def execute (ctx : Context) (now : Nat) (counters : σ) : PluginResult × σ :=
  let (result, counters) := plugin.charge ctx now counters
  (plugin.respond ctx result, counters)

/-- As a node of the graph: its world is the clock and the counters. -/
def toPlugin : Plugin (Nat × σ) where
  pluginType := "limit-count"
  execute ctx _ world :=
    let (result, counters) := plugin.execute ctx world.1 world.2
    (result, world.1, counters)

theorem toPlugin_keepsErrors : plugin.toPlugin.KeepsErrors := by
  intro ctx inputs world
  have hquota : ∀ remaining reset, (plugin.setQuotaHeaders ctx remaining reset).errors = ctx.errors := by
    intro remaining reset
    unfold setQuotaHeaders
    split <;> rfl
  change (PluginResult.context (plugin.respond ctx _)).errors = ctx.errors
  unfold respond
  split
  · split <;> rfl
  · split
    · exact hquota _ _
    · exact hquota 0 _

end Execute

/-- Every node counts in the in-memory store: the registry has no other backend. -/
theorem store_of_fromConfig {config : HashMap Json} {plugin : LimitCountPlugin LocalCounterStore}
    (h : fromConfig config .default = .ok plugin) : plugin.store = localCounterStore := by
  obtain ⟨count, -, h⟩ := TryFold.bind_eq_ok.mp h
  obtain ⟨timeWindow, -, h⟩ := TryFold.bind_eq_ok.mp h
  obtain ⟨store, hstore, h⟩ := TryFold.bind_eq_ok.mp h
  obtain rfl := Except.ok.inj h
  exact CounterStoreRegistry.get_default hstore

end LimitCountPlugin

end Featherbit
