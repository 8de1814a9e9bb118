/-
  THE `api-breaker` NODES (`plugins/native/api_breaker.rs`): a check node before the upstream asks
  the breaker, an observe node after it reports the status of the response.

  Each visit locks the breaker of the node's `id` once, so a visit is one step of that breaker and
  leaves every other one alone (`execute_breaker`).
-/
import Featherbit.Plugins
import Featherbit.Plugins.Pair
import Featherbit.Traffic.Breaker

namespace Featherbit

/-- `BreakerRegistry`: the breakers by id. -/
abbrev BreakerRegistry := HashMap BreakerState

/-- The breaker of an id, closed on first use. -/
def BreakerRegistry.breaker (breakers : BreakerRegistry) (id : String) : BreakerState :=
  breakers.getD id .closed

/-- Which half of the pair a node is. -/
inductive BreakerRole where
  | check
  | observe
deriving DecidableEq

/-- One node of an `api-breaker` pair. -/
structure ApiBreakerPlugin where
  role : BreakerRole
  id : String
  unhealthyStatuses : List UInt16
  /-- consecutive unhealthy responses before the breaker opens -/
  unhealthyFailures : UInt32
  healthyStatuses : List UInt16
  /-- consecutive healthy responses before the breaker fully closes -/
  healthySuccesses : UInt32
  breakBaseSec : UInt64
  maxBreakerSec : UInt64
  breakResponseCode : UInt16
  breakResponseBody : Option String

namespace ApiBreakerPlugin

def roleOf (config : HashMap Json) : Except String BreakerRole :=
  match phaseOrRole config with
  | some "check" => .ok .check
  | some "observe" => .ok .observe
  | some other => .error ("api-breaker: unknown phase/role '" ++ other ++
      "' (expected 'check' or 'observe')")
  | none => .error "api-breaker: 'phase' (or 'role') is required: 'check' or 'observe'"

def parseStatuses : Option Json → Except String (Option (List UInt16)) :=
  statusList {
    notArray := "http_statuses must be an array of integers"
    notInteger := "http_statuses entries must be integers"
    outOfRange := fun n => "http_statuses entry " ++ toString n ++ " is out of range (200-599)"
    empty := "http_statuses must not be empty" }

/-- `ApiBreakerPlugin::from_config`. -/
def fromConfig (config : HashMap Json) : Except String ApiBreakerPlugin := do
  let role ← roleOf config
  let id ← pairId config "api-breaker: 'id' is required (links the check/observe pair)"
  let unhealthy := config["unhealthy"]?
  let healthy := config["healthy"]?
  let unhealthyStatuses ← parseStatuses (unhealthy.bind (Json.get "http_statuses"))
  let healthyStatuses ← parseStatuses (healthy.bind (Json.get "http_statuses"))
  let unhealthyFailures := ((unhealthy.bind (Json.get "failures")).bind Json.asU64).getD 3
  if unhealthyFailures < 1 then .error "api-breaker: unhealthy.failures must be >= 1"
  let healthySuccesses := ((healthy.bind (Json.get "successes")).bind Json.asU64).getD 3
  if healthySuccesses < 1 then .error "api-breaker: healthy.successes must be >= 1"
  let breakResponseCode :=
    ((config["break_response_code"]?.bind Json.asU64).map UInt64.toUInt16).getD 502
  if ¬ (200 ≤ breakResponseCode ∧ breakResponseCode ≤ 599) then
    .error ("api-breaker: break_response_code " ++ toString breakResponseCode ++
      " is out of range (200-599)")
  let maxBreakerSec := (config["max_breaker_sec"]?.bind Json.asU64).getD 300
  if maxBreakerSec < 3 then .error "api-breaker: max_breaker_sec must be >= 3"
  return {
    role := role
    id := id
    unhealthyStatuses := unhealthyStatuses.getD [500]
    unhealthyFailures := unhealthyFailures.toUInt32
    healthyStatuses := healthyStatuses.getD [200]
    healthySuccesses := healthySuccesses.toUInt32
    breakBaseSec := max ((config["break_base_sec"]?.bind Json.asU64).getD 2) 1
    maxBreakerSec := maxBreakerSec
    breakResponseCode := breakResponseCode
    breakResponseBody := config["break_response_body"]?.bind Json.asStr }

section Execute

variable (plugin : ApiBreakerPlugin)

/-- The answer to a request while the breaker is open. -/
def reject (ctx : Context) : PluginResult :=
  .error {
    context := { ctx with response := { ctx.response with
      statusCode := plugin.breakResponseCode
      body := (plugin.breakResponseBody.map asBytes).getD ctx.response.body } }
    error := { nodeId := "", code := "API_BREAKER_OPEN", message := "Circuit breaker is open",
               metadata := ∅ } }

/-- `execute` at time `now`. -/
def execute (ctx : Context) (now : Nat) (breakers : BreakerRegistry) :
    PluginResult × BreakerRegistry :=
  let breaker := breakers.breaker plugin.id
  match plugin.role with
  | .check =>
    let (allowed, breaker) := breaker.allow now
    (if allowed then .ok { context := ctx, namedOutputs := ∅ } else plugin.reject ctx,
      breakers.insert plugin.id breaker)
  | .observe =>
    let status := ctx.response.statusCode
    let breaker :=
      if status ∈ plugin.unhealthyStatuses then
        breaker.recordUnhealthy now plugin.unhealthyFailures.toNat plugin.breakBaseSec.toNat
          plugin.maxBreakerSec.toNat
      else if status ∈ plugin.healthyStatuses then
        breaker.recordHealthy plugin.healthySuccesses.toNat
      else breaker
    (.ok { context := ctx, namedOutputs := ∅ }, breakers.insert plugin.id breaker)

/-- What a visit asks of the breaker; an observed status in neither list says nothing. -/
def call (ctx : Context) : Option BreakerCall :=
  match plugin.role with
  | .check => some .allow
  | .observe =>
    let status := ctx.response.statusCode
    if status ∈ plugin.unhealthyStatuses then
      some (.unhealthy plugin.unhealthyFailures.toNat plugin.breakBaseSec.toNat
        plugin.maxBreakerSec.toNat)
    else if status ∈ plugin.healthyStatuses then some (.healthy plugin.healthySuccesses.toNat)
    else none

variable {plugin} {ctx : Context} {now : Nat} {breakers : BreakerRegistry}

/-- What a visit does to the breaker of an id. -/
theorem execute_breaker (id : String) :
    BreakerRegistry.breaker (plugin.execute ctx now breakers).2 id =
      if plugin.id = id then ((plugin.call ctx).toList.map (now, ·)).foldl BreakerState.step
        (breakers.breaker id)
      else breakers.breaker id := by
  by_cases hid : plugin.id = id
  · subst hid
    rw [if_pos rfl]
    unfold execute call
    cases plugin.role with
    | check => simp [BreakerRegistry.breaker, BreakerState.step]
    | observe =>
      dsimp only
      split
      · simp [BreakerRegistry.breaker, BreakerState.step]
      · split <;> simp [BreakerRegistry.breaker, BreakerState.step]
  · have hother : ∀ breaker, BreakerRegistry.breaker (breakers.insert plugin.id breaker) id =
        breakers.breaker id := by
      intro breaker
      unfold BreakerRegistry.breaker
      rw [Std.ExtTreeMap.getD_insert, if_neg fun h => hid (Std.compare_eq_iff_eq.mp h)]
    rw [if_neg hid]
    unfold execute
    cases plugin.role with
    | check => exact hother _
    | observe => exact hother _

/-- A check lets the request through iff the breaker does. -/
theorem execute_check (h : plugin.role = .check) :
    (plugin.execute ctx now breakers).1.isOk = ((breakers.breaker plugin.id).allow now).1 := by
  unfold execute
  rw [h]
  dsimp only
  cases (BreakerState.allow _ now).1 <;> rfl

end Execute

end ApiBreakerPlugin

end Featherbit
