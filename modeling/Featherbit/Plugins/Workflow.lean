/-
  THE `workflow` NODE (`plugins/native/workflow.rs`): rules in order, the first that matches acts.

  A rule rejects the request, or counts it in the store that all nodes of the gateway share.  What
  keeps two rules from counting together is the name of their counters: each node that is loaded
  draws a number from a sequence of the process, and a counter is named by this number, the place
  of the rule, and the rendered key.

  1. **Names** (`counterKey_inj`) — no two of these triples have one name, though the key may be
     any text: neither number has the separator in it.

  2. **Numbers** (`loadAll_numbers`) — nodes that are loaded one after another get different
     numbers, as long as the sequence does not come round.

  3. **One counter** (`serve_mine`, `serve_other`) — a visit either goes to a given counter and
     counts there, or leaves it as it is; so what the rule answers there is what the window of this
     counter alone says (`workflow_counts_alone`).
-/
import Featherbit.Lib.Split
import Featherbit.Lib.TryFold
import Featherbit.Plugins
import Featherbit.Plugins.FaultInjection
import Featherbit.RateLimit.FixedWindow
import Featherbit.Vars.Expr

namespace Featherbit

/-! ## The node -/

/-- `LimitCount`. -/
structure WorkflowLimit (σ : Type) where
  count : Nat
  count_pos : 0 < count
  timeWindow : Nat
  /-- `$var` template rendered into the counter key -/
  keyTemplate : String
  rejectedCode : UInt16
  rejectedMsg : Option String
  /-- what tells the counters of this rule from those of any other -/
  counterPrefix : String
  store : CounterStore σ

/-- `Action`. -/
inductive WorkflowAction (σ : Type) where
  | return (code : UInt16)
  | limitCount (limit : WorkflowLimit σ)

section

variable [RegexEngine]

/-- `Rule`: with no case it matches every request. -/
structure WorkflowRule (σ : Type) where
  caseExpr : Option Expr
  action : WorkflowAction σ

structure WorkflowPlugin (σ : Type) where
  rules : List (WorkflowRule σ)

end

namespace Workflow

variable {σ : Type}

/-- How a node comes not to be built. -/
inductive LoadFault where
  | refused (message : String)
  /-- the window is longer than any `Duration` -/
  | panicked

/-- `ok_or`. -/
def require {α : Type} (value : Option α) (message : String) : Except LoadFault α :=
  match value with
  | some a => .ok a
  | none => .error (.refused message)

/-- `rules[idx]`. -/
def ruleName (idx : Nat) : String := "rules[" ++ showNat idx ++ "]"

/-- `workflow:{instance}:{idx}`. -/
def counterPrefix (instanceNo : UInt64) (idx : Nat) : String :=
  "workflow:" ++ showNat instanceNo.toNat ++ ":" ++ showNat idx

section Config

variable [JsonText] [F64Display] [RegexEngine] [IpNetParser] [SecsF64]

/-- The parameters of `return`. -/
def parseReturn (idx : Nat) (params : List (String × Json)) :
    Except LoadFault (WorkflowAction σ) := do
  let code ← require
    (((params.lookup "code").bind Json.asU64).filter fun c => 100 ≤ c ∧ c ≤ 599)
    (ruleName idx ++ ": 'return' action requires 'code' (100-599)")
  return .return code.toUInt16

/-- `as_f64`, if it is above zero and finite: of a double the encoding tells. -/
def positiveSecs : Json → Option Float
  | .number (.posInt n) => if 0 < n then some (Float.ofNat n.toNat) else none
  | .number (.float x) => if 0 < x.bits ∧ x.bits < 0x7FF0000000000000 then some x.toFloat else none
  | _ => none

/-- `Duration::from_secs_f64`, in nanoseconds. -/
def toDuration (secs : Float) : Except LoadFault Nat :=
  match SecsF64.fromSecsF64 secs with
  | some window => .ok window
  | none => .error .panicked

/-- A parameter that may be absent but must be well formed if it is there. -/
def optional {α : Type} (params : List (String × Json)) (name : String) (read : Json → Option α)
    (message : String) : Except LoadFault (Option α) :=
  match params.lookup name with
  | none => .ok none
  | some v => (require (read v) message).map some

/-- The parameters of `limit-count`. -/
def parseLimitCount (counters : CounterStoreRegistry σ) (instanceNo : UInt64) (idx : Nat)
    (params : List (String × Json)) : Except LoadFault (WorkflowAction σ) := do
  let count : { n : UInt64 // 0 < n } ← require
    (((params.lookup "count").bind Json.asU64).bind fun c => if h : 0 < c then some ⟨c, h⟩ else none)
    (ruleName idx ++ ": 'limit-count' requires 'count' (integer > 0)")
  let secs ← require ((params.lookup "time_window").bind positiveSecs)
    (ruleName idx ++ ": 'limit-count' requires 'time_window' (seconds > 0)")
  let keyTemplate ← optional params "key" Json.asStr (ruleName idx ++ ": 'key' must be a string")
  let rejectedCode ← optional params "rejected_code"
    (fun v => v.asU64.filter fun c => 200 ≤ c ∧ c ≤ 599)
    (ruleName idx ++ ": 'rejected_code' must be an integer 200-599")
  let rejectedMsg ← optional params "rejected_msg" Json.asStr
    (ruleName idx ++ ": 'rejected_msg' must be a string")
  let store ← (counters.get (((params.lookup "policy").bind Json.asStr).getD "local")).mapError
    .refused
  let timeWindow ← toDuration secs
  return .limitCount {
    count := count.val.toNat
    count_pos := UInt64.lt_iff_toNat_lt.mp count.2
    timeWindow
    keyTemplate := keyTemplate.getD "$remote_addr"
    rejectedCode := (rejectedCode.getD 503).toUInt16
    rejectedMsg
    counterPrefix := counterPrefix instanceNo idx
    store }

/-- The name of the action and its parameters; what comes after the first action is not read. -/
def parseCall (idx : Nat) (fields : List (String × Json)) :
    Except LoadFault (String × List (String × Json)) := do
  let actions ← require
    (((fields.lookup "actions").bind Json.asArray).bind List.head?)
    (ruleName idx ++ " requires a non-empty 'actions' array")
  let call ← require (actions.asArray.bind fun call => call.head?.map fun first => (first, call))
    (ruleName idx ++ ".actions[0] must be a non-empty array")
  let name ← require call.1.asStr (ruleName idx ++ ": action name must be a string")
  match call.2[1]? with
  | none => return (name, [])
  | some v =>
    let params ← require v.asObject
      (ruleName idx ++ ": '" ++ name ++ "' action params must be an object")
    return (name, params)

def parseAction (counters : CounterStoreRegistry σ) (instanceNo : UInt64) (idx : Nat)
    (fields : List (String × Json)) : Except LoadFault (WorkflowAction σ) := do
  let call ← parseCall idx fields
  match call.1 with
  | "return" => parseReturn idx call.2
  | "limit-count" => parseLimitCount counters instanceNo idx call.2
  | other => throw (.refused (ruleName idx ++ ": unsupported action: " ++ other ++
      " — supported: return, limit-count"))

/-- The condition of a rule. -/
def parseCase (idx : Nat) (fields : List (String × Json)) : Except LoadFault (Option Expr) :=
  match fields.lookup "case" with
  | none => .ok none
  | some v =>
    match Expr.parse v with
    | .ok e => .ok (some e)
    | .error e => .error (.refused (ruleName idx ++ ".case: " ++ e))

def parseRule (counters : CounterStoreRegistry σ) (instanceNo : UInt64) (idx : Nat) (raw : Json) :
    Except LoadFault (WorkflowRule σ) := do
  let fields ← require raw.asObject (ruleName idx ++ " must be an object")
  let caseExpr ← parseCase idx fields
  let action ← parseAction counters instanceNo idx fields
  return { caseExpr, action }

/-- The rules from the one at `idx` on. -/
def parseRules (counters : CounterStoreRegistry σ) (instanceNo : UInt64) :
    Nat → List Json → Except LoadFault (List (WorkflowRule σ))
  | _, [] => .ok []
  | idx, raw :: rest => do
    let rule ← parseRule counters instanceNo idx raw
    let rules ← parseRules counters instanceNo (idx + 1) rest
    return rule :: rules

/-- `WorkflowPlugin::from_config`, with `INSTANCE_SEQ` before and after: a number is drawn once
    there are rules, and is gone when one of them turns out to be malformed. -/
def fromConfig (counters : CounterStoreRegistry σ) (config : HashMap Json) (seq : UInt64) :
    Except LoadFault (WorkflowPlugin σ) × UInt64 :=
  match config["rules"]?.bind Json.asArray with
  | none => (.error (.refused "workflow requires a 'rules' array"), seq)
  | some [] => (.error (.refused "workflow 'rules' must not be empty"), seq)
  | some rawRules => ((parseRules counters seq 0 rawRules).map fun rules => { rules }, seq + 1)

/-- The nodes that are built in the life of a process, from the configurations it meets. -/
def loadAll (counters : CounterStoreRegistry σ) :
    List (HashMap Json) → UInt64 → List (WorkflowPlugin σ)
  | [], _ => []
  | config :: configs, seq =>
    match fromConfig counters config seq with
    | (.ok plugin, seq) => plugin :: loadAll counters configs seq
    | (.error _, seq) => loadAll counters configs seq

end Config

/-! ### A request -/

section Execute

variable [CaseMapping] [JsonText] [RegexEngine]

/-- `Self::reject`. -/
def reject (ctx : Context) (status : UInt16) (body : Bytes) (code message : String) : PluginResult :=
  .error {
    context := { ctx with response := {
      statusCode := status
      headers := ctx.response.headers.insert "content-type" ["application/json"]
      body := body } }
    error := { nodeId := "", code := code, message := message, metadata := ∅ } }

/-- `set_quota_headers`: the seconds are cut off. -/
def setQuotaHeaders (ctx : Context) (window : WindowResult) : Context :=
  let headers := ctx.response.headers
    |>.insert "x-ratelimit-limit" [showNat window.limit]
    |>.insert "x-ratelimit-remaining" [showNat window.remaining]
    |>.insert "x-ratelimit-reset" [showNat (window.reset / 1000000000)]
  { ctx with response := { ctx.response with headers := headers } }

/-- The counter of a request. -/
def counterKey (limit : WorkflowLimit σ) (ctx : Context) : String :=
  limit.counterPrefix ++ ":" ++ Vars.interpolate ctx limit.keyTemplate

/-- What a rule answers, given what the store reported. -/
def respond (limit : WorkflowLimit σ) (ctx : Context) :
    Except CounterError WindowResult → PluginResult
  | .error e =>
    reject ctx 500 (asBytes "\x7b\"error_msg\":\"rate limit backend error\"\x7d")
      "RATE_LIMIT_ERROR" ("counter store error: " ++ e.reason)
  | .ok window =>
    let ctx := setQuotaHeaders ctx window
    if window.allowed then .ok { context := ctx, namedOutputs := ∅ }
    else
      let body := match limit.rejectedMsg with
        | some msg => asBytes (JsonText.toText (.object [("error_msg", .string msg)]))
        | none => []
      reject ctx limit.rejectedCode body "RATE_LIMITED" "rejected by workflow limit-count"

/-- A rule acts. -/
def act (action : WorkflowAction σ) (ctx : Context) (now : Nat) (counters : σ) : PluginResult × σ :=
  match action with
  | .return code =>
    (reject ctx code (asBytes "\x7b\"error_msg\":\"rejected by workflow\"\x7d")
      "WORKFLOW_REJECTED" "rejected by workflow", counters)
  | .limitCount limit =>
    let (result, counters) := limit.store.incrFixedWindow counters now (counterKey limit ctx)
      limit.count limit.timeWindow
    (respond limit ctx result, counters)

/-- The rule's case holds. -/
def matched (rule : WorkflowRule σ) (ctx : Context) : Bool :=
  match rule.caseExpr with
  | none => true
  | some e => e.eval ctx

/-- The rules in order: the first whose case holds acts. -/
def runRules (ctx : Context) (now : Nat) (counters : σ) : List (WorkflowRule σ) → PluginResult × σ
  | [] => (.ok { context := ctx, namedOutputs := ∅ }, counters)
  | rule :: rules =>
    if !matched rule ctx then runRules ctx now counters rules
    else act rule.action ctx now counters

/-- `WorkflowPlugin::execute`. -/
def execute (plugin : WorkflowPlugin σ) (ctx : Context) (now : Nat) (counters : σ) :
    PluginResult × σ :=
  runRules ctx now counters plugin.rules

/-- The rule that a request comes to. -/
def chosen (plugin : WorkflowPlugin σ) (ctx : Context) : Option Nat :=
  plugin.rules.findIdx? fun rule => matched rule ctx

variable {ctx : Context} {now : Nat} {counters : σ}

/-- The chosen rule acts, and no other. -/
theorem runRules_eq (rules : List (WorkflowRule σ)) :
    runRules ctx now counters rules =
      match rules.findIdx? (fun rule => matched rule ctx) with
      | none => (.ok { context := ctx, namedOutputs := ∅ }, counters)
      | some r =>
        match rules[r]? with
        | none => (.ok { context := ctx, namedOutputs := ∅ }, counters)
        | some rule => act rule.action ctx now counters := by
  induction rules with
  | nil => rfl
  | cons rule rules ih =>
    rw [runRules, List.findIdx?_cons]
    cases matched rule ctx with
    | true => rfl
    | false =>
      rw [Bool.not_false, if_pos rfl, ih, if_neg Bool.false_ne_true]
      cases rules.findIdx? fun rule => matched rule ctx with
      | none => rfl
      | some r => rfl

theorem execute_of_chosen {plugin : WorkflowPlugin σ} {r : Nat} {rule : WorkflowRule σ}
    (h : chosen plugin ctx = some r) (hrule : plugin.rules[r]? = some rule) :
    execute plugin ctx now counters = act rule.action ctx now counters := by
  rw [execute, runRules_eq]
  rw [chosen] at h
  rw [h]
  dsimp only
  rw [hrule]

/-- A request that no rule wants counts nowhere. -/
theorem execute_of_not_chosen {plugin : WorkflowPlugin σ} (h : chosen plugin ctx = none) :
    execute plugin ctx now counters = (.ok { context := ctx, namedOutputs := ∅ }, counters) := by
  rw [execute, runRules_eq]
  rw [chosen] at h
  rw [h]

theorem exists_of_chosen {plugin : WorkflowPlugin σ} {r : Nat} (h : chosen plugin ctx = some r) :
    ∃ rule, plugin.rules[r]? = some rule := by
  obtain ⟨hr, -⟩ := List.findIdx?_eq_some_iff_getElem.mp h
  exact ⟨_, List.getElem?_eq_getElem hr⟩

end Execute

/-! ## The names of the counters -/

section Names

/-- A text without the separator is cut off at the first one. -/
theorem eq_of_separated {x x' y y' : List Char} (hx : ':' ∉ x) (hx' : ':' ∉ x')
    (h : x ++ ':' :: y = x' ++ ':' :: y') : x = x' ∧ y = y' := by
  have hcut := congrArg (Split.splitOnce ':') h
  rw [Split.splitOnce_append hx, Split.splitOnce_append hx', Option.some.injEq, Prod.mk.injEq] at hcut
  exact hcut

/-- **Names.**  The number of the node, the place of the rule and the key are read off a name. -/
theorem counterKey_inj {m n : UInt64} {r s : Nat} {text text' : String}
    (h : counterPrefix m r ++ ":" ++ text = counterPrefix n s ++ ":" ++ text') :
    m = n ∧ r = s ∧ text = text' := by
  have hspelled : ∀ (k : UInt64) (i : Nat) (t : String), (counterPrefix k i ++ ":" ++ t).toList =
      "workflow:".toList ++ ((showNat k.toNat).toList ++ ':' :: ((showNat i).toList ++ ':' :: t.toList)) := by
    intro k i t
    simp only [counterPrefix, String.toList_append, List.append_assoc]
    rfl
  have hlist := congrArg String.toList h
  rw [hspelled, hspelled] at hlist
  have hdigits : ∀ i, ':' ∉ (showNat i).toList := not_mem_showNat (by decide)
  obtain ⟨hnode, hrest⟩ := eq_of_separated (hdigits _) (hdigits _) (List.append_cancel_left hlist)
  obtain ⟨hrule, htext⟩ := eq_of_separated (hdigits _) (hdigits _) hrest
  refine ⟨UInt64.toNat_inj.mp ?_, showNat_inj.mp (String.toList_inj.mp hrule), String.toList_inj.mp htext⟩
  exact showNat_inj.mp (String.toList_inj.mp hnode)

theorem prefix_counterKey (n : UInt64) (r : Nat) (text : String) :
    "workflow:".toList <+: (counterPrefix n r ++ ":" ++ text).toList := by
  simp only [counterPrefix, String.toList_append, List.append_assoc]
  exact List.prefix_append _ _

end Names

/-! ## The numbers of the nodes -/

section Numbers

variable {counters : CounterStoreRegistry σ} {instanceNo : UInt64} [SecsF64]

theorem parseLimitCount_spec {idx : Nat} {params : List (String × Json)} {action : WorkflowAction σ}
    (h : parseLimitCount counters instanceNo idx params = .ok action) :
    ∃ limit policy, action = .limitCount limit ∧ limit.counterPrefix = counterPrefix instanceNo idx ∧
      counters.get policy = .ok limit.store := by
  obtain ⟨count, -, h⟩ := TryFold.bind_eq_ok.mp h
  obtain ⟨secs, -, h⟩ := TryFold.bind_eq_ok.mp h
  obtain ⟨keyTemplate, -, h⟩ := TryFold.bind_eq_ok.mp h
  obtain ⟨rejectedCode, -, h⟩ := TryFold.bind_eq_ok.mp h
  obtain ⟨rejectedMsg, -, h⟩ := TryFold.bind_eq_ok.mp h
  obtain ⟨store, hstore, h⟩ := TryFold.bind_eq_ok.mp h
  obtain ⟨timeWindow, -, h⟩ := TryFold.bind_eq_ok.mp h
  obtain rfl := Except.ok.inj h
  refine ⟨_, ((params.lookup "policy").bind Json.asStr).getD "local", rfl, rfl, ?_⟩
  cases hget : counters.get (((params.lookup "policy").bind Json.asStr).getD "local") with
  | error message =>
    rw [hget] at hstore
    cases hstore
  | ok found =>
    rw [hget] at hstore
    have hfound : (Except.ok found : Except LoadFault (CounterStore σ)) = .ok store := hstore
    rw [Except.ok.inj hfound]

variable [RegexEngine]

/-- The node counts under this number, in stores of the registry. -/
def Numbered (counters : CounterStoreRegistry σ) (instanceNo : UInt64) (plugin : WorkflowPlugin σ) :
    Prop :=
  ∀ (r : Nat) rule limit, plugin.rules[r]? = some rule → rule.action = .limitCount limit →
    limit.counterPrefix = counterPrefix instanceNo r ∧ ∃ policy, counters.get policy = .ok limit.store

variable [JsonText] [F64Display] [IpNetParser]

theorem parseRule_spec {idx : Nat} {raw : Json} {rule : WorkflowRule σ} {limit : WorkflowLimit σ}
    (h : parseRule counters instanceNo idx raw = .ok rule) (haction : rule.action = .limitCount limit) :
    limit.counterPrefix = counterPrefix instanceNo idx ∧
      ∃ policy, counters.get policy = .ok limit.store := by
  obtain ⟨fields, -, h⟩ := TryFold.bind_eq_ok.mp h
  obtain ⟨caseExpr, -, h⟩ := TryFold.bind_eq_ok.mp h
  obtain ⟨action, hparse, h⟩ := TryFold.bind_eq_ok.mp h
  obtain rfl := Except.ok.inj h
  obtain ⟨call, -, hparse⟩ := TryFold.bind_eq_ok.mp hparse
  dsimp only at haction hparse
  split at hparse
  · obtain ⟨code, -, hparse⟩ := TryFold.bind_eq_ok.mp hparse
    obtain rfl := Except.ok.inj hparse
    cases haction
  · obtain ⟨limit', policy, rfl, hkeyed, hstore⟩ := parseLimitCount_spec hparse
    obtain rfl := WorkflowAction.limitCount.inj haction
    exact ⟨hkeyed, policy, hstore⟩
  · cases hparse

/-- Each rule has the number, and its own place. -/
theorem parseRules_spec : ∀ {raws : List Json} {idx : Nat} {rules : List (WorkflowRule σ)},
    parseRules counters instanceNo idx raws = .ok rules →
    ∀ (r : Nat) rule limit, rules[r]? = some rule → rule.action = .limitCount limit →
      limit.counterPrefix = counterPrefix instanceNo (idx + r) ∧
        ∃ policy, counters.get policy = .ok limit.store := by
  intro raws
  induction raws with
  | nil =>
    intro idx rules h r rule limit hr
    obtain rfl := Except.ok.inj h
    cases hr
  | cons raw raws ih =>
    intro idx rules h r rule limit hr haction
    obtain ⟨first, hfirst, h⟩ := TryFold.bind_eq_ok.mp h
    obtain ⟨rest, hrest, h⟩ := TryFold.bind_eq_ok.mp h
    obtain rfl := Except.ok.inj h
    cases r with
    | zero =>
      obtain rfl := Option.some.inj hr
      exact parseRule_spec hfirst haction
    | succ r =>
      have hlater := ih hrest r rule limit hr haction
      rwa [Nat.add_assoc, Nat.add_comm 1 r] at hlater

/-- A node that is built has drawn its number; one that is not may have. -/
theorem fromConfig_numbers (counters : CounterStoreRegistry σ) (config : HashMap Json) (seq : UInt64) :
    (∃ plugin, fromConfig counters config seq = (.ok plugin, seq + 1) ∧
      Numbered counters seq plugin) ∨
    ∃ fault drawn, fromConfig counters config seq = (.error fault, seq + drawn) ∧
      (drawn = 0 ∨ drawn = 1) := by
  have hseq : seq = seq + 0 := (UInt64.add_zero seq).symm
  unfold fromConfig
  split
  · exact Or.inr ⟨_, 0, congrArg _ hseq, Or.inl rfl⟩
  · exact Or.inr ⟨_, 0, congrArg _ hseq, Or.inl rfl⟩
  · rename_i raws _ _
    cases hrules : parseRules counters seq 0 raws with
    | error fault => exact Or.inr ⟨fault, 1, rfl, Or.inr rfl⟩
    | ok rules =>
      refine Or.inl ⟨⟨rules⟩, rfl, fun r rule limit hr haction => ?_⟩
      have hrule := parseRules_spec hrules r rule limit hr haction
      rwa [Nat.zero_add] at hrule

/-- **Numbers.**  Every node has a number of the sequence, and a later node a later one. -/
theorem loadAll_numbers (counters : CounterStoreRegistry σ) :
    ∀ (configs : List (HashMap Json)) (seq : UInt64), ∃ draws : List Nat,
      draws.Pairwise (· < ·) ∧ (∀ k ∈ draws, k < configs.length) ∧
      List.Forall₂ (fun plugin k => Numbered counters (seq + UInt64.ofNat k) plugin)
        (loadAll counters configs seq) draws := by
  intro configs
  induction configs with
  | nil => exact fun seq => ⟨[], .nil, List.forall_mem_nil _, .nil⟩
  | cons config configs ih =>
    intro seq
    have hlater : ∀ drawn : UInt64, drawn = 0 ∨ drawn = 1 → ∃ d : Nat, d ≤ 1 ∧ drawn = UInt64.ofNat d := by
      rintro drawn (rfl | rfl)
      · exact ⟨0, by omega, rfl⟩
      · exact ⟨1, by omega, rfl⟩
    have hshift : ∀ d : Nat, d ≤ 1 → ∃ draws : List Nat, draws.Pairwise (· < ·) ∧
        (∀ k ∈ draws, d ≤ k ∧ k < configs.length + 1) ∧
        List.Forall₂ (fun plugin k => Numbered counters (seq + UInt64.ofNat k) plugin)
          (loadAll counters configs (seq + UInt64.ofNat d)) draws := by
      intro d hd
      obtain ⟨draws, hsorted, hbound, hnumbers⟩ := ih (seq + UInt64.ofNat d)
      refine ⟨draws.map (d + ·), List.pairwise_map.mpr (hsorted.imp fun h => by omega), ?_, ?_⟩
      · intro k hk
        obtain ⟨j, hj, rfl⟩ := List.mem_map.mp hk
        have hlt := hbound j hj
        omega
      · rw [List.forall₂_map_right_iff]
        refine hnumbers.imp fun plugin k hnumbered => ?_
        rwa [UInt64.ofNat_add, ← UInt64.add_assoc]
    rw [loadAll]
    rcases fromConfig_numbers counters config seq with ⟨plugin, hbuilt, hnumbered⟩ | ⟨fault, drawn, hbuilt, hdrawn⟩
    · obtain ⟨draws, hsorted, hbound, hnumbers⟩ := hshift 1 (Nat.le_refl 1)
      rw [hbuilt]
      refine ⟨0 :: draws, List.pairwise_cons.mpr ⟨fun k hk => (hbound k hk).1, hsorted⟩, ?_, ?_⟩
      · rintro k (_ | ⟨_, hk⟩)
        · exact Nat.succ_pos _
        · exact (hbound k hk).2
      · refine .cons ?_ hnumbers
        rwa [show seq + UInt64.ofNat 0 = seq from UInt64.add_zero seq]
    · obtain ⟨d, hd, rfl⟩ := hlater drawn hdrawn
      obtain ⟨draws, hsorted, hbound, hnumbers⟩ := hshift d hd
      rw [hbuilt]
      exact ⟨draws, hsorted, fun k hk => (hbound k hk).2, hnumbers⟩

end Numbers

/-! ## One counter among many -/

/-- What happens to the shared store: a request at one of the nodes, or a count by anyone else. -/
inductive Traffic where
  | node (place : Nat) (ctx : Context) (now : Nat)
  | other (key : String) (limit window now : Nat)

def Traffic.now : Traffic → Nat
  | .node _ _ now => now
  | .other _ _ _ now => now

section Run

variable [CaseMapping] [JsonText] [RegexEngine] (nodes : List (WorkflowPlugin LocalCounterStore))

def serve (counters : LocalCounterStore) : Traffic → Option PluginResult × LocalCounterStore
  | .node place ctx now =>
    match nodes[place]? with
    | none => (none, counters)
    | some plugin =>
      let (result, counters) := execute plugin ctx now counters
      (some result, counters)
  | .other key limit window now => (none, (counters.incrFixedWindow now key limit window).2)

/-- One after the other, each with its answer. -/
def serveAll : LocalCounterStore → List Traffic → List (Traffic × Option PluginResult)
  | _, [] => []
  | counters, visit :: traffic =>
    (visit, (serve nodes counters visit).1) :: serveAll (serve nodes counters visit).2 traffic

/-- The request is one for the counter of this rule under this key. -/
def countsAt (plugin : WorkflowPlugin LocalCounterStore) (place r : Nat)
    (limit : WorkflowLimit LocalCounterStore) (text : String) : Traffic → Bool
  | .node place' ctx _ =>
    decide (place' = place ∧ chosen plugin ctx = some r ∧ Vars.interpolate ctx limit.keyTemplate = text)
  | .other .. => false

/-- The answer to a request that was counted so. -/
def answered (limit : WorkflowLimit LocalCounterStore) : Traffic → Counted → Option PluginResult
  | .node _ ctx _, counted => some (respond limit ctx (.ok counted.result))
  | .other .., _ => none

variable {nodes} {plugin : WorkflowPlugin LocalCounterStore} {place r : Nat}
  {rule : WorkflowRule LocalCounterStore} {limit : WorkflowLimit LocalCounterStore} {text : String}
  {counters : LocalCounterStore} {visit : Traffic}

variable (counters) in
/-- One request for the counter. -/
theorem serve_mine (hplugin : nodes[place]? = some plugin) (hrule : plugin.rules[r]? = some rule)
    (haction : rule.action = .limitCount limit) (hstore : limit.store = localCounterStore)
    (hmine : countsAt plugin place r limit text visit = true) :
    ∃ result entry, countRequest limit.count limit.timeWindow visit.now
        counters[limit.counterPrefix ++ ":" ++ text]? = (result, entry) ∧
      serve nodes counters visit = (answered limit visit
        ⟨visit.now, counters[limit.counterPrefix ++ ":" ++ text]?, result, some entry⟩,
        counters.insert (limit.counterPrefix ++ ":" ++ text) entry) := by
  cases visit with
  | other key l w now => cases hmine
  | node place' ctx now =>
    obtain ⟨rfl, hchosen, rfl⟩ := of_decide_eq_true hmine
    refine ⟨_, _, rfl, ?_⟩
    rw [serve, hplugin]
    dsimp only
    rw [execute_of_chosen hchosen hrule, haction, act, hstore]
    rfl

/-- The counters of other rules have other names. -/
structure Apart (nodes : List (WorkflowPlugin LocalCounterStore)) (place r : Nat)
    (limit : WorkflowLimit LocalCounterStore) : Prop where
  stores : ∀ p ∈ nodes, ∀ rule ∈ p.rules, ∀ l, rule.action = .limitCount l → l.store = localCounterStore
  names : ∀ (place' r' : Nat) p rule l (text text' : String), nodes[place']? = some p →
    p.rules[r']? = some rule → rule.action = .limitCount l →
    l.counterPrefix ++ ":" ++ text' = limit.counterPrefix ++ ":" ++ text →
    place' = place ∧ r' = r ∧ text' = text

variable (counters) in
/-- Any other visit leaves it. -/
theorem serve_other (hplugin : nodes[place]? = some plugin) (hrule : plugin.rules[r]? = some rule)
    (haction : rule.action = .limitCount limit) (hapart : Apart nodes place r limit)
    (hkey : ∀ key l w now, visit = .other key l w now → key ≠ limit.counterPrefix ++ ":" ++ text)
    (hmine : countsAt plugin place r limit text visit = false) :
    (serve nodes counters visit).2[limit.counterPrefix ++ ":" ++ text]? =
      counters[limit.counterPrefix ++ ":" ++ text]? := by
  have hinsert : ∀ (key : String) (entry : WindowEntry), key ≠ limit.counterPrefix ++ ":" ++ text →
      (counters.insert key entry)[limit.counterPrefix ++ ":" ++ text]? =
        counters[limit.counterPrefix ++ ":" ++ text]? := by
    intro key entry hne
    rw [HashMap.get_insert, if_neg (fun h => hne h.symm)]
  cases visit with
  | other key l w now => exact hinsert key _ (hkey key l w now rfl)
  | node place' ctx now =>
    rw [serve]
    cases hnode : nodes[place']? with
    | none => rfl
    | some p =>
      dsimp only
      cases hchosen : chosen p ctx with
      | none => rw [execute_of_not_chosen hchosen]
      | some r' =>
        obtain ⟨rule', hrule'⟩ := exists_of_chosen hchosen
        rw [execute_of_chosen hchosen hrule']
        cases haction' : rule'.action with
        | «return» code => rfl
        | limitCount l =>
          have hl := hapart.stores p (List.mem_of_getElem? hnode) rule' (List.mem_of_getElem? hrule') l haction'
          rw [act, hl]
          refine hinsert (counterKey l ctx) _ fun hsame => ?_
          obtain ⟨rfl, rfl, htext⟩ := hapart.names place' r' p rule' l text _ hnode hrule' haction' hsame
          -- the same node, rule and key: then the request was one for this counter
          obtain rfl := Option.some.inj (hplugin.symm.trans hnode)
          obtain rfl := Option.some.inj (hrule.symm.trans hrule')
          obtain rfl := WorkflowAction.limitCount.inj (haction.symm.trans haction')
          exact of_decide_eq_false hmine ⟨rfl, hchosen, htext⟩

variable (limit text) in
/-- The answers for a counter are those of its own window, from the entry it starts with. -/
theorem serveAll_mine (hplugin : nodes[place]? = some plugin) (hrule : plugin.rules[r]? = some rule)
    (haction : rule.action = .limitCount limit) (hapart : Apart nodes place r limit) :
    ∀ (traffic : List Traffic) (counters : LocalCounterStore),
      (∀ key l w now, .other key l w now ∈ traffic → key ≠ limit.counterPrefix ++ ":" ++ text) →
      (((serveAll nodes counters traffic).filter fun e => countsAt plugin place r limit text e.1).map
        fun e => e.2) =
      List.zipWith (answered limit) (traffic.filter (countsAt plugin place r limit text))
        (countedFrom limit.count limit.timeWindow counters[limit.counterPrefix ++ ":" ++ text]?
          ((traffic.filter (countsAt plugin place r limit text)).map Traffic.now)) := by
  have hstore : limit.store = localCounterStore :=
    hapart.stores plugin (List.mem_of_getElem? hplugin) rule (List.mem_of_getElem? hrule) limit haction
  intro traffic
  induction traffic with
  | nil => exact fun _ _ => rfl
  | cons visit traffic ih =>
    intro counters hothers
    have hrest := ih (serve nodes counters visit).2 fun key l w now hmem =>
      hothers key l w now (List.mem_cons_of_mem visit hmem)
    rw [serveAll]
    cases hmine : countsAt plugin place r limit text visit with
    | true =>
      obtain ⟨result, entry, hcount, hserve⟩ :=
        serve_mine counters hplugin hrule haction hstore hmine
      rw [List.filter_cons_of_pos (by exact hmine), List.filter_cons_of_pos hmine, List.map_cons,
        List.map_cons, hrest, hserve, countedFrom, hcount, List.zipWith_cons_cons]
      dsimp only
      rw [HashMap.get_insert, if_pos rfl]
    | false =>
      have hskip : ¬ countsAt plugin place r limit text visit = true := by
        rw [hmine]
        exact Bool.false_ne_true
      have hkept := serve_other counters hplugin hrule haction hapart
        (fun key l w now heq => hothers key l w now (heq ▸ List.mem_cons_self)) hmine
      rw [List.filter_cons_of_neg (by exact hskip), List.filter_cons_of_neg hskip, hrest, hkept]

end Run

section Loaded

variable [CaseMapping] [JsonText] [RegexEngine] [F64Display] [IpNetParser] [SecsF64]
  {configs : List (HashMap Json)} {seq : UInt64} {plugin : WorkflowPlugin LocalCounterStore}
  {place r : Nat} {rule : WorkflowRule LocalCounterStore} {limit : WorkflowLimit LocalCounterStore}

omit [CaseMapping] in
/-- Nodes with numbers of their own count apart, whatever their keys. -/
theorem apart_of_loadAll (hfew : configs.length ≤ 2 ^ 64)
    (hplugin : (loadAll .default configs seq)[place]? = some plugin)
    (hrule : plugin.rules[r]? = some rule) (haction : rule.action = .limitCount limit) :
    Apart (loadAll .default configs seq) place r limit ∧
      ∃ n, limit.counterPrefix = counterPrefix n r := by
  obtain ⟨draws, hsorted, hbound, hnumbers⟩ := loadAll_numbers .default configs seq
  have hdraw : ∀ (i : Nat) p, (loadAll CounterStoreRegistry.default configs seq)[i]? = some p →
      ∃ k, draws[i]? = some k ∧ Numbered .default (seq + UInt64.ofNat k) p := by
    intro i p hp
    obtain ⟨hi, rfl⟩ := List.getElem?_eq_some_iff.mp hp
    have hi' : i < draws.length := hnumbers.length_eq ▸ hi
    exact ⟨draws[i], List.getElem?_eq_getElem hi', hnumbers.get hi hi'⟩
  obtain ⟨k, hk, hnumbered⟩ := hdraw place plugin hplugin
  obtain ⟨hkeyed, -⟩ := hnumbered r rule limit hrule haction
  refine ⟨⟨fun p hp rule' hrule' l hl => ?_, fun place' r' p rule' l text text' hp hrule' hl hsame => ?_⟩,
    _, hkeyed⟩
  · obtain ⟨i, hi, rfl⟩ := List.getElem_of_mem hp
    obtain ⟨j, hj, rfl⟩ := List.getElem_of_mem hrule'
    obtain ⟨k', -, hnumbered'⟩ := hdraw i _ (List.getElem?_eq_getElem hi)
    obtain ⟨-, policy, hget⟩ := hnumbered' j _ l (List.getElem?_eq_getElem hj) hl
    exact CounterStoreRegistry.get_default hget
  · obtain ⟨k', hk', hnumbered'⟩ := hdraw place' p hp
    obtain ⟨hkeyed', -⟩ := hnumbered' r' rule' l hrule' hl
    rw [hkeyed, hkeyed'] at hsame
    obtain ⟨hnumber, hplace, htext⟩ := counterKey_inj hsame
    refine ⟨?_, hplace, htext⟩
    -- equal numbers were drawn at one point of the sequence
    have hlt := hbound k (List.mem_of_getElem? hk)
    have hlt' := hbound k' (List.mem_of_getElem? hk')
    have hsize : UInt64.size = 2 ^ 64 := rfl
    have hdraws : k' = k := by
      have hnat := congrArg UInt64.toNat ((UInt64.add_right_inj seq).mp hnumber)
      rwa [UInt64.toNat_ofNat_of_lt' (by omega), UInt64.toNat_ofNat_of_lt' (by omega)] at hnat
    have hnodup : draws.Nodup := hsorted.imp fun h => Nat.ne_of_lt h
    obtain ⟨hi, hik⟩ := List.getElem?_eq_some_iff.mp hk
    obtain ⟨hi', hik'⟩ := List.getElem?_eq_some_iff.mp hk'
    exact (hnodup.getElem_inj_iff).mp (hik'.trans (hdraws.trans hik.symm))

/-- **A rule counts alone.**  Whatever else goes through the `workflow` nodes of the process, and
    whatever others count under names of their own, the answers of a rule to the requests with one
    key are those of one fixed window that nobody else touches; and it keeps its law when the clock
    does not go back. -/
theorem workflow_counts_alone (hfew : configs.length ≤ 2 ^ 64)
    (hplugin : (loadAll .default configs seq)[place]? = some plugin)
    (hrule : plugin.rules[r]? = some rule) (haction : rule.action = .limitCount limit)
    (text : String) (traffic : List Traffic)
    (hothers : ∀ key l w now, .other key l w now ∈ traffic → ¬ "workflow:".toList <+: key.toList) :
    let mine := traffic.filter (countsAt plugin place r limit text)
    let run := countedFrom limit.count limit.timeWindow none (mine.map Traffic.now)
    (((serveAll (loadAll .default configs seq) ∅ traffic).filter fun e =>
      countsAt plugin place r limit text e.1).map fun e => e.2) = List.zipWith (answered limit) mine run ∧
    ((mine.map Traffic.now).Pairwise (· ≤ ·) → FixedWindowLaw limit.count limit.timeWindow run) := by
  obtain ⟨hapart, n, hkeyed⟩ := apart_of_loadAll hfew hplugin hrule haction
  intro mine run
  constructor
  · have hrun := serveAll_mine limit text hplugin hrule haction hapart traffic ∅ fun key l w now hmem hsame =>
      hothers key l w now hmem (by rw [hsame, hkeyed]; exact prefix_counterKey n r text)
    rw [Std.ExtTreeMap.getElem?_empty] at hrun
    exact hrun
  · intro hsorted
    have hlaw := fixed_window_bound "" limit.count limit.timeWindow hsorted
    rwa [counted_eq, Std.ExtTreeMap.getElem?_empty] at hlaw

end Loaded

/-- A rule for all requests: one a minute from each client. -/
def onePerMinuteRule : Json :=
  .object [("actions", .array [.array [.string "limit-count",
    .object [("count", .number (.posInt 1)), ("time_window", .number (.posInt 60))]]])]

/-- A node of this rule. -/
def onePerMinuteConfig : HashMap Json := (∅ : HashMap Json).insert "rules" (.array [onePerMinuteRule])

/-- Two such nodes: what goes through the other one does not use up the minute of the first. -/
theorem workflow_counts_alone_twins :
    let _ : CaseMapping := asciiCaseMapping
    let _ : JsonText := oneFieldText
    let _ : RegexEngine := Expr.noRegex
    let _ : IpNetParser := ⟨fun _ => none⟩
    let _ : F64Display := ⟨fun _ => "60"⟩
    let _ : SecsF64 := ⟨fun _ => some (durationFromSecs 60)⟩
    let nodes := loadAll .default [onePerMinuteConfig, onePerMinuteConfig] 0
    let ctx := Context.new default
    let text := Vars.interpolate ctx "$remote_addr"
    ∃ plugin limit, nodes[0]? = some plugin ∧ plugin.rules[0]? = some ⟨none, .limitCount limit⟩ ∧
      ((serveAll nodes ∅ [.node 1 ctx 0, .node 0 ctx 1]).filter fun e =>
        countsAt plugin 0 0 limit text e.1).map (fun e => e.2) =
      [some (respond limit ctx (.ok (countRequest 1 (durationFromSecs 60) 1 none).1))] := by
  intro _ _ _ _ _ _ nodes ctx text
  obtain ⟨plugin, hplugin⟩ : ∃ plugin, nodes[0]? = some plugin := ⟨_, rfl⟩
  obtain ⟨limit, hrule, hcount, hwindow, hkey⟩ : ∃ limit : WorkflowLimit LocalCounterStore,
      plugin.rules[0]? = some ⟨none, .limitCount limit⟩ ∧ limit.count = 1 ∧
        limit.timeWindow = durationFromSecs 60 ∧ limit.keyTemplate = "$remote_addr" := by
    obtain rfl := Option.some.inj hplugin
    exact ⟨_, rfl, rfl, rfl, rfl⟩
  have hchosen : chosen plugin ctx = some 0 := by
    obtain rfl := Option.some.inj hplugin
    rfl
  refine ⟨plugin, limit, hplugin, hrule, ?_⟩
  obtain ⟨hanswers, -⟩ := workflow_counts_alone (by decide) hplugin hrule rfl text
    [.node 1 ctx 0, .node 0 ctx 1] (by simp)
  have hmine : ([.node 1 ctx 0, .node 0 ctx 1] : List Traffic).filter (countsAt plugin 0 0 limit text) =
      [.node 0 ctx 1] := by
    have hfirst : countsAt plugin 0 0 limit text (.node 1 ctx 0) = false := rfl
    have hsecond : countsAt plugin 0 0 limit text (.node 0 ctx 1) = true :=
      decide_eq_true ⟨rfl, hchosen, by rw [hkey]⟩
    rw [List.filter_cons_of_neg (by rw [hfirst]; exact Bool.false_ne_true),
      List.filter_cons_of_pos hsecond, List.filter_nil]
  rw [hanswers, hmine, hcount, hwindow]
  rfl

end Workflow

end Featherbit
