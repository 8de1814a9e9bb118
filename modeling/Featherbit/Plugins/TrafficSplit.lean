/-
  WEIGHTED RULES (`plugins/native/traffic_split.rs`, `plugins/native/traffic_label.rs`).

  A rule has weighted entries and a cursor.  The cursor's value modulo the total weight is a mark, and
  the entry is the first one whose weight, added to those before it, goes past the mark.

  1. **The pick** (`weightedPick`) is the slot the mark falls into (`weightedPick_eq`), as long as the
     weights add up to less than `2 ^ 64`: the total and the running sum are `u64`s, and a release build
     lets them wrap.
  2. **The law** (`Exact`): in as many picks as the total weight, every entry is picked as often as its
     weight says.  `weighted_exact_iff` says where it holds, for both plugins.

  What the condition language of a rule's `match` says is left open (`VarsExpr`).
-/
import Featherbit.Lib.CyclicCount
import Featherbit.Plugins.Upstream
import Featherbit.Vars

namespace Featherbit

/-- The condition expressions of `vars` (`Expr::parse`, `Expr::eval`). -/
class VarsExpr where
  Expr : Type
  parse : Json → Except String Expr
  eval : Expr → Context → Bool

/-! ## The pick -/

/-- The loop over the entries: the running sum goes past the mark. -/
def bucket (mark : UInt64) : UInt64 → List UInt64 → Option Nat
  | _, [] => none
  | acc, w :: weights =>
    if mark < acc + w then some 0 else (bucket mark (acc + w) weights).map (· + 1)

/-- The entry picked, the last one where the loop falls through. -/
def weightedPick (weights : List UInt64) (total cursor : UInt64) : Nat :=
  (bucket (cursor % total) 0 weights).getD (weights.length - 1)

/-- The weights, as numbers. -/
def widths (weights : List UInt64) : List Nat := weights.map UInt64.toNat

theorem bucket_lt {mark acc : UInt64} {weights : List UInt64} {idx : Nat}
    (h : bucket mark acc weights = some idx) : idx < weights.length := by
  induction weights generalizing acc idx with
  | nil => cases h
  | cons w weights ih =>
    unfold bucket at h
    split at h
    · rw [← Option.some.inj h]
      exact Nat.succ_pos _
    · obtain ⟨i, hi, rfl⟩ := Option.map_eq_some_iff.mp h
      exact Nat.succ_lt_succ (ih hi)

theorem weightedPick_lt {weights : List UInt64} (h : weights ≠ []) (total cursor : UInt64) :
    weightedPick weights total cursor < weights.length := by
  have hpos := List.length_pos_of_ne_nil h
  unfold weightedPick
  cases hbucket : bucket (cursor % total) 0 weights with
  | none => exact Nat.sub_one_lt_of_lt hpos
  | some idx => exact bucket_lt hbucket

/-- The total, summed up as the plugins do it. -/
theorem toNat_sum {weights : List UInt64} (h : (widths weights).sum < 2 ^ 64) :
    weights.sum.toNat = (widths weights).sum := by
  induction weights with
  | nil => rfl
  | cons w weights ih =>
    unfold widths at h ih ⊢
    rw [List.map_cons, List.sum_cons] at h
    rw [List.sum_cons, List.map_cons, List.sum_cons, UInt64.toNat_add, ih (by omega),
      Nat.mod_eq_of_lt h]

/-- The loop finds the slot of the mark. -/
theorem bucket_eq {mark acc : UInt64} {weights : List UInt64} (hacc : acc ≤ mark)
    (hmark : mark.toNat < acc.toNat + (widths weights).sum)
    (hfits : acc.toNat + (widths weights).sum < 2 ^ 64) :
    bucket mark acc weights = some (CyclicCount.slotAt (widths weights) (mark.toNat - acc.toNat)) := by
  induction weights generalizing acc with
  | nil =>
    have hle := UInt64.le_iff_toNat_le.mp hacc
    unfold widths at hmark
    rw [List.map_nil, List.sum_nil] at hmark
    omega
  | cons w weights ih =>
    have hle := UInt64.le_iff_toNat_le.mp hacc
    unfold widths at hmark hfits ih ⊢
    rw [List.map_cons, List.sum_cons] at hmark hfits
    have hsum : (acc + w).toNat = acc.toNat + w.toNat := by
      rw [UInt64.toNat_add]
      exact Nat.mod_eq_of_lt (by omega)
    unfold bucket
    show _ = some (if mark.toNat - acc.toNat < w.toNat then 0 else
      CyclicCount.slotAt (weights.map UInt64.toNat) (mark.toNat - acc.toNat - w.toNat) + 1)
    by_cases hhere : mark < acc + w
    · have hlt := UInt64.lt_iff_toNat_lt.mp hhere
      rw [if_pos hhere, if_pos (by omega)]
    · have hge : acc + w ≤ mark := UInt64.not_lt.mp hhere
      have hge' := UInt64.le_iff_toNat_le.mp hge
      rw [if_neg hhere, if_neg (by omega), ih hge (by omega) (by omega), hsum, Nat.sub_add_eq]
      rfl

/-- **The pick** is the slot of the mark. -/
theorem weightedPick_eq {weights : List UInt64} (hfits : (widths weights).sum < 2 ^ 64)
    (hpos : 0 < (widths weights).sum) (cursor : UInt64) :
    weightedPick weights weights.sum cursor =
      CyclicCount.slotAt (widths weights) (cursor.toNat % (widths weights).sum) := by
  have hmark : (cursor % weights.sum).toNat = cursor.toNat % (widths weights).sum := by
    rw [UInt64.toNat_mod, toNat_sum hfits]
  have hlt := Nat.mod_lt cursor.toNat hpos
  have hzero : (0 : UInt64).toNat = 0 := rfl
  unfold weightedPick
  rw [bucket_eq (UInt64.zero_le) (by omega) (by omega), Option.getD_some, hmark, hzero, Nat.sub_zero]

/-! ## The law -/

/-- Of a run of picks, as many as the total weight: every entry comes as often as its weight says, and
    the total weight is one. -/
def Exact (weights : List UInt64) (pick : Nat → Option Nat) : Prop :=
  (widths weights).sum < 2 ^ 64 ∧
    ∀ k (hk : k < weights.length),
      Nat.count (fun i => pick i = some k) (widths weights).sum = weights[k].toNat

/-- Where the law holds from a cursor on: the weights add up to a `u64`; and the run ends before the
    cursor wraps, or the total divides `2 ^ 64`, or no sum of the first few weights is strictly inside
    the stretch of that length that ends where the cursor does. -/
def ExactWhen (weights : List UInt64) (cursor : UInt64) : Prop :=
  (widths weights).sum < 2 ^ 64 ∧ CyclicCount.ExactFrom (2 ^ 64) (widths weights) cursor.toNat

instance (weights : List UInt64) (cursor : UInt64) : Decidable (ExactWhen weights cursor) := by
  unfold ExactWhen
  infer_instance

/-- The law, for anything that picks by weight and moves its cursor on. -/
theorem exact_iff {weights : List UInt64} (hpos : 0 < (widths weights).sum) (cursor : UInt64)
    {pick : Nat → Option Nat}
    (hpick : (widths weights).sum < 2 ^ 64 →
      ∀ i, pick i = some (weightedPick weights weights.sum (cursor + UInt64.ofNat i))) :
    Exact weights pick ↔ ExactWhen weights cursor := by
  unfold Exact ExactWhen
  refine and_congr_right fun hfits => ?_
  rw [← CyclicCount.exact_iff cursor.toNat_lt hpos hfits.le]
  have hcursor : ∀ i, (cursor + UInt64.ofNat i).toNat = (cursor.toNat + i) % 2 ^ 64 := by
    intro i
    rw [UInt64.toNat_add, UInt64.toNat_ofNat', Nat.add_mod_mod]
  have hcount : ∀ k, Nat.count (fun i => pick i = some k) (widths weights).sum =
      Nat.count (fun i => CyclicCount.slotAt (widths weights)
        ((cursor.toNat + i) % 2 ^ 64 % (widths weights).sum) = k) (widths weights).sum := by
    intro k
    refine CyclicCount.count_congr _ fun i _ => ?_
    rw [hpick hfits i, weightedPick_eq hfits hpos, hcursor i, Option.some.injEq]
  have hlength : (widths weights).length = weights.length := List.length_map _
  constructor
  · intro h k hk
    rw [← hcount k, h k (by omega)]
    exact (List.getElem_map _).symm
  · intro h k hk
    rw [hcount k, h k (by omega)]
    exact List.getElem_map _

/-- A state whose steps only move a cursor on. -/
theorem iterate_cursor {σ : Type} {advance : σ → σ} {atCursor : UInt64 → σ}
    (hadvance : ∀ cursor, advance (atCursor cursor) = atCursor (cursor + 1)) (i : Nat)
    (cursor : UInt64) : advance^[i] (atCursor cursor) = atCursor (cursor + UInt64.ofNat i) := by
  induction i with
  | zero =>
    show atCursor cursor = atCursor (cursor + 0)
    rw [UInt64.add_zero]
  | succ i ih =>
    rw [Function.iterate_succ_apply', ih, hadvance, UInt64.add_assoc, UInt64.ofNat_add]
    rfl

/-! ## The `traffic-split` node -/

namespace TrafficSplitPlugin

/-- Targets of a slot, one at least. -/
abbrev Targets := { targets : List Target // targets ≠ [] }

structure Slot where
  weight : UInt64
  /-- `none` is the default slot, the route's normal upstream -/
  targets : Option Targets
  /-- round-robin cursor within the target set -/
  targetCursor : UInt64

/-- A rule, with what `from_config` makes sure of. -/
structure Rule [VarsExpr] where
  /-- `none` matches all -/
  matcher : Option VarsExpr.Expr
  slots : List Slot
  totalWeight : UInt64
  /-- round-robin cursor for the selection between the slots -/
  cursor : UInt64
  totalWeight_eq : totalWeight = (slots.map Slot.weight).sum
  totalWeight_ne_zero : totalWeight ≠ 0

section Config

/-- `parse_targets`: entries without a host or a port are skipped. -/
def parseTargets (v : Json) (field : String) : Except String Targets :=
  match v.asObject with
  | none => .error (field ++ " must be an object")
  | some fields =>
    let listed := ((fields.lookup "targets").or (fields.lookup "nodes")).bind Json.asArray
    let targets := (listed.getD []).filterMap fun t => do
      let m ← t.asObject
      let host ← (← m.lookup "host").asStr
      let port ← (← m.lookup "port").asU64
      return { host := host, port := port.toUInt16 : Target }
    if h : targets = [] then
      .error (field ++ ".targets must contain at least one \x7bhost, port\x7d entry")
    else .ok ⟨targets, h⟩

/-- One weighted slot. -/
def parseSlot (field : String) (raw : Json) : Except String Slot := do
  match raw.asObject with
  | none => throw (field ++ " must be an object")
  | some fields =>
    let weight ← match fields.lookup "weight" with
      | none => pure 1
      | some v => match v.asU64 with
        | none => throw (field ++ ".weight must be a non-negative integer")
        | some weight => pure weight
    let targets ← match fields.lookup "upstream" with
      | none | some .null => pure none
      | some v => some <$> parseTargets v (field ++ ".upstream")
    return { weight := weight, targets := targets, targetCursor := 0 }

variable [VarsExpr]

/-- One rule. -/
def parseRule (field : String) (raw : Json) : Except String Rule := do
  match raw.asObject with
  | none => throw (field ++ " must be an object")
  | some fields =>
    let matcher ← match fields.lookup "match" with
      | none | some .null => pure none
      | some v => match VarsExpr.parse v with
        | .error e => throw (field ++ ".match: " ++ e)
        | .ok expr => pure (some expr)
    match ((fields.lookup "weighted_upstreams").bind Json.asArray).getD [] with
    | [] => throw (field ++ " requires a non-empty 'weighted_upstreams' array")
    | rawSlots =>
      let slots ← rawSlots.zipIdx.mapM fun (rawSlot, sidx) =>
        parseSlot (field ++ ".weighted_upstreams[" ++ showNat sidx ++ "]") rawSlot
      if h : (slots.map Slot.weight).sum = 0 then
        throw (field ++ " needs at least one weighted_upstream with weight > 0")
      else
        return {
          matcher := matcher
          slots := slots
          totalWeight := (slots.map Slot.weight).sum
          cursor := 0
          totalWeight_eq := rfl
          totalWeight_ne_zero := h }

end Config

end TrafficSplitPlugin

open TrafficSplitPlugin in
/-- A configured `traffic-split` node. -/
structure TrafficSplitPlugin [VarsExpr] where
  rules : List Rule
  /-- whole-call deadline per request the plugin proxies itself -/
  timeout : Nat

namespace TrafficSplitPlugin

variable [VarsExpr]

/-- `TrafficSplitPlugin::from_config`. -/
def fromConfig (config : HashMap Json) : Except String TrafficSplitPlugin := do
  match (config["rules"]?.bind Json.asArray).getD [] with
  | [] => throw "traffic-split requires a non-empty 'rules' array"
  | rawRules =>
    let rules ← rawRules.zipIdx.mapM fun (raw, idx) =>
      parseRule ("rules[" ++ showNat idx ++ "]") raw
    return {
      rules := rules
      timeout := ((config["timeout_ms"]?.bind Json.asU64).map UInt64.toNat).getD 60000 }

namespace Rule

variable (rule : Rule)

def weights : List UInt64 := rule.slots.map Slot.weight

/-- `Rule::pick_slot`: which slot. -/
def pickSlot : Nat := weightedPick rule.weights rule.totalWeight rule.cursor

/-- The cursor has moved on. -/
def advance : Rule := { rule with cursor := rule.cursor + 1 }

/-- The rule with another cursor. -/
def atCursor (cursor : UInt64) : Rule := { rule with cursor := cursor }

theorem weights_ne_nil : rule.weights ≠ [] := by
  intro h
  apply rule.totalWeight_ne_zero
  rw [rule.totalWeight_eq]
  show rule.weights.sum = 0
  rw [h]
  rfl

theorem pickSlot_lt : rule.pickSlot < rule.slots.length := by
  have hlt := weightedPick_lt rule.weights_ne_nil rule.totalWeight rule.cursor
  unfold weights at hlt
  rwa [List.length_map] at hlt

theorem weights_sum : rule.weights.sum = rule.totalWeight := rule.totalWeight_eq.symm

theorem advance_iterate (i : Nat) :
    Rule.advance^[i] rule = rule.atCursor (rule.cursor + UInt64.ofNat i) :=
  @iterate_cursor _ Rule.advance rule.atCursor (fun _ => rfl) i rule.cursor

/-- The slots of a run of picks. -/
def picks (i : Nat) : Option Nat := some (Rule.advance^[i] rule).pickSlot

theorem picks_eq (i : Nat) :
    rule.picks i = some (weightedPick rule.weights rule.weights.sum (rule.cursor + UInt64.ofNat i)) := by
  unfold picks
  rw [advance_iterate, weights_sum]
  rfl

/-- The total weight is a number of its own: the weights are not all zero. -/
theorem widths_pos : 0 < (widths rule.weights).sum := by
  rcases Nat.eq_zero_or_pos (widths rule.weights).sum with hzero | hpos
  · exfalso
    apply rule.totalWeight_ne_zero
    rw [← weights_sum, ← UInt64.toNat_inj, toNat_sum (by omega), hzero]
    rfl
  · exact hpos

end Rule

section Execute

/-- `Slot::pick_target`: the target cursor modulo the number of targets. -/
def Slot.pickTarget (slot : Slot) (targets : Targets) : Target :=
  targets.val.get ⟨slot.targetCursor.toNat % targets.val.length,
    Nat.mod_lt _ (List.length_pos_of_ne_nil targets.property)⟩

/-- The slot's target cursor has moved on. -/
def Slot.advanceTarget (slot : Slot) : Slot := { slot with targetCursor := slot.targetCursor + 1 }

omit [VarsExpr] in
theorem weights_advanceTarget (slots : List Slot) (idx : Nat) :
    (slots.modify idx Slot.advanceTarget).map Slot.weight = slots.map Slot.weight := by
  refine List.ext_getElem? fun k => ?_
  rw [List.getElem?_map, List.getElem?_map, List.getElem?_modify]
  cases slots[k]? with
  | none => rfl
  | some slot =>
    show some (if idx = k then slot.advanceTarget else slot).weight = some slot.weight
    split_ifs
    · rfl
    · rfl

/-- A target of the `idx`-th slot was taken. -/
def Rule.advanceTarget (rule : Rule) (idx : Nat) : Rule where
  matcher := rule.matcher
  slots := rule.slots.modify idx Slot.advanceTarget
  totalWeight := rule.totalWeight
  cursor := rule.cursor
  totalWeight_eq := by
    rw [weights_advanceTarget]
    exact rule.totalWeight_eq
  totalWeight_ne_zero := rule.totalWeight_ne_zero

def Rule.matches (rule : Rule) (ctx : Context) : Bool :=
  match rule.matcher with
  | none => true
  | some expr => VarsExpr.eval expr ctx

variable [MethodParser] [DurationText] (timeout : Nat) (client : OutboundClient) (ctx : Context)

/-- What the node does with a rule: the default slot lets the request through, a target slot proxies
    it. -/
def Rule.execute (rule : Rule) : PluginResult × Rule :=
  let slot := rule.slots.get ⟨rule.pickSlot, rule.pickSlot_lt⟩
  match slot.targets with
  | none => (.ok { context := ctx, namedOutputs := ∅ }, rule.advance)
  | some targets =>
    (executeSlot timeout (slot.pickTarget targets) client ctx,
      rule.advance.advanceTarget rule.pickSlot)

/-- The first rule that matches; without one the request goes through. -/
def executeRules : List Rule → PluginResult × List Rule
  | [] => (.ok { context := ctx, namedOutputs := ∅ }, [])
  | rule :: rules =>
    if rule.matches ctx then
      let (result, rule) := rule.execute timeout client ctx
      (result, rule :: rules)
    else
      let (result, rules) := executeRules rules
      (result, rule :: rules)

/-- `TrafficSplitPlugin::execute`. -/
def execute (plugin : TrafficSplitPlugin) : PluginResult × TrafficSplitPlugin :=
  let (result, rules) := executeRules plugin.timeout client ctx plugin.rules
  (result, { plugin with rules := rules })

/-- A request takes one pick of its rule. -/
theorem Rule.execute_advance (rule : Rule) (i : Nat) :
    (rule.execute timeout client ctx).2.picks i = rule.picks (i + 1) := by
  have hsame : ∀ rule' : Rule, rule'.weights = rule.weights → rule'.cursor = rule.cursor + 1 →
      rule'.picks i = rule.picks (i + 1) := by
    intro rule' hweights hcursor
    rw [picks_eq, picks_eq, hweights, hcursor, UInt64.add_assoc, UInt64.add_comm 1, UInt64.ofNat_add]
    rfl
  unfold Rule.execute
  dsimp only
  split
  · exact hsame _ rfl rfl
  · exact hsame _ (weights_advanceTarget rule.slots rule.pickSlot) rfl

end Execute

end TrafficSplitPlugin

/-! ## The `traffic-label` node -/

namespace TrafficLabelPlugin

/-- An action, whose weight is at least one. -/
structure ActionEntry where
  weight : UInt64
  /-- lowercased header name and value template, set on the request -/
  setHeaders : List (String × String)
  /-- label key and value template, written to `message["label.<key>"]` -/
  setLabels : List (String × String)
  weight_ne_zero : weight ≠ 0

/-- A rule, with what `from_config` makes sure of. -/
structure Rule [VarsExpr] where
  /-- `none` matches all -/
  matcher : Option VarsExpr.Expr
  actions : List ActionEntry
  totalWeight : UInt64
  /-- round-robin cursor for the selection between the actions -/
  cursor : UInt64
  actions_ne_nil : actions ≠ []
  totalWeight_eq : totalWeight = (actions.map ActionEntry.weight).sum

section Config

variable [JsonText]

/-- `parse_kv_object`: numbers and booleans as text. -/
def parseKvObject (v : Json) (field : String) : Except String (List (String × String)) :=
  match v.asObject with
  | none => .error (field ++ " must be an object of name: value")
  | some fields => fields.mapM fun (k, v) =>
    match v with
    | .string s => .ok (k, s)
    | .number n => .ok (k, JsonText.toText (.number n))
    | .bool b => .ok (k, toString b)
    | _ => .error (field ++ "['" ++ k ++ "'] must be a scalar value")

variable [CaseMapping]

/-- One field of an action, written over what was read before. -/
def parseActionField (field : String) (entry : ActionEntry) :
    String × Json → Except String ActionEntry
  | ("weight", value) =>
    match value.asU64 with
    | none => .error (field ++ ".weight must be an integer >= 1")
    | some weight =>
      if h : weight ≠ 0 then .ok { entry with weight := weight, weight_ne_zero := h }
      else .error (field ++ ".weight must be an integer >= 1")
  | ("set_headers", value) => do
    let pairs ← parseKvObject value (field ++ ".set_headers")
    return { entry with setHeaders := pairs.map fun (k, v) => (toLowercase k, v) }
  | ("set_labels", value) => do
    let pairs ← parseKvObject value (field ++ ".set_labels")
    return { entry with setLabels := pairs }
  | (other, _) => .error (field ++ ": not supported action: " ++ other)

/-- One action. -/
def parseAction (field : String) (raw : Json) : Except String ActionEntry :=
  match raw.asObject with
  | none => .error (field ++ " must be an object")
  | some fields => fields.foldlM (parseActionField field)
      { weight := 1, setHeaders := [], setLabels := [], weight_ne_zero := by decide }

variable [VarsExpr]

/-- One rule. -/
def parseRule (field : String) (raw : Json) : Except String Rule := do
  match raw.asObject with
  | none => throw (field ++ " must be an object")
  | some fields =>
    let matcher ← match fields.lookup "match" with
      | none => pure none
      | some v => match VarsExpr.parse v with
        | .error e => throw (field ++ ".match: " ++ e)
        | .ok expr => pure (some expr)
    let rawActions := ((fields.lookup "actions").bind Json.asArray).getD []
    let actions ← rawActions.zipIdx.mapM fun (rawAction, aidx) =>
      parseAction (field ++ ".actions[" ++ showNat aidx ++ "]") rawAction
    if h : actions = [] then throw (field ++ " requires a non-empty 'actions' array")
    else
      return {
        matcher := matcher
        actions := actions
        totalWeight := (actions.map ActionEntry.weight).sum
        cursor := 0
        actions_ne_nil := h
        totalWeight_eq := rfl }

end Config

end TrafficLabelPlugin

open TrafficLabelPlugin in
/-- A configured `traffic-label` node. -/
structure TrafficLabelPlugin [VarsExpr] where
  rules : List Rule

namespace TrafficLabelPlugin

/-- `TrafficLabelPlugin::from_config`. -/
def fromConfig [VarsExpr] [JsonText] [CaseMapping] (config : HashMap Json) :
    Except String TrafficLabelPlugin := do
  match (config["rules"]?.bind Json.asArray).getD [] with
  | [] => throw "traffic-label requires a non-empty 'rules' array"
  | rawRules =>
    let rules ← rawRules.zipIdx.mapM fun (raw, idx) =>
      parseRule ("rules[" ++ showNat idx ++ "]") raw
    return { rules := rules }

variable [VarsExpr]

namespace Rule

variable (rule : Rule)

def weights : List UInt64 := rule.actions.map ActionEntry.weight

/-- `Rule::pick_action`: which action; `none` where the total is zero, for then the remainder panics. -/
def pickAction : Option Nat :=
  if rule.totalWeight = 0 then none else some (weightedPick rule.weights rule.totalWeight rule.cursor)

/-- The cursor has moved on. -/
def advance : Rule := { rule with cursor := rule.cursor + 1 }

/-- The rule with another cursor. -/
def atCursor (cursor : UInt64) : Rule := { rule with cursor := cursor }

theorem weights_sum : rule.weights.sum = rule.totalWeight := rule.totalWeight_eq.symm

theorem advance_iterate (i : Nat) :
    Rule.advance^[i] rule = rule.atCursor (rule.cursor + UInt64.ofNat i) :=
  @iterate_cursor _ Rule.advance rule.atCursor (fun _ => rfl) i rule.cursor

/-- The actions of a run of picks. -/
def picks (i : Nat) : Option Nat := (Rule.advance^[i] rule).pickAction

/-- No weight is zero. -/
theorem widths_pos : 0 < (widths rule.weights).sum := by
  obtain ⟨action, actions, hactions⟩ := List.exists_cons_of_ne_nil rule.actions_ne_nil
  have hne : action.weight.toNat ≠ 0 := fun h =>
    action.weight_ne_zero (UInt64.toNat_inj.mp h)
  unfold widths weights
  rw [hactions, List.map_cons, List.map_cons, List.sum_cons]
  omega

theorem picks_eq (hfits : (widths rule.weights).sum < 2 ^ 64) (i : Nat) :
    rule.picks i = some (weightedPick rule.weights rule.weights.sum (rule.cursor + UInt64.ofNat i)) := by
  have htotal : rule.totalWeight ≠ 0 := by
    intro hzero
    have hpos := rule.widths_pos
    rw [← weights_sum, ← UInt64.toNat_inj, toNat_sum hfits] at hzero
    have hnone : (0 : UInt64).toNat = 0 := rfl
    omega
  unfold picks
  rw [advance_iterate, weights_sum]
  exact if_neg htotal

end Rule

section Execute

variable [CaseMapping] [JsonText] (ctx : Context)

def Rule.matches (rule : Rule) : Bool :=
  match rule.matcher with
  | none => true
  | some expr => VarsExpr.eval expr ctx

/-- The headers and labels of an action, their templates filled in from the context as it came. -/
def ActionEntry.apply (action : ActionEntry) : Context where
  request := { ctx.request with
    headers := action.setHeaders.foldl
      (fun headers (name, template) => headers.insert name [Vars.interpolate ctx template])
      ctx.request.headers }
  response := ctx.response
  message := action.setLabels.foldl
    (fun message (key, template) =>
      message.insert ("label." ++ key) (.string (Vars.interpolate ctx template)))
    ctx.message
  errors := ctx.errors

/-- The first rule that matches and has something to apply; `none` for a panic. -/
def executeRules : List Rule → Option (Context × List Rule)
  | [] => some (ctx, [])
  | rule :: rules =>
    if rule.matches ctx then do
      let idx ← rule.pickAction
      let action ← rule.actions[idx]?
      if action.setHeaders = [] ∧ action.setLabels = [] then
        let (ctx', rules) ← executeRules rules
        return (ctx', rule.advance :: rules)
      else
        return (action.apply ctx, rule.advance :: rules)
    else do
      let (ctx', rules) ← executeRules rules
      return (ctx', rule :: rules)

/-- `TrafficLabelPlugin::execute`, which never fails. -/
def execute (plugin : TrafficLabelPlugin) : Option (PluginResult × TrafficLabelPlugin) := do
  let (ctx', rules) ← executeRules ctx plugin.rules
  return (.ok { context := ctx', namedOutputs := ∅ }, { plugin with rules := rules })

end Execute

end TrafficLabelPlugin

/-! ## Where the law holds -/

section Law

variable [VarsExpr]

/-- **The law.**  For every rule of either plugin, from any value of its cursor. -/
theorem weighted_exact_iff :
    (∀ (rule : TrafficSplitPlugin.Rule) (cursor : UInt64),
      Exact rule.weights (rule.atCursor cursor).picks ↔ ExactWhen rule.weights cursor) ∧
    ∀ (rule : TrafficLabelPlugin.Rule) (cursor : UInt64),
      Exact rule.weights (rule.atCursor cursor).picks ↔ ExactWhen rule.weights cursor :=
  ⟨fun rule cursor => exact_iff rule.widths_pos cursor fun _ => (rule.atCursor cursor).picks_eq,
    fun rule cursor => exact_iff rule.widths_pos cursor (rule.atCursor cursor).picks_eq⟩

end Law

/-! ## Past the wrap -/

/-- A language with one condition, which always holds. -/
abbrev unconditional : VarsExpr where
  Expr := Unit
  parse _ := .ok ()
  eval _ _ := true

/-- A rule of a node's config, given the weights. -/
def weightsConfig (entries : String) (weights : List UInt64) : HashMap Json :=
  (∅ : HashMap Json).insert "rules" (.array [.object [(entries, .array (weights.map fun weight =>
    .object [("weight", .number (.posInt weight))]))]])

/-- One part in three and two parts in three: where the cursor wraps, three picks in a row are two of
    the first slot and one of the second. -/
theorem split_inexact_at_wrap :
    let _ : VarsExpr := unconditional
    ∃ plugin rule, TrafficSplitPlugin.fromConfig (weightsConfig "weighted_upstreams" [1, 2]) =
        .ok plugin ∧ rule ∈ plugin.rules ∧ rule.weights = [1, 2] ∧
      (List.range 3).map (rule.atCursor 18446744073709551615).picks = [some 0, some 0, some 1] ∧
      ¬ Exact rule.weights (rule.atCursor 18446744073709551615).picks := by
  intro _
  refine ⟨_, _, rfl, List.mem_cons_self, rfl, by decide, fun hexact => ?_⟩
  obtain ⟨-, hcount⟩ := hexact
  exact absurd (hcount 0 (by decide)) (by decide)

/-- Two weights of `2 ^ 63` add up to no weight at all, and the first request panics. -/
theorem label_panics_on_overflow :
    let _ : VarsExpr := unconditional
    let _ : JsonText := oneFieldText
    let _ : CaseMapping := asciiCaseMapping
    ∃ plugin rule, TrafficLabelPlugin.fromConfig
        (weightsConfig "actions" [9223372036854775808, 9223372036854775808]) = .ok plugin ∧
      rule ∈ plugin.rules ∧ rule.pickAction = none ∧ ¬ Exact rule.weights rule.picks := by
  intro _ _ _
  refine ⟨_, _, rfl, List.mem_cons_self, rfl, fun hexact => ?_⟩
  obtain ⟨hfits, -⟩ := hexact
  exact absurd hfits (by decide)

end Featherbit
