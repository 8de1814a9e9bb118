/-
  THE NODE `fault-injection` (`plugins/native/fault_injection.rs`), which delays requests, answers them
  itself, or both, where a sample hits and a condition holds.

  A condition is a list.  Its items are expressions or groups, one of which has to hold; but a list that
  begins with a bare rule is read as one expression, all of whose items have to hold.

  1. **Reading** (`accepted_iff`) — an item is read by itself, whatever its place; but behind a bare rule no
     expression is read.
  2. **The condition** (`varsMatch_of_rule`, `varsMatch_of_not_rule`) — all items hold, or some item does, as
     the first one says.
  3. **The order** (`order_iff`, `meant_iff`) — so it does not matter exactly where a list has no rules beside
     groups, or has an expression besides, or its items all hold or all fail.

  The percentage rolled is a parameter, and so is what `Duration` makes of a number of seconds.
-/
import Featherbit.Lib.TryFold
import Featherbit.Plugins.AuthNodes
import Featherbit.Vars.Expr

namespace Featherbit

/-- `Duration::from_secs_f64`, in nanoseconds; `none` when it panics. -/
class SecsF64 where
  fromSecsF64 : Float → Option Nat

/-- A percentage that a configuration may name. -/
abbrev Percentage := Fin 101

namespace FaultInjection

/-- `sample_hit`, where `roll` is the number drawn. -/
def sampleHit (percentage : Option Percentage) (roll : Fin 100) : Bool :=
  match percentage with
  | none => true
  | some p => decide (roll.val < p.val)

/-- `0` never hits, and `100` always does. -/
theorem sampleHit_ends (roll : Fin 100) :
    sampleHit (some 0) roll = false ∧ sampleHit (some 100) roll = true := by
  have hnever : ¬ roll.val < 0 := Nat.not_lt_zero _
  exact ⟨decide_eq_false hnever, decide_eq_true roll.isLt⟩

/-! ## Shapes -/

/-- The string that an item begins with. -/
def leadingStr (item : Json) : Option String := (item.asArray.bind List.head?).bind Json.asStr

def isLogical (s : String) : Bool := eqIgnoreAsciiCase s "and" || eqIgnoreAsciiCase s "or"

/-- An error of a condition names the fault. -/
def inVars {α : Type} (field : String) (parsed : Except String α) : Except String α :=
  parsed.mapError fun e => field ++ ".vars: " ++ e

theorem inVars_eq_ok {α : Type} {field : String} {parsed : Except String α} {a : α} :
    inVars field parsed = .ok a ↔ parsed = .ok a := by
  cases parsed with
  | error e => exact iff_of_false (fun h => nomatch h) (fun h => nomatch h)
  | ok b => exact Iff.rfl

/-- What an item is, by what it begins with. -/
inductive Shape where
  | rule
  | group
  | expression
deriving DecidableEq

def shapeOf (item : Json) : Shape :=
  match leadingStr item with
  | none => .expression
  | some s => if isLogical s then .group else .rule

theorem shapeOf_eq_rule {item : Json} :
    shapeOf item = .rule ↔ ((leadingStr item).any fun s => !isLogical s) = true := by
  unfold shapeOf
  cases leadingStr item with
  | none => exact iff_of_false (fun h => nomatch h) Bool.false_ne_true
  | some s =>
    rw [Option.any_some]
    dsimp only
    cases isLogical s with
    | false => exact iff_of_true rfl rfl
    | true => exact iff_of_false Shape.noConfusion Bool.false_ne_true

theorem shapeOf_eq_expression {item : Json} : shapeOf item = .expression ↔ (leadingStr item).isSome = false := by
  unfold shapeOf
  cases leadingStr item with
  | none => exact iff_of_true rfl rfl
  | some s =>
    refine iff_of_false ?_ (fun h => nomatch h)
    dsimp only
    split <;> exact fun h => nomatch h

/-- The list begins with a bare rule. -/
def BeginsWithRule (items : List Json) : Prop := items.head?.map shapeOf = some .rule

theorem beginsWithRule_iff {items : List Json} : BeginsWithRule items ↔
    ((items.head?.bind leadingStr).any fun s => !isLogical s) = true := by
  unfold BeginsWithRule
  cases items with
  | nil => exact iff_of_false (fun h => nomatch h) Bool.false_ne_true
  | cons first rest => exact Option.some_inj.trans shapeOf_eq_rule

/-- Bare rules beside groups, and no expression. -/
structure Mixed (items : List Json) : Prop where
  rule : ∃ item ∈ items, shapeOf item = .rule
  group : ∃ item ∈ items, shapeOf item = .group
  no_expression : ∀ item ∈ items, shapeOf item ≠ .expression

theorem Mixed.of_perm {items items' : List Json} (hperm : items'.Perm items) (h : Mixed items') : Mixed items where
  rule := by
    obtain ⟨item, hitem, hshape⟩ := h.rule
    exact ⟨item, hperm.mem_iff.mp hitem, hshape⟩
  group := by
    obtain ⟨item, hitem, hshape⟩ := h.group
    exact ⟨item, hperm.mem_iff.mp hitem, hshape⟩
  no_expression item hitem := h.no_expression item (hperm.mem_iff.mpr hitem)

/-- Of two orders that are read, one with a bare rule in front and one without, the items are mixed. -/
theorem mixed_of_orders {items items' : List Json} (hperm : items'.Perm items) (hrule : BeginsWithRule items)
    (hnot : ¬ BeginsWithRule items') (hshape : ∀ item ∈ items, shapeOf item ≠ .expression) : Mixed items := by
  cases items with
  | nil => cases hrule
  | cons first rest =>
    cases items' with
    | nil => cases hperm.nil_eq
    | cons first' rest' =>
      have hfirst' : first' ∈ first :: rest := hperm.mem_iff.mp List.mem_cons_self
      refine ⟨⟨first, List.mem_cons_self, Option.some.inj hrule⟩, ⟨first', hfirst', ?_⟩, hshape⟩
      cases hshape' : shapeOf first' with
      | rule => exact absurd (congrArg some hshape') hnot
      | group => rfl
      | expression => exact absurd hshape' (hshape first' hfirst')

/-- Any item may be written first. -/
theorem exists_perm_first {items : List Json} {item : Json} (h : item ∈ items) :
    ∃ rest, (item :: rest).Perm items :=
  ⟨items.erase item, (List.perm_cons_erase h).symm⟩

end FaultInjection

section

variable [RegexEngine] [IpNetParser] [JsonText] [F64Display]

structure AbortRule where
  httpStatus : UInt16
  body : Option String
  headers : List (String × String)
  percentage : Option Percentage
  vars : Option (List Expr)

structure DelayRule where
  /-- in nanoseconds -/
  duration : Nat
  percentage : Option Percentage
  vars : Option (List Expr)

structure FaultInjectionPlugin where
  abort : Option AbortRule
  delay : Option DelayRule

namespace FaultInjection

/-! ## Reading -/

/-- An item that begins with a string is one rule of an expression. -/
def parseItem (item : Json) : Except String Expr :=
  if (leadingStr item).isSome then Expr.parse (.array [item]) else Expr.parse item

/-- `parse_or_vars`. -/
def parseOrVars (v : Json) (field : String) : Except String (List Expr) :=
  match v.asArray with
  | none => .error (field ++ ".vars must be an array")
  | some items =>
    if (items.head?.bind leadingStr).any fun s => !isLogical s then
      (inVars field (Expr.parse v)).map fun expr => [expr]
    else items.mapM fun item => inVars field (parseItem item)

/-- What is absent is not read. -/
def optional {α : Type} (v : Option Json) (read : Json → Except String α) : Except String (Option α) :=
  match v with
  | none => .ok none
  | some v => (read v).map some

/-- `parse_percentage`. -/
def parsePercentage (fields : List (String × Json)) (field : String) : Except String (Option Percentage) :=
  optional (fields.lookup "percentage") fun v =>
    match v.asU64 with
    | some n =>
      if h : n.toNat ≤ 100 then .ok ⟨n.toNat, Nat.lt_succ_of_le h⟩
      else .error (field ++ ".percentage must be an integer 0-100")
    | none => .error (field ++ ".percentage must be an integer 0-100")

variable [CaseMapping]

/-- A header, its name in lower case. -/
def headerOf (field name : String) (value : Json) : Except String (String × String) :=
  match value.scalar with
  | some s => .ok (toLowercase name, s)
  | none => .error (field ++ "['" ++ name ++ "'] must be a scalar value")

/-- A row of the editor; a blank one is none. -/
def headerRow (field : String) (item : Json) : Except String (Option (String × String)) :=
  match item.asObject with
  | none => .error (field ++ " entries must be objects with 'name' and 'value'")
  | some fields =>
    let name := ((fields.lookup "name").bind Json.asStr).getD ""
    if trim name = "" then .ok none
    else (headerOf field name ((fields.lookup "value").getD (.string ""))).map some

/-- `parse_headers`. -/
def parseHeaders (v : Json) (field : String) : Except String (List (String × String)) :=
  match v with
  | .object fields => fields.mapM fun (name, value) => headerOf field name value
  | .array items => (items.mapM (headerRow field)).map (List.filterMap id)
  | _ => .error (field ++ " must be a map of name: value or a list of \x7bname, value\x7d objects")

/-- `http_status`. -/
def requiredStatus (fields : List (String × Json)) : Except String UInt16 :=
  match ((fields.lookup "http_status").bind Json.asU64).filter fun n => 200 ≤ n ∧ n ≤ 599 with
  | some n => .ok n.toUInt16
  | none => .error "abort.http_status is required and must be an integer >= 200"

def parseAbort (v : Json) : Except String AbortRule :=
  match v.asObject with
  | none => .error "abort must be an object"
  | some fields => do
    let httpStatus ← requiredStatus fields
    let body ← optional (fields.lookup "body") fun v =>
      match v.asStr with
      | some body => .ok body
      | none => .error "abort.body must be a string"
    let headers ← optional (fields.lookup "headers") fun v => parseHeaders v "abort.headers"
    let percentage ← parsePercentage fields "abort"
    let vars ← optional (fields.lookup "vars") fun v => parseOrVars v "abort"
    return { httpStatus, body, headers := headers.getD [], percentage, vars }

/-- `duration`, in seconds. -/
def requiredDuration (fields : List (String × Json)) : Except String Float :=
  match ((fields.lookup "duration").bind Json.asF64).filter fun d => (0.0 : Float).le d && d.isFinite with
  | some secs => .ok secs
  | none => .error "delay.duration is required and must be a non-negative number of seconds"

/-- A delay; `none` when it is longer than any `Duration`. -/
def parseDelay [SecsF64] (v : Json) : Except String (Option DelayRule) :=
  match v.asObject with
  | none => .error "delay must be an object"
  | some fields => do
    let secs ← requiredDuration fields
    let percentage ← parsePercentage fields "delay"
    let vars ← optional (fields.lookup "vars") fun v => parseOrVars v "delay"
    return (SecsF64.fromSecsF64 secs).map fun duration => { duration, percentage, vars }

/-- `FaultInjectionPlugin::from_config`; `none` when it panics. -/
def fromConfig [SecsF64] (config : HashMap Json) : Except String (Option FaultInjectionPlugin) := do
  let abort ← optional config["abort"]? parseAbort
  let delay ← optional config["delay"]? parseDelay
  match delay with
  | none =>
    if abort.isNone then throw "fault-injection requires at least one of 'abort' or 'delay'"
    return some { abort, delay := none }
  | some delay => return delay.map fun delay => { abort, delay := some delay }

/-- The condition of an abort is the one that is configured. -/
theorem parseAbort_vars {fields : List (String × Json)} {rule : AbortRule}
    (h : parseAbort (.object fields) = .ok rule) :
    optional (fields.lookup "vars") (fun v => parseOrVars v "abort") = .ok rule.vars := by
  unfold parseAbort at h
  dsimp only [Json.asObject] at h
  obtain ⟨status, -, h⟩ := TryFold.bind_eq_ok.mp h
  obtain ⟨body, -, h⟩ := TryFold.bind_eq_ok.mp h
  obtain ⟨headers, -, h⟩ := TryFold.bind_eq_ok.mp h
  obtain ⟨percentage, -, h⟩ := TryFold.bind_eq_ok.mp h
  obtain ⟨vars, hvars, h⟩ := TryFold.bind_eq_ok.mp h
  rw [hvars, ← Except.ok.inj h]

/-- A node that is configured has a fault. -/
theorem exists_fault [SecsF64] {config : HashMap Json} {plugin : FaultInjectionPlugin}
    (h : fromConfig config = .ok (some plugin)) : plugin.abort.isSome = true ∨ plugin.delay.isSome = true := by
  unfold fromConfig at h
  obtain ⟨abort, -, h⟩ := TryFold.bind_eq_ok.mp h
  obtain ⟨delay, -, h⟩ := TryFold.bind_eq_ok.mp h
  cases delay with
  | none =>
    dsimp only at h
    cases abort with
    | none => cases h
    | some rule =>
      obtain rfl := Option.some.inj (Except.ok.inj h)
      exact Or.inl rfl
  | some delay =>
    obtain ⟨rule, -, rfl⟩ := Option.map_eq_some_iff.mp (Except.ok.inj h)
    exact Or.inr rfl

/-! ## The node -/

/-- `vars_match`. -/
def varsMatch (vars : Option (List Expr)) (ctx : Context) : Bool :=
  match vars with
  | none => true
  | some exprs => exprs.any fun e => e.eval ctx

end FaultInjection

namespace FaultInjectionPlugin

open FaultInjection

variable [CaseMapping]

/-- The response of an abort, and its error. -/
def aborted (rule : AbortRule) (ctx : Context) : PluginExecutionError where
  context := { ctx with
    response := {
      statusCode := rule.httpStatus
      headers := rule.headers.foldl
        (fun headers (name, template) => headers.insert name [Vars.interpolate ctx template])
        ctx.response.headers
      body := asBytes ((rule.body.map (Vars.interpolate ctx)).getD "") } }
  error := {
    nodeId := ""
    code := "FAULT_INJECTED"
    message := "fault injected: abort with status " ++ showNat rule.httpStatus.toNat
    metadata := ∅ }

/-- `execute`: the time it sleeps, if it does, and the result. -/
def execute (plugin : FaultInjectionPlugin) (delayRoll abortRoll : Fin 100) (ctx : Context) :
    Option Nat × PluginResult :=
  let delay := plugin.delay.filter fun rule => sampleHit rule.percentage delayRoll && varsMatch rule.vars ctx
  let abort := plugin.abort.filter fun rule => sampleHit rule.percentage abortRoll && varsMatch rule.vars ctx
  (delay.map DelayRule.duration,
    match abort with
    | some rule => .error (aborted rule ctx)
    | none => .ok { context := ctx, namedOutputs := ∅ })

omit [IpNetParser] [F64Display] in
/-- A request is aborted exactly when the sample hits and the condition holds; the delay has no part in it. -/
theorem execute_error_iff (plugin : FaultInjectionPlugin) (delayRoll abortRoll : Fin 100) (ctx : Context)
    (err : PluginExecutionError) : (plugin.execute delayRoll abortRoll ctx).2 = .error err ↔
      ∃ rule, plugin.abort = some rule ∧ sampleHit rule.percentage abortRoll = true ∧
        varsMatch rule.vars ctx = true ∧ err = aborted rule ctx := by
  unfold execute
  dsimp only
  cases habort : plugin.abort with
  | none =>
    refine iff_of_false ?_ ?_
    · intro h
      cases h
    · rintro ⟨rule, hrule, -⟩
      cases hrule
  | some rule =>
    rw [Option.filter_some]
    by_cases hhit : (sampleHit rule.percentage abortRoll && varsMatch rule.vars ctx) = true
    · obtain ⟨hsample, hvars⟩ := Bool.and_eq_true_iff.mp hhit
      rw [if_pos hhit]
      constructor
      · intro h
        exact ⟨rule, rfl, hsample, hvars, (Except.error.inj h).symm⟩
      · rintro ⟨other, hother, -, -, rfl⟩
        obtain rfl := Option.some.inj hother
        rfl
    · rw [if_neg hhit]
      refine iff_of_false ?_ ?_
      · intro h
        cases h
      · rintro ⟨other, hother, hsample, hvars, -⟩
        obtain rfl := Option.some.inj hother
        exact hhit (Bool.and_eq_true_iff.mpr ⟨hsample, hvars⟩)

end FaultInjectionPlugin

namespace FaultInjection

/-! ## Items -/

/-- An item holds: a rule or a group by itself, an expression where all its rules do. -/
def ItemHolds [CaseMapping] (ctx : Context) (item : Json) : Prop :=
  match shapeOf item with
  | .expression => Expr.AllHold (Expr.RuleHolds ctx) (item.asArray.getD [])
  | _ => Expr.Holds (Expr.RuleHolds ctx) item

theorem itemHolds_of_ne [CaseMapping] {ctx : Context} {item : Json} (h : shapeOf item ≠ .expression) :
    ItemHolds ctx item ↔ Expr.Holds (Expr.RuleHolds ctx) item := by
  unfold ItemHolds
  cases hshape : shapeOf item with
  | rule => exact Iff.rfl
  | group => exact Iff.rfl
  | expression => exact absurd hshape h

theorem itemHolds_of_eq [CaseMapping] {ctx : Context} {item : Json} (h : shapeOf item = .expression) :
    ItemHolds ctx item ↔ ∀ rule ∈ item.asArray.getD [], Expr.Holds (Expr.RuleHolds ctx) rule := by
  unfold ItemHolds
  rw [h]
  exact Expr.allHold_iff

/-! ### Reading one -/

theorem parse_single (item : Json) :
    Expr.parse (.array [item]) = (Expr.parseNode item).map fun node => ⟨.and [node]⟩ := by
  show (Expr.parseNodes [item]).map _ = _
  rw [Expr.parseNodes, Expr.parseNodes]
  cases Expr.parseNode item with
  | error e => rfl
  | ok node => rfl

/-- An expression is no rule. -/
theorem parseNode_of_expression {item : Json} (h : shapeOf item = .expression) (node : Node) :
    Expr.parseNode item ≠ .ok node := by
  have hleading := shapeOf_eq_expression.mp h
  cases item with
  | array items =>
    cases items with
    | nil => exact fun h => nomatch h
    | cons first rest =>
      cases first with
      | string s => cases hleading
      | _ => exact fun h => nomatch h
  | _ => exact fun h => nomatch h

/-- An item is read as a rule of a list exactly when it is read by itself, and is no expression. -/
theorem exists_parseNode_iff {item : Json} : (∃ node, Expr.parseNode item = .ok node) ↔
    (∃ e, parseItem item = .ok e) ∧ shapeOf item ≠ .expression := by
  unfold parseItem
  constructor
  · rintro ⟨node, hnode⟩
    have hshape : shapeOf item ≠ .expression := fun h => parseNode_of_expression h node hnode
    have hleading := Bool.eq_true_of_not_eq_false (mt shapeOf_eq_expression.mpr hshape)
    rw [if_pos hleading, parse_single, hnode]
    exact ⟨⟨_, rfl⟩, hshape⟩
  · rintro ⟨⟨e, he⟩, hshape⟩
    have hleading := Bool.eq_true_of_not_eq_false (mt shapeOf_eq_expression.mpr hshape)
    rw [if_pos hleading, parse_single] at he
    obtain ⟨node, hnode, -⟩ := Expr.exists_of_map he
    exact ⟨node, hnode⟩

/-- Read by itself, an item evaluates to whether it holds. -/
theorem eval_parseItem [CaseMapping] {item : Json} {e : Expr} (h : parseItem item = .ok e) (ctx : Context) :
    e.eval ctx = true ↔ ItemHolds ctx item := by
  unfold parseItem at h
  split at h
  · rename_i hleading
    have hshape : shapeOf item ≠ .expression := by
      intro hshape
      rw [shapeOf_eq_expression.mp hshape] at hleading
      cases hleading
    rw [parse_single] at h
    obtain ⟨node, hnode, rfl⟩ := Expr.exists_of_map h
    rw [itemHolds_of_ne hshape]
    show (Expr.evalNode ctx node && true) = true ↔ _
    rw [Bool.and_true]
    exact Expr.evalNode_iff ctx item node hnode fun _ _ _ hrule => Expr.evalNode_iff_ruleHolds hrule
  · rename_i hleading
    have hshape := shapeOf_eq_expression.mpr (Bool.eq_false_of_not_eq_true hleading)
    unfold Expr.parse at h
    split at h
    · rename_i rules hrules
      obtain ⟨nodes, hnodes, rfl⟩ := Expr.exists_of_map h
      rw [itemHolds_of_eq hshape, hrules, Option.getD_some, ← Expr.allHold_iff]
      exact (Expr.evalNodes_iff ctx rules nodes hnodes fun _ _ _ hrule => Expr.evalNode_iff_ruleHolds hrule).1
    · cases h

/-! ### Reading a list -/

theorem parseNodes_eq_ok {items : List Json} {nodes : List Node} : Expr.parseNodes items = .ok nodes ↔
    List.Forall₂ (fun item node => Expr.parseNode item = .ok node) items nodes := by
  have hmapM : ∀ items, Expr.parseNodes items = items.mapM Expr.parseNode := by
    intro items
    induction items with
    | nil => rfl
    | cons item items ih =>
      rw [Expr.parseNodes, List.mapM_cons, ih]
      cases Expr.parseNode item with
      | error e => rfl
      | ok node => cases items.mapM Expr.parseNode <;> rfl
  rw [hmapM, TryFold.mapM_eq_ok]

/-- Behind a bare rule the list is one expression. -/
theorem parseOrVars_of_rule {items : List Json} (h : BeginsWithRule items) {field : String}
    {exprs : List Expr} : parseOrVars (.array items) field = .ok exprs ↔
      ∃ nodes, Expr.parseNodes items = .ok nodes ∧ exprs = [⟨.and nodes⟩] := by
  unfold parseOrVars
  dsimp only [Json.asArray]
  rw [if_pos (beginsWithRule_iff.mp h)]
  have hparse : Expr.parse (.array items) = (Expr.parseNodes items).map fun nodes => ⟨.and nodes⟩ := rfl
  constructor
  · intro hok
    obtain ⟨e, he, rfl⟩ := Expr.exists_of_map hok
    obtain ⟨nodes, hnodes, rfl⟩ := Expr.exists_of_map (hparse ▸ inVars_eq_ok.mp he)
    exact ⟨nodes, hnodes, rfl⟩
  · rintro ⟨nodes, hnodes, rfl⟩
    rw [hparse, hnodes]
    rfl

/-- Otherwise its items are read one by one. -/
theorem parseOrVars_of_not_rule {items : List Json} (h : ¬ BeginsWithRule items) {field : String}
    {exprs : List Expr} : parseOrVars (.array items) field = .ok exprs ↔
      List.Forall₂ (fun item e => parseItem item = .ok e) items exprs := by
  unfold parseOrVars
  dsimp only [Json.asArray]
  rw [if_neg (mt beginsWithRule_iff.mpr h), TryFold.mapM_eq_ok]
  simp only [inVars_eq_ok]

/-- **Acceptance.**  Every item is read by itself, and there is no expression behind a bare rule. -/
theorem accepted_iff {items : List Json} {field : String} :
    (∃ exprs, parseOrVars (.array items) field = .ok exprs) ↔
      (∀ item ∈ items, ∃ e, parseItem item = .ok e) ∧
        (BeginsWithRule items → ∀ item ∈ items, shapeOf item ≠ .expression) := by
  by_cases hrule : BeginsWithRule items
  · -- one expression: every item is read as a rule of it
    have hnodes : (∃ exprs, parseOrVars (.array items) field = .ok exprs) ↔
        ∀ item ∈ items, ∃ node, Expr.parseNode item = .ok node := by
      constructor
      · rintro ⟨exprs, h⟩ item hitem
        obtain ⟨nodes, hnodes, -⟩ := (parseOrVars_of_rule hrule).mp h
        obtain ⟨node, -, hnode⟩ := TryFold.exists_result (parseNodes_eq_ok.mp hnodes) hitem
        exact ⟨node, hnode⟩
      · intro h
        obtain ⟨nodes, hnodes⟩ := TryFold.exists_results h
        exact ⟨_, (parseOrVars_of_rule hrule).mpr ⟨nodes, parseNodes_eq_ok.mpr hnodes, rfl⟩⟩
    rw [hnodes, forall_prop_of_true hrule]
    constructor
    · intro h
      exact ⟨fun item hitem => (exists_parseNode_iff.mp (h item hitem)).1,
        fun item hitem => (exists_parseNode_iff.mp (h item hitem)).2⟩
    · rintro ⟨hread, hshape⟩ item hitem
      exact exists_parseNode_iff.mpr ⟨hread item hitem, hshape item hitem⟩
  · -- item by item
    constructor
    · rintro ⟨exprs, h⟩
      refine ⟨fun item hitem => ?_, fun hbegins => absurd hbegins hrule⟩
      obtain ⟨e, -, he⟩ := TryFold.exists_result ((parseOrVars_of_not_rule hrule).mp h) hitem
      exact ⟨e, he⟩
    · rintro ⟨hread, -⟩
      obtain ⟨exprs, hexprs⟩ := TryFold.exists_results hread
      exact ⟨exprs, (parseOrVars_of_not_rule hrule).mpr hexprs⟩

/-! ## The condition -/

variable [CaseMapping]

/-- Behind a bare rule all items have to hold. -/
theorem varsMatch_of_rule {items : List Json} (hrule : BeginsWithRule items) {field : String}
    {exprs : List Expr} (h : parseOrVars (.array items) field = .ok exprs) (ctx : Context) :
    varsMatch (some exprs) ctx = true ↔ ∀ item ∈ items, ItemHolds ctx item := by
  have hshape := (accepted_iff.mp ⟨exprs, h⟩).2 hrule
  obtain ⟨nodes, hnodes, rfl⟩ := (parseOrVars_of_rule hrule).mp h
  have heval := (Expr.evalNodes_iff ctx items nodes hnodes
    fun _ _ _ hrule => Expr.evalNode_iff_ruleHolds hrule).1
  show (Expr.evalAll ctx nodes || false) = true ↔ _
  rw [Bool.or_false, heval, Expr.allHold_iff]
  exact forall₂_congr fun item hitem => (itemHolds_of_ne (hshape item hitem)).symm

/-- Otherwise one of them has to. -/
theorem varsMatch_of_not_rule {items : List Json} (hrule : ¬ BeginsWithRule items) {field : String}
    {exprs : List Expr} (h : parseOrVars (.array items) field = .ok exprs) (ctx : Context) :
    varsMatch (some exprs) ctx = true ↔ ∃ item ∈ items, ItemHolds ctx item := by
  have hrows := (parseOrVars_of_not_rule hrule).mp h
  show (exprs.any fun e => e.eval ctx) = true ↔ _
  rw [List.any_eq_true]
  constructor
  · rintro ⟨e, he, heval⟩
    obtain ⟨item, hitem, hread⟩ := TryFold.exists_row hrows he
    exact ⟨item, hitem, (eval_parseItem hread ctx).mp heval⟩
  · rintro ⟨item, hitem, hholds⟩
    obtain ⟨e, he, hread⟩ := TryFold.exists_result hrows hitem
    exact ⟨e, he, (eval_parseItem hread ctx).mpr hholds⟩

/-! ## The order -/

/-- All items hold, or none does. -/
def Uniform (ctx : Context) (items : List Json) : Prop :=
  (∀ item ∈ items, ItemHolds ctx item) ∨ ∀ item ∈ items, ¬ ItemHolds ctx item

theorem uniform_iff {ctx : Context} {items : List Json} (hne : items ≠ []) :
    Uniform ctx items ↔ ((∀ item ∈ items, ItemHolds ctx item) ↔ ∃ item ∈ items, ItemHolds ctx item) := by
  obtain ⟨first, hfirst⟩ := List.exists_mem_of_ne_nil items hne
  constructor
  · rintro (hall | hnone)
    · exact iff_of_true hall ⟨first, hfirst, hall first hfirst⟩
    · refine iff_of_false (fun hall => hnone first hfirst (hall first hfirst)) ?_
      rintro ⟨item, hitem, hholds⟩
      exact hnone item hitem hholds
  · intro h
    by_cases hsome : ∃ item ∈ items, ItemHolds ctx item
    · exact Or.inl (h.mpr hsome)
    · exact Or.inr fun item hitem hholds => hsome ⟨item, hitem, hholds⟩

/-- Whatever the order, the list means the same, exactly if no rules are mixed with groups or its items agree. -/
theorem order_iff {items : List Json} {field : String} {exprs : List Expr}
    (h : parseOrVars (.array items) field = .ok exprs) (ctx : Context) :
    (∀ items' exprs', items'.Perm items → parseOrVars (.array items') field = .ok exprs' →
      varsMatch (some exprs') ctx = varsMatch (some exprs) ctx) ↔ (Mixed items → Uniform ctx items) := by
  have hread := (accepted_iff.mp ⟨exprs, h⟩).1
  constructor
  · intro horder hmixed
    obtain ⟨rule, hrule, hruleShape⟩ := hmixed.rule
    obtain ⟨group, hgroup, hgroupShape⟩ := hmixed.group
    -- a list that begins with a rule asks for all, one that begins with a group for some
    have haccepted : ∀ items' : List Json, items'.Perm items →
        ∃ exprs', parseOrVars (.array items') field = .ok exprs' := by
      intro items' hperm
      exact accepted_iff.mpr ⟨fun item hitem => hread item (hperm.mem_iff.mp hitem),
        fun _ item hitem => hmixed.no_expression item (hperm.mem_iff.mp hitem)⟩
    obtain ⟨rest, hperm⟩ := exists_perm_first hrule
    obtain ⟨rest', hperm'⟩ := exists_perm_first hgroup
    obtain ⟨flat, hflat⟩ := haccepted _ hperm
    obtain ⟨listed, hlisted⟩ := haccepted _ hperm'
    have hbegins : BeginsWithRule (rule :: rest) := congrArg some hruleShape
    have hnot : ¬ BeginsWithRule (group :: rest') := by
      intro hbegins'
      exact absurd (hgroupShape.symm.trans (Option.some.inj hbegins')) Shape.noConfusion
    have hall := varsMatch_of_rule hbegins hflat ctx
    have hsome := varsMatch_of_not_rule hnot hlisted ctx
    rw [horder _ _ hperm hflat] at hall
    rw [horder _ _ hperm' hlisted] at hsome
    simp only [hperm.mem_iff] at hall
    simp only [hperm'.mem_iff] at hsome
    exact (uniform_iff (List.ne_nil_of_mem hrule)).mpr (hall.symm.trans hsome)
  · intro hcond items' exprs' hperm h'
    rw [Bool.eq_iff_iff]
    by_cases hrule : BeginsWithRule items
    · rw [varsMatch_of_rule hrule h]
      by_cases hrule' : BeginsWithRule items'
      · rw [varsMatch_of_rule hrule' h']
        simp only [hperm.mem_iff]
      · -- one order begins with a rule and the other does not, so the list is mixed
        have hmixed := mixed_of_orders hperm hrule hrule' ((accepted_iff.mp ⟨exprs, h⟩).2 hrule)
        obtain ⟨item, hitem, -⟩ := hmixed.rule
        rw [varsMatch_of_not_rule hrule' h', (uniform_iff (List.ne_nil_of_mem hitem)).mp (hcond hmixed)]
        simp only [hperm.mem_iff]
    · rw [varsMatch_of_not_rule hrule h]
      by_cases hrule' : BeginsWithRule items'
      · have hmixed := (mixed_of_orders hperm.symm hrule' hrule
          ((accepted_iff.mp ⟨exprs', h'⟩).2 hrule')).of_perm hperm
        obtain ⟨item, hitem, -⟩ := hmixed.rule
        rw [varsMatch_of_rule hrule' h', ← (uniform_iff (List.ne_nil_of_mem hitem)).mp (hcond hmixed)]
        simp only [hperm.mem_iff]
      · rw [varsMatch_of_not_rule hrule' h']
        simp only [hperm.mem_iff]

omit [CaseMapping] in
/-- Every order is read exactly if there are no bare rules beside expressions. -/
theorem every_order_iff {items : List Json} {field : String} {exprs : List Expr}
    (h : parseOrVars (.array items) field = .ok exprs) :
    (∀ items', items'.Perm items → ∃ exprs', parseOrVars (.array items') field = .ok exprs') ↔
      ¬ ((∃ item ∈ items, shapeOf item = .rule) ∧ ∃ item ∈ items, shapeOf item = .expression) := by
  constructor
  · rintro hread ⟨⟨rule, hrule, hshape⟩, item, hitem, hexpression⟩
    obtain ⟨rest, hperm⟩ := exists_perm_first hrule
    have hbegins : BeginsWithRule (rule :: rest) := congrArg some hshape
    exact (accepted_iff.mp (hread _ hperm)).2 hbegins item (hperm.mem_iff.mpr hitem) hexpression
  · intro hnot items' hperm
    refine accepted_iff.mpr ⟨?_, ?_⟩
    · intro item hitem
      exact (accepted_iff.mp ⟨exprs, h⟩).1 item (hperm.mem_iff.mp hitem)
    · intro hbegins item hitem hexpression
      obtain ⟨first, hfirst, hrule⟩ := Option.map_eq_some_iff.mp hbegins
      have hfirst := hperm.mem_iff.mp (List.mem_of_mem_head? hfirst)
      exact hnot ⟨⟨first, hfirst, hrule⟩, item, hperm.mem_iff.mp hitem, hexpression⟩

/-- What the condition of a list should say in a context: that one of its expressions and groups holds, or that
    all rules of a flat list do; whatever the order they are written in. -/
structure Meant (ctx : Context) (field : String) (items : List Json) (exprs : List Expr) : Prop where
  some_holds : (∀ item ∈ items, shapeOf item ≠ .rule) →
    (varsMatch (some exprs) ctx = true ↔ ∃ item ∈ items, ItemHolds ctx item)
  all_hold : items ≠ [] → (∀ item ∈ items, shapeOf item = .rule) →
    (varsMatch (some exprs) ctx = true ↔ ∀ item ∈ items, ItemHolds ctx item)
  any_order : ∀ items' exprs', items'.Perm items → parseOrVars (.array items') field = .ok exprs' →
    varsMatch (some exprs') ctx = varsMatch (some exprs) ctx

/-- **The condition.**  An accepted list says what it should exactly where it does not mix bare rules with groups,
    or all its items hold or all fail; and it is accepted in every order exactly if it has no bare rules beside
    expressions. -/
theorem meant_iff {v : Json} {field : String} {exprs : List Expr} (h : parseOrVars v field = .ok exprs) :
    ∃ items, v = .array items ∧ (∀ ctx, Meant ctx field items exprs ↔ (Mixed items → Uniform ctx items)) ∧
      ((∀ items', items'.Perm items → ∃ exprs', parseOrVars (.array items') field = .ok exprs') ↔
        ¬ ((∃ item ∈ items, shapeOf item = .rule) ∧ ∃ item ∈ items, shapeOf item = .expression)) := by
  cases v with
  | array items =>
    refine ⟨items, rfl, fun ctx => ⟨fun hmeant => (order_iff h ctx).mp hmeant.any_order, fun hcond => ?_⟩,
      every_order_iff h⟩
    constructor
    · intro hshape
      refine varsMatch_of_not_rule (fun hbegins => ?_) h ctx
      obtain ⟨first, hfirst, hrule⟩ := Option.map_eq_some_iff.mp hbegins
      exact hshape first (List.mem_of_mem_head? hfirst) hrule
    · intro hne hshape
      refine varsMatch_of_rule ?_ h ctx
      obtain ⟨first, rest, rfl⟩ := List.exists_cons_of_ne_nil hne
      exact congrArg some (hshape first List.mem_cons_self)
    · exact (order_iff h ctx).mpr hcond
  | _ => cases h

end FaultInjection

end

namespace FaultInjection

/-! ## Two orders of one list -/

/-- A rule about the host. -/
def hostIs (host : String) : Json := .array [.string "host", .string "==", .string host]

/-- A group of one rule. -/
def orHostIs (host : String) : Json := .array [.string "OR", hostIs host]

theorem meant_iff_groups :
    let _ : RegexEngine := Expr.noRegex
    let _ : IpNetParser := ⟨fun _ => none⟩
    let _ : JsonCodec := compactJson
    let _ : F64Display := ⟨fun _ => "0.5"⟩
    let _ : CaseMapping := asciiCaseMapping
    let items := [orHostIs "a", .array [hostIs "b"]]
    ∃ exprs, parseOrVars (.array items) "abort" = .ok exprs ∧ ∀ ctx, Meant ctx "abort" items exprs := by
  intro _ _ _ _ _ items
  obtain ⟨exprs, hexprs⟩ : ∃ exprs, parseOrVars (.array items) "abort" = .ok exprs := ⟨_, rfl⟩
  obtain ⟨items', hitems, hmeant, -⟩ := meant_iff hexprs
  obtain rfl := Json.array.inj hitems
  refine ⟨exprs, hexprs, fun ctx => (hmeant ctx).mpr fun hmixed => ?_⟩
  obtain ⟨item, hitem, hshape⟩ := hmixed.rule
  have hno : items.all (fun item => decide (shapeOf item ≠ .rule)) = true := by decide
  exact absurd hshape (of_decide_eq_true (List.all_eq_true.mp hno item hitem))

/-- A host that the rule allows and the group does not: it depends on which of them is written first. -/
theorem order_matters :
    let _ : RegexEngine := Expr.noRegex
    let _ : IpNetParser := ⟨fun _ => none⟩
    let _ : JsonCodec := compactJson
    let _ : F64Display := ⟨fun _ => "0.5"⟩
    let _ : CaseMapping := asciiCaseMapping
    ¬ ∀ (items : List Json) (field : String) (exprs : List Expr), parseOrVars (.array items) field = .ok exprs →
      ∀ ctx, Meant ctx field items exprs := by
  intro _ _ _ _ _ h
  let items : List Json := [hostIs "a", orHostIs "b"]
  obtain ⟨flat, hflat, hfails⟩ : ∃ exprs, parseOrVars (.array items) "abort" = .ok exprs ∧
      varsMatch (some exprs) (Expr.requestTo "a") = false := ⟨_, rfl, by decide⟩
  obtain ⟨listed, hlisted, hholds⟩ : ∃ exprs, parseOrVars (.array items.reverse) "abort" = .ok exprs ∧
      varsMatch (some exprs) (Expr.requestTo "a") = true := ⟨_, rfl, by decide⟩
  have hsame := (h items "abort" flat hflat (Expr.requestTo "a")).any_order _ _ items.reverse_perm hlisted
  rw [hfails, hholds] at hsame
  cases hsame

end FaultInjection

end Featherbit
