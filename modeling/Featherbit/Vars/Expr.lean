/-
  CONDITION EXPRESSIONS (`Expr` of `vars/mod.rs`): a JSON array of rules, read once and then evaluated
  against a context.

  `Means` says on the JSON itself what a rule demands of the context.  Evaluation agrees with it but for
  one thing: `==` writes an integer as it is, and `in` writes what is left of it in a double.

  1. **Operators** (`evalOp_iff`) — each one decides what it says; `in` does where no integer that a
     double changes decides (`SpelledAlike`).
  2. **Rules in rules** (`evalNode_iff`) — by induction on the JSON, over lists of rules as well.
  3. **The whole** (`Expr.eval_means_iff`) — an expression and each of its rules mean what they say exactly
     where the integers are spelled alike.
-/
import Featherbit.Json.Text
import Featherbit.Plugins.TrafficSplit
import Featherbit.Rust.F64
import Featherbit.Rust.IpNet
import Featherbit.Rust.Regex
import Featherbit.Vars

namespace Featherbit

/-! ## Values -/

/-- `n.to_string()` of an integer. -/
def showInt64 (n : Int) : String := if n < 0 then "-" ++ showNat n.natAbs else showNat n.natAbs

theorem showInt64_inj {m n : Int} : showInt64 m = showInt64 n ↔ m = n := by
  have hsign : ∀ i j, "-" ++ showNat i ≠ showNat j := by
    intro i j h
    have hmem : '-' ∈ (showNat j).toList := by
      rw [← h, String.toList_append]
      exact List.mem_append_left _ List.mem_cons_self
    exact not_mem_showNat (by decide) j hmem
  constructor
  · intro h
    unfold showInt64 at h
    split_ifs at h with hm hn hn
    · have habs := showNat_inj.mp ((String.append_right_inj _).mp h)
      omega
    · exact absurd h (hsign _ _)
    · exact absurd h.symm (hsign _ _)
    · have habs := showNat_inj.mp h
      omega
  · intro h
    rw [h]

/-- The value of a JSON integer. -/
def Json.integer : Json → Option Int
  | .number (.posInt n) => some n.toNat
  | .number (.negInt n) => some n.toInt
  | _ => none

section

variable [JsonText] [F64Display]

/-- The text of a scalar, as `==` compares it. -/
def Json.scalar : Json → Option String
  | .string s => some s
  | .number (.posInt n) => some (showInt64 n.toNat)
  | .number (.negInt n) => some (showInt64 n.toInt)
  | .number (.float x) => some (JsonText.toText (.number (.float x)))
  | .bool b => some (if b then "true" else "false")
  | _ => none

/-- The text of an item of a list. -/
def Json.listItem : Json → Option String
  | .string s => some s
  | .number (.posInt n) => some (showInt64 (keptF64 n.toNat))
  | .number (.negInt n) => some (showInt64 (keptF64 n.toInt))
  | .number (.float x) => some (F64Display.display x)
  | _ => none

/-- `value.as_f64()`. -/
def Json.asF64 : Json → Option Float
  | .number (.posInt n) => some (Float.ofNat n.toNat)
  | .number (.negInt n) => some (Float.ofInt n.toInt)
  | .number (.float x) => some x.toFloat
  | _ => none

/-- The number of an order comparison. -/
def Json.numeric (v : Json) : Option Float := v.asF64.or (v.asStr.bind parseF64)

/-! ## Items of a list -/

namespace Expr

/-- An item of a list is the value: a string or an integer as `==` has it. -/
def Spells (item : Json) (v : String) : Prop :=
  match item with
  | .number (.float x) => F64Display.display x = v
  | item => item.scalar = some v

/-- No integer that a double changes decides: the value is neither its digits nor what the double makes
    of them, unless another item says so. -/
def SpelledAlike (items : List Json) (v : String) : Prop :=
  ∀ item ∈ items, ∀ n, item.integer = some n → keptF64 n ≠ n →
    (v = showInt64 n → ∃ other ∈ items, other.integer = none ∧ other.listItem = some v) ∧
    (v = showInt64 (keptF64 n) → ∃ other ∈ items, Spells other v)

/-- An integer is written in two ways. -/
theorem texts_of_integer {item : Json} {n : Int} (h : item.integer = some n) (v : String) :
    (Spells item v ↔ v = showInt64 n) ∧ (item.listItem = some v ↔ v = showInt64 (keptF64 n)) := by
  cases item with
  | number m =>
    cases m with
    | posInt m =>
      obtain rfl := Option.some.inj h
      exact ⟨Option.some_inj.trans eq_comm, Option.some_inj.trans eq_comm⟩
    | negInt m =>
      obtain rfl := Option.some.inj h
      exact ⟨Option.some_inj.trans eq_comm, Option.some_inj.trans eq_comm⟩
    | float x => cases h
  | _ => cases h

/-- Anything else in one. -/
theorem spells_iff_of_not_integer {item : Json} (h : item.integer = none) (hitem : item.listItem ≠ none)
    (v : String) : Spells item v ↔ item.listItem = some v := by
  cases item with
  | number m =>
    cases m with
    | posInt m => cases h
    | negInt m => cases h
    | float x => exact Option.some_inj.symm
  | string s => exact Iff.rfl
  | null => exact absurd rfl hitem
  | bool b => exact absurd rfl hitem
  | array items => exact absurd rfl hitem
  | object fields => exact absurd rfl hitem

theorem spelledAlike_iff {items : List Json} (hitems : ∀ item ∈ items, item.listItem ≠ none) (v : String) :
    ((∃ item ∈ items, item.listItem = some v) ↔ ∃ item ∈ items, Spells item v) ↔ SpelledAlike items v := by
  constructor
  · intro h item hitem n hn hchanged
    obtain ⟨hspells, hlist⟩ := texts_of_integer hn v
    refine ⟨fun hv => ?_, fun hv => h.mp ⟨item, hitem, hlist.mpr hv⟩⟩
    obtain ⟨other, hother, htext⟩ := h.mpr ⟨item, hitem, hspells.mpr hv⟩
    refine ⟨other, hother, ?_, htext⟩
    cases hm : other.integer with
    | none => rfl
    | some m =>
      -- what comes out of a double goes through one unchanged
      have hkept := (texts_of_integer hm v).2.mp htext
      rw [hv, showInt64_inj] at hkept
      rw [hkept, keptF64_keptF64] at hchanged
      exact absurd rfl hchanged
  · intro h
    constructor
    · rintro ⟨item, hitem, htext⟩
      cases hn : item.integer with
      | none => exact ⟨item, hitem, (spells_iff_of_not_integer hn (hitems item hitem) v).mpr htext⟩
      | some n =>
        obtain ⟨hspells, hlist⟩ := texts_of_integer hn v
        have hv := hlist.mp htext
        by_cases hkept : keptF64 n = n
        · rw [hkept] at hv
          exact ⟨item, hitem, hspells.mpr hv⟩
        · exact (h item hitem n hn hkept).2 hv
    · rintro ⟨item, hitem, hitemSpells⟩
      cases hn : item.integer with
      | none => exact ⟨item, hitem, (spells_iff_of_not_integer hn (hitems item hitem) v).mp hitemSpells⟩
      | some n =>
        obtain ⟨hspells, hlist⟩ := texts_of_integer hn v
        have hv := hspells.mp hitemSpells
        by_cases hkept : keptF64 n = n
        · exact ⟨item, hitem, hlist.mpr (hv.trans (by rw [hkept]))⟩
        · obtain ⟨other, hother, -, htext⟩ := (h item hitem n hn hkept).1 hv
          exact ⟨other, hother, htext⟩

end Expr

end

/-! ## Operands -/

namespace Expr

theorem exists_of_map {α β : Type} {x : Except String α} {f : α → β} {b : β} (h : x.map f = .ok b) :
    ∃ a, x = .ok a ∧ b = f a := by
  cases x with
  | error e => cases h
  | ok a => exact ⟨a, rfl, (Except.ok.inj h).symm⟩

theorem exists_of_bind {α β : Type} {x : Except String α} {f : α → Except String β} {b : β}
    (h : x.bind f = .ok b) : ∃ a, x = .ok a ∧ f a = .ok b := by
  cases x with
  | error e => cases h
  | ok a => exact ⟨a, rfl, h⟩

/-- The scalar operand of a rule. -/
def scalarOf [JsonText] (var : String) (value : Json) : Except String String :=
  match value.scalar with
  | some s => .ok s
  | none => .error ("rule for '" ++ var ++ "' needs a scalar value")

theorem scalarOf_eq [JsonText] {var s : String} {value : Json} (h : scalarOf var value = .ok s) :
    value.scalar = some s := by
  unfold scalarOf at h
  split at h
  · rw [‹value.scalar = _›, Except.ok.inj h]
  · cases h

theorem has_means [JsonText] {value : Json} {needle : String} (h : value.scalar = some needle) (v : String) :
    (((splitChar ',' v).map trim).any fun part => decide (part = needle)) = true ↔
      ∃ needle, value.scalar = some needle ∧ needle ∈ (splitChar ',' v).map trim := by
  rw [List.any_eq_true]
  constructor
  · rintro ⟨part, hpart, heq⟩
    exact ⟨needle, h, of_decide_eq_true heq ▸ hpart⟩
  · rintro ⟨other, hother, hmem⟩
    obtain rfl := Option.some.inj (hother.symm.trans h)
    exact ⟨other, hmem, decide_eq_true rfl⟩

def numberOf (var op : String) (value : Json) : Except String Float :=
  match value.numeric with
  | some n => .ok n
  | none => .error ("rule for '" ++ var ++ "' (" ++ op ++ ") needs a numeric value")

theorem numberOf_eq {var op : String} {value : Json} {n : Float} (h : numberOf var op value = .ok n) :
    value.numeric = some n := by
  unfold numberOf at h
  split at h
  · rw [‹value.numeric = _›, Except.ok.inj h]
  · cases h

/-- A number read from the text compares to `n`. -/
def compares (test : Float → Bool) (v : String) : Bool := (parseF64 v).any test

theorem compares_iff (test : Float → Bool) (v : String) :
    compares test v = true ↔ ∃ x, parseF64 v = some x ∧ test x = true := Option.any_eq_true _ _

/-- An order comparison decides by the two numbers. -/
theorem compares_means {value : Json} {n : Float} (h : value.numeric = some n) (v : String)
    (test : Float → Float → Bool) : compares (test n) v = true ↔
      ∃ n x, value.numeric = some n ∧ parseF64 v = some x ∧ test n x = true := by
  rw [compares_iff]
  constructor
  · rintro ⟨x, hx, htest⟩
    exact ⟨n, x, h, hx, htest⟩
  · rintro ⟨m, x, hm, hx, htest⟩
    obtain rfl := Option.some.inj (hm.symm.trans h)
    exact ⟨x, hx, htest⟩

/-- The texts of the items, up to one that is no scalar. -/
def itemTexts [F64Display] (var : String) : List Json → Except String (List String)
  | [] => .ok []
  | item :: items =>
    match item.listItem with
    | some s => (itemTexts var items).map (s :: ·)
    | none => .error ("rule for '" ++ var ++ "': array items must be scalars")

def stringList [F64Display] (var op : String) (value : Json) : Except String (List String) :=
  match value.asArray with
  | some items => itemTexts var items
  | none => .error ("rule for '" ++ var ++ "' (" ++ op ++ ") needs an array value")

theorem itemTexts_eq [F64Display] {var : String} {items : List Json} {texts : List String}
    (h : itemTexts var items = .ok texts) : items.map Json.listItem = texts.map some := by
  induction items generalizing texts with
  | nil =>
    obtain rfl := Except.ok.inj h
    rfl
  | cons item items ih =>
    unfold itemTexts at h
    split at h
    · rename_i s hs
      obtain ⟨rest, hrest, rfl⟩ := exists_of_map h
      rw [List.map_cons, List.map_cons, hs, ih hrest]
    · cases h

theorem stringList_eq [F64Display] {var op : String} {value : Json} {texts : List String}
    (h : stringList var op value = .ok texts) :
    (value.asArray.getD []).map Json.listItem = texts.map some := by
  unfold stringList at h
  split at h
  · rename_i items hitems
    rw [hitems]
    exact itemTexts_eq h
  · cases h

theorem mem_texts_iff [F64Display] {items : List Json} {texts : List String}
    (h : items.map Json.listItem = texts.map some) (v : String) :
    v ∈ texts ↔ ∃ item ∈ items, item.listItem = some v := by
  rw [← List.mem_map, h, List.mem_map]
  constructor
  · exact fun hv => ⟨v, hv, rfl⟩
  · rintro ⟨text, htext, heq⟩
    rwa [← Option.some.inj heq]

/-- All the bits of an address may count. -/
theorem width_le_width (ip : IpAddr) : ip.width ≤ ip.width := Nat.le_refl _

/-- A network, or an address alone. -/
def netOf [IpNetParser] (s : String) : Option Network :=
  (IpNetParser.parse s).or ((IpAddr.parse s).map fun ip => ⟨ip, ip.width, width_le_width ip⟩)

def netsOf [IpNetParser] (var : String) : List String → Except String (List Network)
  | [] => .ok []
  | s :: rest =>
    match netOf s with
    | some net => (netsOf var rest).map (net :: ·)
    | none => .error ("invalid IP/CIDR '" ++ s ++ "' for '" ++ var ++ "'")

theorem netsOf_eq [IpNetParser] {var : String} {texts : List String} {nets : List Network}
    (h : netsOf var texts = .ok nets) : texts.map netOf = nets.map some := by
  induction texts generalizing nets with
  | nil =>
    obtain rfl := Except.ok.inj h
    rfl
  | cons text texts ih =>
    unfold netsOf at h
    split at h
    · rename_i net hnet
      obtain ⟨rest, hrest, rfl⟩ := exists_of_map h
      rw [List.map_cons, List.map_cons, hnet, ih hrest]
    · cases h

theorem ipMatch_means [F64Display] [IpNetParser] {items : List Json} {texts : List String} {nets : List Network}
    (htexts : items.map Json.listItem = texts.map some) (hnets : texts.map netOf = nets.map some)
    (ip : IpAddr) : (nets.any fun net => decide (net.Contains ip)) = true ↔
      ∃ item ∈ items, ∃ net, item.listItem.bind netOf = some net ∧ net.Contains ip := by
  have hmem : ∀ net, net ∈ nets ↔ ∃ item ∈ items, item.listItem.bind netOf = some net := by
    intro net
    have hbind : items.map (fun item => item.listItem.bind netOf) = nets.map some := by
      have hparts : items.map (fun item => item.listItem.bind netOf) =
          (items.map Json.listItem).map fun text => text.bind netOf := by
        rw [List.map_map]
        rfl
      rw [hparts, htexts, List.map_map, ← hnets]
      rfl
    rw [← List.mem_map, hbind, List.mem_map]
    constructor
    · exact fun hnet => ⟨net, hnet, rfl⟩
    · rintro ⟨other, hother, heq⟩
      rwa [← Option.some.inj heq]
  rw [List.any_eq_true]
  constructor
  · rintro ⟨net, hnet, hcontains⟩
    obtain ⟨item, hitem, heq⟩ := (hmem net).mp hnet
    exact ⟨item, hitem, net, heq, of_decide_eq_true hcontains⟩
  · rintro ⟨item, hitem, net, heq, hcontains⟩
    exact ⟨net, (hmem net).mpr ⟨item, hitem, heq⟩, decide_eq_true hcontains⟩

def operatorOf (var : String) (rest : List Json) : Except String String :=
  match rest.head?.bind Json.asStr with
  | some op => .ok op
  | none => .error ("rule for '" ++ var ++ "' is missing an operator")

def valueOf (var : String) (rest : List Json) : Except String Json :=
  match rest.tail.head? with
  | some value => .ok value
  | none => .error ("rule for '" ++ var ++ "' is missing a value")

/-- A rule that is read begins with its operator and its operand. -/
theorem exists_operands {var op : String} {rest : List Json} {value : Json} (hop : operatorOf var rest = .ok op)
    (hvalue : valueOf var rest = .ok value) : ∃ more, rest = .string op :: value :: more := by
  unfold operatorOf at hop
  split at hop
  · rename_i text htext
    obtain rfl := Except.ok.inj hop
    unfold valueOf at hvalue
    split at hvalue
    · rename_i operand hoperand
      obtain rfl := Except.ok.inj hvalue
      cases rest with
      | nil => cases htext
      | cons first rest =>
        cases rest with
        | nil => cases hoperand
        | cons second more =>
          obtain rfl := Option.some.inj hoperand
          cases first with
          | string s =>
            obtain rfl := Option.some.inj htext
            exact ⟨more, rfl⟩
          | _ => cases htext
    · cases hvalue
  · cases hop

end Expr

/-! ## Expressions -/

inductive Op [RegexEngine] where
  | eq (expected : String)
  | ne (expected : String)
  | gt (n : Float)
  | ge (n : Float)
  | lt (n : Float)
  | le (n : Float)
  | regex (re : RegexEngine.Regex)
  | in (list : List String)
  | has (needle : String)
  | ipMatch (nets : List Network)

namespace Expr

def regexOf [RegexEngine] (var pattern : String) : Except String Op :=
  match RegexEngine.new pattern with
  | .ok re => .ok (.regex re)
  | .error e => .error ("invalid regex for '" ++ var ++ "': " ++ e)

theorem regexOf_eq [RegexEngine] {var pattern : String} {op : Op} (h : regexOf var pattern = .ok op) :
    ∃ re, RegexEngine.new pattern = .ok re ∧ op = .regex re := by
  unfold regexOf at h
  split at h
  · exact ⟨_, ‹_›, (Except.ok.inj h).symm⟩
  · cases h

/-- The pattern that a rule's operand makes, matched. -/
theorem regex_means [RegexEngine] [JsonText] {value : Json} {s : String} {re : RegexEngine.Regex} (h : value.scalar = some s)
    (flags : String) (hre : RegexEngine.new (flags ++ s) = .ok re) (v : String) :
    RegexEngine.isMatch re v = true ↔ ∃ pattern re, value.scalar = some pattern ∧
      RegexEngine.new (flags ++ pattern) = .ok re ∧ RegexEngine.isMatch re v = true := by
  constructor
  · intro hmatch
    exact ⟨s, re, h, hre, hmatch⟩
  · rintro ⟨pattern, other, hpattern, hother, hmatch⟩
    obtain rfl := Option.some.inj (hpattern.symm.trans h)
    obtain rfl := Except.ok.inj (hother.symm.trans hre)
    exact hmatch

end Expr

section Expr

variable [RegexEngine] [IpNetParser] [JsonText] [F64Display]

inductive Node where
  | and (children : List Node)
  | or (children : List Node)
  | rule (var : String) (negate : Bool) (op : Op)

/-- A compiled condition expression. -/
structure Expr where
  root : Node

namespace Expr

/-! ### Parsing -/

/-- The operator of a rule, with its operand. -/
def parseOp (var op : String) (value : Json) : Except String Op :=
  match op with
  | "==" => (scalarOf var value).map .eq
  | "~=" | "!=" => (scalarOf var value).map .ne
  | ">" => (numberOf var op value).map .gt
  | ">=" => (numberOf var op value).map .ge
  | "<" => (numberOf var op value).map .lt
  | "<=" => (numberOf var op value).map .le
  | "~~" => (scalarOf var value).bind (regexOf var)
  | "~*" => (scalarOf var value).bind fun s => regexOf var ("(?i)" ++ s)
  | "in" => (stringList var op value).map .in
  | "has" => (scalarOf var value).map .has
  | "ipmatch" => ((stringList var op value).bind (netsOf var)).map .ipMatch
  | other => .error ("unknown operator '" ++ other ++
      "' — supported: ==, ~=, >, >=, <, <=, ~~, ~*, in, has, ipmatch")

/-- The operator and the operand of a rule, and whether it is negated: `op, value` or `"!", op, value`. -/
def operands (rest : List Json) : Bool × List Json :=
  match rest with
  | .string "!" :: rest => (true, rest)
  | rest => (false, rest)

/-- `[var, op, value]` or `[var, "!", op, value]`. -/
def parseRule (first : Json) (rest : List Json) : Except String Node :=
  match first with
  | .string var => do
    let rest := operands rest
    let op ← operatorOf var rest.2
    let value ← valueOf var rest.2
    let parsed ← parseOp var op value
    return .rule var rest.1 parsed
  | _ => .error "rule variable must be a string"

/-- The two words that make a group of rules. -/
inductive Group where
  | and
  | or

def groupOf (first : Json) : Option Group :=
  match first with
  | .string word =>
    if eqIgnoreAsciiCase word "and" then some .and
    else if eqIgnoreAsciiCase word "or" then some .or
    else none
  | _ => none

mutual

/-- `parse_node`. -/
def parseNode : Json → Except String Node
  | .array [] => .error "empty rule"
  | .array (first :: rest) =>
    match groupOf first with
    | some .and => (parseNodes rest).map .and
    | some .or => (parseNodes rest).map .or
    | none => parseRule first rest
  | _ => .error "each rule must be an array"

/-- The rules of a list, up to one that is malformed. -/
def parseNodes : List Json → Except String (List Node)
  | [] => .ok []
  | v :: vs => (parseNode v).bind fun node => (parseNodes vs).map (node :: ·)

end

/-- `Expr::parse`. -/
def parse (v : Json) : Except String Expr :=
  match v.asArray with
  | some rules => (parseNodes rules).map fun nodes => ⟨.and nodes⟩
  | none => .error "vars must be an array of rules"

mutual

/-- The rules of a value, out of their groups. -/
def rulesOf : Json → List (Json × List Json)
  | .array (first :: rest) =>
    match groupOf first with
    | some _ => rulesIn rest
    | none => [(first, rest)]
  | _ => []

def rulesIn : List Json → List (Json × List Json)
  | [] => []
  | v :: vs => rulesOf v ++ rulesIn vs

end

mutual

/-- Every rule of a value that is read is read by itself. -/
theorem parse_rulesOf : ∀ (v : Json) (node : Node), parseNode v = .ok node → ∀ rule ∈ rulesOf v,
    groupOf rule.1 = none ∧ ∃ node, parseRule rule.1 rule.2 = .ok node
  | .array (first :: rest), node, h, rule, hrule => by
    rw [parseNode] at h
    rw [rulesOf] at hrule
    split at h
    · rename_i hgroup
      obtain ⟨nodes, hnodes, -⟩ := exists_of_map h
      rw [hgroup] at hrule
      exact parse_rulesIn rest nodes hnodes rule hrule
    · rename_i hgroup
      obtain ⟨nodes, hnodes, -⟩ := exists_of_map h
      rw [hgroup] at hrule
      exact parse_rulesIn rest nodes hnodes rule hrule
    · rename_i hgroup
      rw [hgroup] at hrule
      obtain rfl := List.mem_singleton.mp hrule
      exact ⟨hgroup, node, h⟩
  | .array [], _, h, _, _ => by cases h
  | .null, _, h, _, _ => by cases h
  | .bool _, _, h, _, _ => by cases h
  | .number _, _, h, _, _ => by cases h
  | .string _, _, h, _, _ => by cases h
  | .object _, _, h, _, _ => by cases h

theorem parse_rulesIn : ∀ (vs : List Json) (nodes : List Node), parseNodes vs = .ok nodes →
    ∀ rule ∈ rulesIn vs, groupOf rule.1 = none ∧ ∃ node, parseRule rule.1 rule.2 = .ok node
  | [], _, _, _, hrule => by cases hrule
  | v :: vs, nodes, h, rule, hrule => by
    rw [parseNodes] at h
    obtain ⟨node, hnode, h⟩ := exists_of_bind h
    obtain ⟨rest, hrest, -⟩ := exists_of_map h
    rw [rulesIn] at hrule
    rcases List.mem_append.mp hrule with hrule | hrule
    · exact parse_rulesOf v node hnode rule hrule
    · exact parse_rulesIn vs rest hrest rule hrule

end

/-! ### Groups -/

mutual

/-- A rule or a group holds, where `leaf` says which rules do. -/
def Holds (leaf : Json → List Json → Prop) : Json → Prop
  | .array (first :: rest) =>
    match groupOf first with
    | some .and => AllHold leaf rest
    | some .or => AnyHolds leaf rest
    | none => leaf first rest
  | _ => False

def AllHold (leaf : Json → List Json → Prop) : List Json → Prop
  | [] => True
  | v :: vs => Holds leaf v ∧ AllHold leaf vs

def AnyHolds (leaf : Json → List Json → Prop) : List Json → Prop
  | [] => False
  | v :: vs => Holds leaf v ∨ AnyHolds leaf vs

end

omit [RegexEngine] [IpNetParser] [JsonText] [F64Display] in
theorem allHold_iff {leaf : Json → List Json → Prop} {vs : List Json} :
    AllHold leaf vs ↔ ∀ v ∈ vs, Holds leaf v := by
  induction vs with
  | nil => exact iff_of_true trivial (List.forall_mem_nil _)
  | cons v vs ih => rw [AllHold, ih, List.forall_mem_cons]

omit [RegexEngine] [IpNetParser] [JsonText] [F64Display] in
theorem anyHolds_iff {leaf : Json → List Json → Prop} {vs : List Json} :
    AnyHolds leaf vs ↔ ∃ v ∈ vs, Holds leaf v := by
  induction vs with
  | nil => exact iff_of_false id (fun ⟨_, h, _⟩ => nomatch h)
  | cons v vs ih => rw [AnyHolds, ih, List.exists_mem_cons_iff]

/-! ### Evaluation -/

/-- `eval_op`. -/
def evalOp (op : Op) (value : Option String) : Bool :=
  let v := value.getD ""
  match op with
  | .eq expected => decide (v = expected)
  | .ne expected => decide (v ≠ expected)
  | .gt n => compares (fun x => n.lt x) v
  | .ge n => compares (fun x => n.le x) v
  | .lt n => compares (fun x => x.lt n) v
  | .le n => compares (fun x => x.le n) v
  | .regex re => RegexEngine.isMatch re v
  | .in list => list.any fun item => decide (item = v)
  | .has needle => ((splitChar ',' v).map trim).any fun part => decide (part = needle)
  | .ipMatch nets =>
    (value.bind IpAddr.parse).any fun ip => nets.any fun net => decide (net.Contains ip)

/-- What an operator demands of a variable, which is absent or has a text. -/
def OpMeans (op : String) (value : Json) (var : Option String) : Prop :=
  let v := var.getD ""
  match op with
  | "==" => value.scalar = some v
  | "~=" | "!=" => value.scalar ≠ some v
  | ">" => ∃ n x, value.numeric = some n ∧ parseF64 v = some x ∧ n.lt x = true
  | ">=" => ∃ n x, value.numeric = some n ∧ parseF64 v = some x ∧ n.le x = true
  | "<" => ∃ n x, value.numeric = some n ∧ parseF64 v = some x ∧ x.lt n = true
  | "<=" => ∃ n x, value.numeric = some n ∧ parseF64 v = some x ∧ x.le n = true
  | "~~" => ∃ pattern re, value.scalar = some pattern ∧ RegexEngine.new pattern = .ok re ∧
      RegexEngine.isMatch re v = true
  | "~*" => ∃ pattern re, value.scalar = some pattern ∧ RegexEngine.new ("(?i)" ++ pattern) = .ok re ∧
      RegexEngine.isMatch re v = true
  | "in" => ∃ item ∈ value.asArray.getD [], Spells item v
  | "has" => ∃ needle, value.scalar = some needle ∧ needle ∈ (splitChar ',' v).map trim
  | "ipmatch" => ∃ ip, var.bind IpAddr.parse = some ip ∧
      ∃ item ∈ value.asArray.getD [], ∃ net, item.listItem.bind netOf = some net ∧ net.Contains ip
  | _ => False

/-- Every operator decides what it demands; `in` where the integers are spelled alike. -/
theorem evalOp_iff {var op : String} {value : Json} {parsed : Op} (h : parseOp var op value = .ok parsed)
    (v : Option String) : (evalOp parsed v = true ↔ OpMeans op value v) ↔
      (op = "in" → SpelledAlike (value.asArray.getD []) (v.getD "")) := by
  unfold parseOp at h
  split at h
  · -- `==`
    obtain ⟨s, hs, rfl⟩ := exists_of_map h
    refine iff_of_true ?_ (fun hin => absurd hin (by decide))
    show decide (v.getD "" = s) = true ↔ value.scalar = some (v.getD "")
    rw [decide_eq_true_iff, scalarOf_eq hs, Option.some_inj, eq_comm]
  · -- `~=`, and then `!=`
    obtain ⟨s, hs, rfl⟩ := exists_of_map h
    refine iff_of_true ?_ (fun hin => absurd hin (by decide))
    show decide (v.getD "" ≠ s) = true ↔ value.scalar ≠ some (v.getD "")
    rw [decide_eq_true_iff, scalarOf_eq hs, Ne, Ne, Option.some_inj, eq_comm]
  · obtain ⟨s, hs, rfl⟩ := exists_of_map h
    refine iff_of_true ?_ (fun hin => absurd hin (by decide))
    show decide (v.getD "" ≠ s) = true ↔ value.scalar ≠ some (v.getD "")
    rw [decide_eq_true_iff, scalarOf_eq hs, Ne, Ne, Option.some_inj, eq_comm]
  · -- `>`, `>=`, `<` and `<=`
    obtain ⟨n, hn, rfl⟩ := exists_of_map h
    refine iff_of_true ?_ (fun hin => absurd hin (by decide))
    exact compares_means (numberOf_eq hn) _ fun n x => n.lt x
  · obtain ⟨n, hn, rfl⟩ := exists_of_map h
    refine iff_of_true ?_ (fun hin => absurd hin (by decide))
    exact compares_means (numberOf_eq hn) _ fun n x => n.le x
  · obtain ⟨n, hn, rfl⟩ := exists_of_map h
    refine iff_of_true ?_ (fun hin => absurd hin (by decide))
    exact compares_means (numberOf_eq hn) _ fun n x => x.lt n
  · obtain ⟨n, hn, rfl⟩ := exists_of_map h
    refine iff_of_true ?_ (fun hin => absurd hin (by decide))
    exact compares_means (numberOf_eq hn) _ fun n x => x.le n
  · -- `~~` compiles the pattern as it is, `~*` with the flag before it
    obtain ⟨s, hs, hre⟩ := exists_of_bind h
    obtain ⟨re, hnew, rfl⟩ := regexOf_eq hre
    refine iff_of_true ?_ (fun hin => absurd hin (by decide))
    have hmeans := regex_means (scalarOf_eq hs) "" (by rwa [String.empty_append]) (v.getD "")
    simp only [String.empty_append] at hmeans
    exact hmeans
  · obtain ⟨s, hs, hre⟩ := exists_of_bind h
    obtain ⟨re, hnew, rfl⟩ := regexOf_eq hre
    refine iff_of_true ?_ (fun hin => absurd hin (by decide))
    exact regex_means (scalarOf_eq hs) "(?i)" hnew (v.getD "")
  · -- `in` keeps the items as texts, so that the spelling counts
    obtain ⟨texts, htexts, rfl⟩ := exists_of_map h
    have hmap := stringList_eq htexts
    have hitems : ∀ item ∈ value.asArray.getD [], item.listItem ≠ none := by
      intro item hitem hnone
      have hmem : item.listItem ∈ texts.map some := hmap ▸ List.mem_map_of_mem hitem
      rw [hnone] at hmem
      obtain ⟨s, -, hs⟩ := List.mem_map.mp hmem
      cases hs
    rw [forall_prop_of_true rfl, ← spelledAlike_iff hitems, ← mem_texts_iff hmap]
    have heval : evalOp (.in texts) v = true ↔ v.getD "" ∈ texts := by
      show (texts.any fun item => decide (item = v.getD "")) = true ↔ _
      rw [List.any_eq_true]
      constructor
      · rintro ⟨item, hitem, heq⟩
        exact of_decide_eq_true heq ▸ hitem
      · exact fun hmem => ⟨_, hmem, decide_eq_true rfl⟩
    rw [heval]
    rfl
  · -- `has`
    obtain ⟨s, hs, rfl⟩ := exists_of_map h
    refine iff_of_true ?_ (fun hin => absurd hin (by decide))
    exact has_means (scalarOf_eq hs) _
  · -- `ipmatch`
    obtain ⟨nets, hnets, rfl⟩ := exists_of_map h
    obtain ⟨texts, htexts, hnets⟩ := exists_of_bind hnets
    refine iff_of_true ?_ (fun hin => absurd hin (by decide))
    show ((v.bind IpAddr.parse).any fun ip => nets.any fun net => decide (net.Contains ip)) = true ↔ _
    rw [Option.any_eq_true _ _]
    refine exists_congr fun ip => and_congr_right fun _ => ?_
    exact ipMatch_means (stringList_eq htexts) (netsOf_eq hnets) ip
  · cases h

/-! ### Rules -/

variable [CaseMapping]

mutual

/-- `eval_node`. -/
def evalNode (ctx : Context) : Node → Bool
  | .and children => evalAll ctx children
  | .or children => evalAny ctx children
  | .rule var negate op =>
    let result := evalOp op (Vars.resolve ctx var)
    if negate then !result else result

def evalAll (ctx : Context) : List Node → Bool
  | [] => true
  | node :: nodes => evalNode ctx node && evalAll ctx nodes

def evalAny (ctx : Context) : List Node → Bool
  | [] => false
  | node :: nodes => evalNode ctx node || evalAny ctx nodes

end

/-- `Expr::eval`. -/
def eval (e : Expr) (ctx : Context) : Bool := evalNode ctx e.root

/-- The expressions that a traffic split takes. -/
instance : VarsExpr := ⟨Expr, parse, eval⟩

def RuleMeans (ctx : Context) (first : Json) (rest : List Json) : Prop :=
  match first, operands rest with
  | .string var, (negate, .string op :: value :: _) =>
    if negate then ¬ OpMeans op value (Vars.resolve ctx var) else OpMeans op value (Vars.resolve ctx var)
  | _, _ => False

mutual

/-- What a rule or a group demands of the context. -/
def Means (ctx : Context) : Json → Prop
  | .array (first :: rest) =>
    match groupOf first with
    | some .and => AllMean ctx rest
    | some .or => AnyMeans ctx rest
    | none => RuleMeans ctx first rest
  | _ => False

def AllMean (ctx : Context) : List Json → Prop
  | [] => True
  | v :: vs => Means ctx v ∧ AllMean ctx vs

def AnyMeans (ctx : Context) : List Json → Prop
  | [] => False
  | v :: vs => Means ctx v ∨ AnyMeans ctx vs

end

/-- An expression is a conjunction. -/
def ExprMeans (ctx : Context) (v : Json) : Prop := AllMean ctx (v.asArray.getD [])

mutual

/-- Meaning goes through groups as holding does. -/
theorem means_iff_holds (ctx : Context) : ∀ v : Json, Means ctx v ↔ Holds (RuleMeans ctx) v
  | .array (first :: rest) => by
    rw [Means, Holds]
    split
    · exact (allMean_iff_allHold ctx rest).1
    · exact (allMean_iff_allHold ctx rest).2
    · exact Iff.rfl
  | .array [] => Iff.rfl
  | .null => Iff.rfl
  | .bool _ => Iff.rfl
  | .number _ => Iff.rfl
  | .string _ => Iff.rfl
  | .object _ => Iff.rfl

theorem allMean_iff_allHold (ctx : Context) : ∀ vs : List Json,
    (AllMean ctx vs ↔ AllHold (RuleMeans ctx) vs) ∧ (AnyMeans ctx vs ↔ AnyHolds (RuleMeans ctx) vs)
  | [] => ⟨Iff.rfl, Iff.rfl⟩
  | v :: vs => by
    have hfirst := means_iff_holds ctx v
    have hrest := allMean_iff_allHold ctx vs
    rw [AllMean, AllHold, AnyMeans, AnyHolds]
    exact ⟨and_congr hfirst hrest.1, or_congr hfirst hrest.2⟩

end

/-- The integers of a rule's list are spelled alike, if it is a rule with `in`. -/
def RuleSpelledAlike (ctx : Context) (first : Json) (rest : List Json) : Prop :=
  match first, operands rest with
  | .string var, (_, .string "in" :: value :: _) =>
    SpelledAlike (value.asArray.getD []) ((Vars.resolve ctx var).getD "")
  | _, _ => True

theorem evalRule_iff {first : Json} {rest : List Json} {node : Node} (h : parseRule first rest = .ok node)
    (ctx : Context) : (evalNode ctx node = true ↔ RuleMeans ctx first rest) ↔
      RuleSpelledAlike ctx first rest := by
  unfold parseRule at h
  cases first with
  | string var =>
    obtain ⟨op, hop, h⟩ := exists_of_bind h
    obtain ⟨value, hvalue, h⟩ := exists_of_bind h
    obtain ⟨parsed, hparsed, h⟩ := exists_of_bind h
    obtain rfl := Except.ok.inj h
    obtain ⟨more, hmore⟩ := exists_operands hop hvalue
    have hrest : operands rest = ((operands rest).1, .string op :: value :: more) := by rw [← hmore]
    have hop := evalOp_iff hparsed (Vars.resolve ctx var)
    have halike : RuleSpelledAlike ctx (.string var) rest ↔ (op = "in" →
        SpelledAlike (value.asArray.getD []) ((Vars.resolve ctx var).getD "")) := by
      unfold RuleSpelledAlike
      rw [hrest]
      by_cases hin : op = "in"
      · subst hin
        exact ⟨fun h _ => h, fun h => h rfl⟩
      · refine iff_of_true ?_ (fun h => absurd h hin)
        split
        · rename_i heq
          obtain ⟨-, hcons⟩ := Prod.mk.inj heq
          exact absurd (Json.string.inj (List.cons.inj hcons).1) hin
        · trivial
    rw [halike, ← hop]
    unfold RuleMeans
    rw [evalNode, hrest]
    cases (operands rest).1 with
    | false => exact Iff.rfl
    | true =>
      dsimp only
      rw [if_pos rfl, if_pos rfl, Bool.not_eq_true', ← Bool.not_eq_true]
      exact not_iff_not
  | _ => cases h

mutual

/-- A value decides whether it holds where its rules do. -/
theorem evalNode_iff (ctx : Context) {leaf : Json → List Json → Prop} : ∀ (v : Json) (node : Node),
    parseNode v = .ok node →
    (∀ rule ∈ rulesOf v, ∀ node, parseRule rule.1 rule.2 = .ok node →
      (evalNode ctx node = true ↔ leaf rule.1 rule.2)) →
    (evalNode ctx node = true ↔ Holds leaf v)
  | .array (first :: rest), node, h, hrules => by
    rw [parseNode] at h
    rw [rulesOf] at hrules
    rw [Holds]
    split at h
    · rename_i hgroup
      obtain ⟨nodes, hnodes, rfl⟩ := exists_of_map h
      rw [hgroup] at hrules
      exact (evalNodes_iff ctx rest nodes hnodes hrules).1
    · rename_i hgroup
      obtain ⟨nodes, hnodes, rfl⟩ := exists_of_map h
      rw [hgroup] at hrules
      exact (evalNodes_iff ctx rest nodes hnodes hrules).2
    · rename_i hgroup
      rw [hgroup] at hrules
      exact hrules _ List.mem_cons_self node h
  | .array [], node, h, _ => by cases h
  | .null, node, h, _ => by cases h
  | .bool _, node, h, _ => by cases h
  | .number _, node, h, _ => by cases h
  | .string _, node, h, _ => by cases h
  | .object _, node, h, _ => by cases h

theorem evalNodes_iff (ctx : Context) {leaf : Json → List Json → Prop} : ∀ (vs : List Json) (nodes : List Node),
    parseNodes vs = .ok nodes →
    (∀ rule ∈ rulesIn vs, ∀ node, parseRule rule.1 rule.2 = .ok node →
      (evalNode ctx node = true ↔ leaf rule.1 rule.2)) →
    (evalAll ctx nodes = true ↔ AllHold leaf vs) ∧ (evalAny ctx nodes = true ↔ AnyHolds leaf vs)
  | [], nodes, h, _ => by
    obtain rfl := Except.ok.inj h
    exact ⟨iff_of_true rfl trivial, iff_of_false Bool.false_ne_true id⟩
  | v :: vs, nodes, h, hrules => by
    rw [parseNodes] at h
    obtain ⟨node, hnode, h⟩ := exists_of_bind h
    obtain ⟨rest, hrest, rfl⟩ := exists_of_map h
    rw [rulesIn] at hrules
    have hfirst := evalNode_iff ctx v node hnode fun rule hrule => hrules rule (List.mem_append_left _ hrule)
    have htail := evalNodes_iff ctx vs rest hrest fun rule hrule => hrules rule (List.mem_append_right _ hrule)
    rw [evalAll, evalAny, AllHold, AnyHolds, Bool.and_eq_true, Bool.or_eq_true]
    exact ⟨and_congr hfirst htail.1, or_congr hfirst htail.2⟩

end

/-- A rule alone holds: it is read, and evaluated. -/
def RuleHolds (ctx : Context) (first : Json) (rest : List Json) : Prop :=
  ∃ node, parseRule first rest = .ok node ∧ evalNode ctx node = true

theorem evalNode_iff_ruleHolds {ctx : Context} {first : Json} {rest : List Json} {node : Node}
    (h : parseRule first rest = .ok node) : evalNode ctx node = true ↔ RuleHolds ctx first rest := by
  constructor
  · exact fun heval => ⟨node, h, heval⟩
  · rintro ⟨other, hother, heval⟩
    rwa [Except.ok.inj (h.symm.trans hother)]

/-! ### The whole -/

/-- Evaluated, the value decides what it says. -/
def Right (ctx : Context) (v : Json) : Prop :=
  ∀ e, parse v = .ok e → (e.eval ctx = true ↔ ExprMeans ctx v)

/-- The rules of a value. -/
def rules (v : Json) : List (Json × List Json) := rulesIn (v.asArray.getD [])

/-- A rule alone. -/
def single (rule : Json × List Json) : Json := .array [.array (rule.1 :: rule.2)]

theorem right_of_alike {ctx : Context} {v : Json}
    (h : ∀ rule ∈ rules v, RuleSpelledAlike ctx rule.1 rule.2) : Right ctx v := by
  intro e he
  unfold parse at he
  split at he
  · rename_i items hitems
    obtain ⟨nodes, hnodes, rfl⟩ := exists_of_map he
    unfold rules at h
    rw [hitems] at h
    unfold ExprMeans
    rw [hitems]
    rw [(allMean_iff_allHold ctx _).1]
    exact (evalNodes_iff ctx items nodes hnodes fun rule hrule node hnode =>
      (evalRule_iff hnode ctx).mpr (h rule hrule)).1
  · cases he

/-- A rule alone is right exactly where its integers are spelled alike. -/
theorem right_single_iff {ctx : Context} {rule : Json × List Json} (hgroup : groupOf rule.1 = none)
    {node : Node} (hnode : parseRule rule.1 rule.2 = .ok node) :
    Right ctx (single rule) ↔ RuleSpelledAlike ctx rule.1 rule.2 := by
  have hparse : parse (single rule) = .ok ⟨.and [node]⟩ := by
    show (parseNodes [.array (rule.1 :: rule.2)]).map _ = _
    rw [parseNodes, parseNode, hgroup]
    dsimp only
    rw [hnode]
    rfl
  have hmeans : ExprMeans ctx (single rule) ↔ RuleMeans ctx rule.1 rule.2 := by
    show AllMean ctx [.array (rule.1 :: rule.2)] ↔ _
    rw [AllMean, Means, hgroup, AllMean]
    exact and_iff_left trivial
  rw [← evalRule_iff hnode ctx]
  constructor
  · intro h
    rw [← hmeans, ← h _ hparse]
    show _ ↔ (evalNode ctx node && true) = true
    rw [Bool.and_true]
  · intro h e he
    obtain rfl := Except.ok.inj (hparse.symm.trans he)
    rw [hmeans, ← h]
    show (evalNode ctx node && true) = true ↔ _
    rw [Bool.and_true]

/-- **Meaning.**  An accepted expression and each of its rules decide what they say exactly where no
    integer in a list is decided by what a double makes of it. -/
theorem eval_means_iff {v : Json} {e : Expr} (h : parse v = .ok e) (ctx : Context) :
    (Right ctx v ∧ ∀ rule ∈ rules v, Right ctx (single rule)) ↔
      ∀ rule ∈ rules v, RuleSpelledAlike ctx rule.1 rule.2 := by
  have hread : ∀ rule ∈ rules v, groupOf rule.1 = none ∧ ∃ node, parseRule rule.1 rule.2 = .ok node := by
    unfold parse at h
    split at h
    · rename_i items hitems
      obtain ⟨nodes, hnodes, -⟩ := exists_of_map h
      unfold rules
      rw [hitems]
      exact parse_rulesIn items nodes hnodes
    · cases h
  have hsingle : ∀ rule ∈ rules v, (Right ctx (single rule) ↔ RuleSpelledAlike ctx rule.1 rule.2) := by
    intro rule hrule
    obtain ⟨hgroup, node, hnode⟩ := hread rule hrule
    exact right_single_iff hgroup hnode
  constructor
  · rintro ⟨-, hright⟩ rule hrule
    exact (hsingle rule hrule).mp (hright rule hrule)
  · intro halike
    exact ⟨right_of_alike halike, fun rule hrule => (hsingle rule hrule).mpr (halike rule hrule)⟩

end Expr

end Expr

/-! ## An integer past 2^53 -/

namespace Expr

/-- A host among some items. -/
def hostIn (items : List Json) : Json := .array [.array [.string "host", .string "in", .array items]]

/-- A request to a host. -/
def requestTo (host : String) : Context := Context.new { (default : GatewayRequest) with host := host }

/-- A build without regular expressions. -/
abbrev noRegex : RegexEngine where
  Regex := Empty
  new _ := .error "no regular expressions"
  isMatch re := re.elim
  replace re := re.elim

theorem eval_means_iff_seven :
    let _ : RegexEngine := noRegex
    let _ : IpNetParser := ⟨fun _ => none⟩
    let _ : JsonCodec := compactJson
    let _ : F64Display := ⟨fun _ => "0.5"⟩
    let _ : CaseMapping := asciiCaseMapping
    Right (requestTo "7") (hostIn [.number (.posInt 7)]) := by
  intro _ _ _ _ _
  refine ((@eval_means_iff _ _ _ _ _ (hostIn [.number (.posInt 7)]) _ rfl (requestTo "7")).mpr fun rule hrule => ?_).1
  obtain rfl := List.mem_singleton.mp hrule
  show SpelledAlike [.number (.posInt 7)] "7"
  intro item hitem n hn hchanged
  obtain rfl := List.mem_singleton.mp hitem
  obtain rfl := Option.some.inj hn
  exact absurd (keptF64_of_lt (by decide)) hchanged

/-- 2^53 + 1 is looked for as 2^53. -/
theorem eval_not_means :
    let _ : RegexEngine := noRegex
    let _ : IpNetParser := ⟨fun _ => none⟩
    let _ : JsonCodec := compactJson
    let _ : F64Display := ⟨fun _ => "0.5"⟩
    let _ : CaseMapping := asciiCaseMapping
    ¬ ∀ (ctx : Context) (v : Json), Right ctx v := by
  intro _ _ _ _ _ h
  let items : List Json := [.number (.posInt 9007199254740993)]
  let ctx := requestTo "9007199254740993"
  have halike := (@eval_means_iff _ _ _ _ _ (hostIn items) _ rfl ctx).mp ⟨h ctx _, fun rule _ => h ctx _⟩
  have hspelled : SpelledAlike items "9007199254740993" :=
    halike (.string "host", [.string "in", .array items]) List.mem_cons_self
  have hdigits : "9007199254740993" = showInt64 9007199254740993 := by decide
  obtain ⟨other, hother, hinteger, -⟩ :=
    (hspelled _ List.mem_cons_self 9007199254740993 rfl (by decide)).1 hdigits
  obtain rfl := List.mem_singleton.mp hother
  cases hinteger

end Expr

end Featherbit
