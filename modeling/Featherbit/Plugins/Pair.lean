/-
  NODES THAT COME IN PAIRS: what the configurations of `limit-conn`, `api-breaker` and
  `proxy-cache` have in common.

  A node takes one place in the graph, so a plugin that acts before the upstream and after it is a
  pair of nodes that say which half they are, and share state under an `id`.
-/
import Featherbit.Json

namespace Featherbit

/-- `config.get("phase").or_else(|| config.get("role")).and_then(as_str)`. -/
def phaseOrRole (config : HashMap Json) : Option String :=
  (config["phase"]?.or config["role"]?).bind Json.asStr

/-- The shared `id` of a pair: a text that is not blank. -/
def pairId (config : HashMap Json) (missing : String) : Except String String :=
  match (config["id"]?.bind Json.asStr).filter fun s => trim s ≠ "" with
  | some id => .ok id
  | none => .error missing

/-- The messages of a list of statuses that is refused. -/
structure StatusMessages where
  notArray : String
  notInteger : String
  outOfRange : UInt64 → String
  empty : String

/-- One status of such a list. -/
def parseStatus (messages : StatusMessages) (item : Json) : Except String UInt16 :=
  match item.asU64 with
  | none => .error messages.notInteger
  | some n =>
    if 200 ≤ n ∧ n ≤ 599 then .ok n.toUInt16 else .error (messages.outOfRange n)

/-- An optional list of HTTP statuses, as both `parse_statuses` read it. -/
def statusList (messages : StatusMessages) : Option Json → Except String (Option (List UInt16))
  | none => .ok none
  | some v =>
    match v.asArray with
    | none => .error messages.notArray
    | some items => do
      let out ← items.mapM (parseStatus messages)
      if out = [] then .error messages.empty else return some out

end Featherbit
