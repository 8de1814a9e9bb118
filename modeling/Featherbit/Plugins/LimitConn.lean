/-
  THE `limit-conn` NODES (`plugins/native/limit_conn.rs`): a limit on requests in flight.

  A pair of nodes shares a counter: the acquire node raises it and rejects at the ceiling, the
  release node lowers it.  Each node finds the counter by a key that it renders from the context it
  is given.  The atomic steps on the counter are in `Traffic.ConnSlots`.
-/
import Featherbit.Plugins.LimitCount
import Featherbit.Plugins.Pair

namespace Featherbit

/-- Which half of the pair a node is. -/
inductive ConnRole where
  | acquire
  | release
deriving DecidableEq

/-- One node of a `limit-conn` pair. -/
structure LimitConnPlugin where
  role : ConnRole
  /-- maximum sustained concurrent requests -/
  conn : Int64
  conn_pos : 0 < conn
  /-- extra concurrent requests tolerated above `conn` -/
  burst : Int64
  burst_nonneg : 0 ≤ burst
  key : String
  /-- `key` is used verbatim -/
  keyConstant : Bool
  rejectedCode : UInt16
  rejectedMsg : Option String

namespace LimitConnPlugin

def roleOf (config : HashMap Json) : Except String ConnRole :=
  match phaseOrRole config with
  | some "acquire" => .ok .acquire
  | some "release" => .ok .release
  | some other => .error ("limit-conn: unknown phase/role '" ++ other ++
      "' (expected 'acquire' or 'release')")
  | none => .error "limit-conn: 'phase' (or 'role') is required: 'acquire' or 'release'"

/-- `LimitConnPlugin::from_config`. -/
def fromConfig (config : HashMap Json) : Except String LimitConnPlugin := do
  let role ← roleOf config
  let conn := (config["conn"]?.bind Json.asI64).getD 20
  if hconn : 0 < conn then
    let burst := (config["burst"]?.bind Json.asI64).getD 0
    if hburst : 0 ≤ burst then
      return {
        role := role
        conn := conn
        conn_pos := hconn
        burst := burst
        burst_nonneg := hburst
        key := (config["key"]?.bind Json.asStr).getD "$remote_addr"
        keyConstant := decide (config["key_type"]?.bind Json.asStr = some "constant")
        rejectedCode := ((config["rejected_code"]?.bind Json.asU64).map UInt64.toUInt16).getD 503
        rejectedMsg := config["rejected_msg"]?.bind Json.asStr }
    else .error ("limit-conn: 'burst' must be non-negative, got " ++ toString burst)
  else .error ("limit-conn: 'conn' must be a positive integer, got " ++ toString conn)

/-- Minimal JSON string escaping for the rejection message. -/
def jsonString (s : String) : String :=
  let escape : Char → String
    | '"' => "\\\""
    | '\\' => "\\\\"
    | '\n' => "\\n"
    | '\r' => "\\r"
    | '\t' => "\\t"
    | c => String.singleton c
  "\"" ++ String.join (s.toList.map escape) ++ "\""

section Execute

variable (plugin : LimitConnPlugin)

/-- The counter a request is counted on. -/
def resolveKey [CaseMapping] [JsonText] (ctx : Context) : String :=
  if plugin.keyConstant then plugin.key else Vars.interpolate ctx plugin.key

/-- `self.conn + self.burst`, as the release build computes it: past the `i64` range it wraps
    around, to a negative ceiling. -/
def ceiling : Int := (plugin.conn + plugin.burst).toInt

/-- The answer to a request over the ceiling. -/
def reject (ctx : Context) : PluginResult :=
  let body := match plugin.rejectedMsg with
    | some msg => "\x7b\"error_msg\":" ++ jsonString msg ++ "\x7d"
    | none => "\x7b\"error\":\"limit_conn_exceeded\"\x7d"
  LimitCountPlugin.rejectWith ctx plugin.rejectedCode body "LIMIT_CONN_EXCEEDED"
    "Concurrent request limit exceeded"

/-- What the node was configured for, whatever the machine's integers do to it. -/
def limit : Int := plugin.conn.toInt + plugin.burst.toInt

/-- The ceiling is the configured limit, or the sum wrapped around and it is negative. -/
theorem ceiling_eq : plugin.ceiling = plugin.limit ∨ plugin.ceiling < 0 ∧ 2 ^ 63 ≤ plugin.limit := by
  have hconn := Int64.lt_iff_toInt_lt.mp plugin.conn_pos
  have hburst := Int64.le_iff_toInt_le.mp plugin.burst_nonneg
  have hconn' := plugin.conn.toInt_lt
  have hburst' := plugin.burst.toInt_lt
  have hzero : (0 : Int64).toInt = 0 := rfl
  unfold ceiling limit
  rw [Int64.toInt_add, Int.bmod_def]
  norm_num
  split <;> omega

theorem limit_pos : 0 < plugin.limit := by
  have hconn := Int64.lt_iff_toInt_lt.mp plugin.conn_pos
  have hburst := Int64.le_iff_toInt_le.mp plugin.burst_nonneg
  have hzero : (0 : Int64).toInt = 0 := rfl
  unfold limit
  omega

end Execute

end LimitConnPlugin

end Featherbit
