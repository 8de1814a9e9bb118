/-
  ACCESS-LOG ENTRIES (`plugins/util/log_entry.rs`), which every logger writes: a fixed object, or the
  object of a configured map from names to templates.

  The fields of an object are in the order of their keys.  The clock is a parameter (`nowMillis`), absent
  where it reads before the epoch.
-/
import Featherbit.Plugins
import Featherbit.Vars

namespace Featherbit

namespace LogEntry

/-- Client IP without the port. -/
def clientIp (remoteAddr : String) : String :=
  match rsplitOnceChar ':' remoteAddr with
  | some (ip, _) => if ':' ∈ ip.toList then remoteAddr else ip
  | none => remoteAddr

/-- Path plus sorted query string. -/
def requestUri (ctx : Context) : String :=
  let pairs := ctx.request.queryParams.toList.flatMap fun (k, values) =>
    values.map fun v => k ++ "=" ++ v
  if pairs = [] then ctx.request.path
  else ctx.request.path ++ "?" ++ "&".intercalate (pairs.mergeSort fun a b => decide (a ≤ b))

/-- Header map to a JSON object of lists. -/
def headersToJson (headers : HashMap (List String)) : Json :=
  .object (headers.toList.map fun entry => (entry.1, .array (entry.2.map .string)))

/-- Milliseconds since the listener's stamp; a clock set back gives zero. -/
def latencyMs (nowMillis : Option UInt64) (ctx : Context) : Option UInt64 := do
  let start ← (← ctx.message["__request_start_ms"]?).asU64
  let now ← nowMillis
  some (if now < start then 0 else now - start)

def sizeJson (body : Bytes) : Json := .number (.posInt (UInt64.ofNat body.length))

/-- A recorded error. -/
def errorJson (e : GatewayError) : Json :=
  .object [("code", .string e.code), ("message", .string e.message), ("node_id", .string e.nodeId)]

/-- A field that is left out where it has no value. -/
def optionalField (key : String) (value : Option Json) : List (String × Json) :=
  (value.map fun v => (key, v)).toList

/-- `build_default`. -/
def buildDefault (nowMillis : Option UInt64) (ctx : Context) (includeReqBody includeRespBody : Bool) :
    Json :=
  let bodyField (included : Bool) (body : Bytes) : List (String × Json) :=
    if included then [("body", .string (fromUtf8Lossy body))] else []
  let request := bodyField includeReqBody ctx.request.body ++ [
    ("headers", headersToJson ctx.request.headers),
    ("host", .string ctx.request.host),
    ("method", .string ctx.request.method),
    ("scheme", .string ctx.request.scheme),
    ("size", sizeJson ctx.request.body),
    ("uri", .string (requestUri ctx))]
  let response := bodyField includeRespBody ctx.response.body ++ [
    ("headers", headersToJson ctx.response.headers),
    ("size", sizeJson ctx.response.body),
    ("status", .number (.posInt ctx.response.statusCode.toUInt64))]
  let errors := if ctx.errors = [] then none else some (Json.array (ctx.errors.map errorJson))
  let start := (ctx.message["__request_start_ms"]?).bind Json.asU64
  .object ([("client_ip", .string (clientIp ctx.request.remoteAddr))] ++
    optionalField "consumer" ctx.message["consumer.name"]? ++
    optionalField "errors" errors ++
    optionalField "latency" ((latencyMs nowMillis ctx).map fun ms => .number (.posInt ms)) ++
    [("request", .object request), ("response", .object response)] ++
    optionalField "start_time" (start.map fun ms => .number (.posInt ms)))

/-- `parse_log_format`: absent, or an object of scalars. -/
def parseLogFormat (config : HashMap Json) : Except String (Option (HashMap Json)) :=
  match config["log_format"]? with
  | none | some .null => .ok none
  | some (.object fields) =>
    let scalar : Json → Bool
      | .string _ | .number _ | .bool _ => true
      | _ => false
    match fields.find? fun field => !scalar field.2 with
    | some (k, _) => .error ("log_format['" ++ k ++ "'] must be a scalar")
    | none => .ok (some (Std.ExtTreeMap.ofList fields compare))
  | some _ => .error "log_format must be an object of name -> template"

section Build

variable [CaseMapping] [JsonText]

/-- The value of a configured field: a template is filled in, another scalar stays. -/
def render (ctx : Context) : Json → Json
  | .string template => .string (Vars.interpolate ctx template)
  | other => other

/-- `build_custom`. -/
def buildCustom (ctx : Context) (format : HashMap Json) : Json :=
  .object (format.toList.map fun field => (field.1, render ctx field.2))

/-- `build_entry`. -/
def buildEntry (nowMillis : Option UInt64) (ctx : Context) (logFormat : Option (HashMap Json))
    (includeReqBody includeRespBody : Bool) : Json :=
  match logFormat with
  | some format => buildCustom ctx format
  | none => buildDefault nowMillis ctx includeReqBody includeRespBody

variable (nowMillis : Option UInt64) (ctx : Context) (includeReqBody includeRespBody : Bool)

/-- A configured entry holds the configured fields, each rendered, and no others. -/
theorem buildEntry_custom (format : HashMap Json) (name : String) :
    (buildEntry nowMillis ctx (some format) includeReqBody includeRespBody).get name =
      format[name]?.map (render ctx) :=
  format.lookup_map_toList (render ctx) name

/-- The client's address in an entry that is not configured. -/
theorem buildEntry_clientIp :
    (buildEntry nowMillis ctx none includeReqBody includeRespBody).get "client_ip" =
      some (.string (clientIp ctx.request.remoteAddr)) :=
  rfl

end Build

end LogEntry

end Featherbit
