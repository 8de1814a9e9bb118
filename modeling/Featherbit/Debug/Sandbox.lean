/-
  THE SANDBOX'S INPUT (`debug/sandbox.rs`): a JSON value, flat as a user writes it or nested as a
  trace shows it, made into a context.

  The nested shape is flattened first (`normalizeContext`), then the flat one is read field by
  field; a field it does not know is a fault.
-/
import Featherbit.Context
import Featherbit.Rust.Base64
import Featherbit.Rust.Serde

namespace Featherbit

/-- A header or query value given as either a bare string or a list. -/
inductive StringOrList where
  | one (s : String)
  | many (v : List String)

def StringOrList.intoVec : StringOrList → List String
  | .one s => [s]
  | .many v => v

/-- Optional seed for the response. -/
structure ResponseInput where
  statusCode : Option UInt16 := none
  headers : HashMap StringOrList := ∅
  body : Option String := none

/-- A synthetic context; every field is optional. -/
structure SandboxContextInput where
  method : Option String := none
  path : Option String := none
  host : Option String := none
  scheme : Option String := none
  headers : HashMap StringOrList := ∅
  queryParams : HashMap StringOrList := ∅
  /-- a plain body, instead of `bodyBase64` -/
  body : Option String := none
  bodyBase64 : Option String := none
  remoteAddr : Option String := none
  protocol : Option Protocol := none
  message : HashMap Json := ∅
  response : Option ResponseInput := none

namespace SandboxContextInput

/-- Materialises a full context, filling in defaults. -/
def intoContext [Base64] (input : SandboxContextInput) : Except String Context := do
  if input.body.isSome && input.bodyBase64.isSome then
    .error "provide only one of 'body' or 'body_base64'"
  let body ←
    match input.body, input.bodyBase64 with
    | some text, _ => .ok (asBytes text)
    | none, some b64 =>
      match Base64.decode (asBytes b64) with
      | .ok bytes => .ok bytes
      | .error e => .error ("body_base64 is not valid base64: " ++ e)
    | none, none => .ok []
  let toMap := fun (m : HashMap StringOrList) => m.map fun _ v => v.intoVec
  let response := input.response.getD {}
  return {
    request := {
      method := input.method.getD "GET"
      path := input.path.getD "/"
      host := input.host.getD "sandbox.local"
      scheme := input.scheme.getD "http"
      headers := toMap input.headers
      queryParams := toMap input.queryParams
      body := body
      remoteAddr := input.remoteAddr.getD "127.0.0.1:0"
      protocol := input.protocol.getD .http1 }
    response := {
      statusCode := response.statusCode.getD 0
      headers := toMap response.headers
      body := (response.body.map asBytes).getD [] }
    message := input.message
    errors := [] }

end SandboxContextInput

/-! ## Reading the flat shape -/

section Read

open Serde

/-- An untagged enum: the first variant that fits. -/
def readStringOrList (value : Json) : Except SerdeFault StringOrList :=
  match readString value with
  | .ok s => .ok (.one s)
  | .error _ =>
    match readVec readString value with
    | .ok v => .ok (.many v)
    | .error _ => .error (.noVariant "StringOrList")

def protocolNamed : String → Except SerdeFault Protocol
  | "http1" => .ok .http1
  | "http2" => .ok .http2
  | "websocket" => .ok .webSocket
  | "tcp" => .ok .tcp
  | "udp" => .ok .udp
  | other => .error (.unknownVariant other)

/-- A unit variant is its name, or an object of its name and `null`. -/
def readProtocol : Json → Except SerdeFault Protocol
  | .string name => protocolNamed name
  | .object [(name, .null)] => protocolNamed name
  | value => .error (.invalidType value)

namespace ResponseInput

def fieldNames : List String := ["status_code", "headers", "body"]

def setField (input : ResponseInput) (field : String × Json) :
    Except SerdeFault ResponseInput := do
  match field.1 with
  | "status_code" => return { input with statusCode := ← readOption readU16 field.2 }
  | "headers" => return { input with headers := ← readMap readStringOrList field.2 }
  | "body" => return { input with body := ← readOption readString field.2 }
  | other => .error (.unknownField other)

def read : Json → Except SerdeFault ResponseInput := readStruct fieldNames setField {}

end ResponseInput

namespace SandboxContextInput

def fieldNames : List String :=
  ["method", "path", "host", "scheme", "headers", "query_params", "body", "body_base64",
    "remote_addr", "protocol", "message", "response"]

def setField (input : SandboxContextInput) (field : String × Json) :
    Except SerdeFault SandboxContextInput := do
  match field.1 with
  | "method" => return { input with method := ← readOption readString field.2 }
  | "path" => return { input with path := ← readOption readString field.2 }
  | "host" => return { input with host := ← readOption readString field.2 }
  | "scheme" => return { input with scheme := ← readOption readString field.2 }
  | "headers" => return { input with headers := ← readMap readStringOrList field.2 }
  | "query_params" => return { input with queryParams := ← readMap readStringOrList field.2 }
  | "body" => return { input with body := ← readOption readString field.2 }
  | "body_base64" => return { input with bodyBase64 := ← readOption readString field.2 }
  | "remote_addr" => return { input with remoteAddr := ← readOption readString field.2 }
  | "protocol" => return { input with protocol := ← readOption readProtocol field.2 }
  | "message" => return { input with message := ← readMap .ok field.2 }
  | "response" => return { input with response := ← readOption ResponseInput.read field.2 }
  | other => .error (.unknownField other)

def read : Json → Except SerdeFault SandboxContextInput := readStruct fieldNames setField {}

end SandboxContextInput

end Read

/-! ## Flattening the nested shape -/

/-- Replayable body text: a plain string, or a body object's `text`. -/
def bodyText : Json → Option String
  | .string s => some s
  | .object fields => (fields.lookup "text").bind Json.asStr
  | _ => none

/-- One field of the nested `request`, lifted to the top. -/
def liftField (obj : List (String × Json)) (field : String × Json) : List (String × Json) :=
  if field.1 = "body" then
    match bodyText field.2 with
    | some text => Json.insertField "body" (.string text) obj
    | none => obj
  else Json.insertField field.1 field.2 obj

/-- The nested `request` is taken out and its fields lifted. -/
def liftRequest (obj : List (String × Json)) : List (String × Json) :=
  match obj.lookup "request" with
  | some (.object req) => req.foldl liftField (Json.removeField "request" obj)
  | _ => Json.removeField "request" obj

/-- The body of `response`, an object, becomes its text, or goes. -/
def flattenResponse (obj : List (String × Json)) : List (String × Json) :=
  match obj.lookup "response" with
  | some (.object resp) =>
    match resp.lookup "body" with
    | some body =>
      let resp :=
        match bodyText body with
        | some text => Json.insertField "body" (.string text) resp
        | none => Json.removeField "body" resp
      Json.insertField "response" (.object resp) obj
    | none => obj
  | _ => obj

/-- `normalize_context`. -/
def normalizeContext : Json → Json
  | .object obj => .object (Json.removeField "errors" (flattenResponse (liftRequest obj)))
  | value => value

/-- `materialize_context`. -/
def materializeContext [Base64] [SerdeText] (raw : Json) : Except String Context :=
  match normalizeContext raw with
  | .null => SandboxContextInput.intoContext {}
  | normalized =>
    match SandboxContextInput.read normalized with
    | .ok input => input.intoContext
    | .error e => .error ("invalid sandbox context: " ++ SerdeText.toText e)

end Featherbit
