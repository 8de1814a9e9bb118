/-
  TRACE RECORDS AND CONTEXT SNAPSHOTS (`debug/trace.rs`).

  A snapshot is a redacted view of the context at one point of the walk.  Redaction happens when
  the snapshot is taken; a body's text is kept only with body capture on, and only where it
  differs from the previous step's.
-/
import Featherbit.Context
import Featherbit.Rust.Utf8

namespace Featherbit

def REDACTED : String := "<redacted>"

/-- Header names always redacted. -/
def defaultRedactHeaders : List String :=
  ["authorization", "proxy-authorization", "cookie", "set-cookie", "x-api-key", "api-key",
    "apikey", "x-auth-token", "x-access-token", "x-csrf-token", "x-amz-security-token",
    "x-forwarded-client-cert"]

/-- Query parameters always redacted. -/
def defaultRedactQuery : List String :=
  ["access_token", "id_token", "refresh_token", "token", "api_key", "apikey", "code",
    "client_secret", "state"]

/-- Substrings that mark a `context.message` key as secret-bearing. -/
def defaultRedactMessageSubstrings : List String :=
  ["secret", "password", "passwd", "token", "credential", "private_key", "authorization", "jwt"]

/-- Case-insensitive denylists used when capturing a snapshot. -/
structure RedactionPolicy where
  headers : List String
  queryParams : List String
  messageKeys : List String
  messageSubstrings : List String

section Redaction

variable [CaseMapping]

/-- The policy of the configured extra names, which extend the built-in ones. -/
def RedactionPolicy.new (headers queryParams messageKeys : List String) : RedactionPolicy where
  headers := defaultRedactHeaders ++ headers.map toLowercase
  queryParams := defaultRedactQuery ++ queryParams.map toLowercase
  messageKeys := messageKeys.map toLowercase
  messageSubstrings := defaultRedactMessageSubstrings

namespace RedactionPolicy

variable (policy : RedactionPolicy)

def headerIsSecret (name : String) : Bool := toLowercase name ∈ policy.headers

def queryIsSecret (name : String) : Bool := toLowercase name ∈ policy.queryParams

def messageIsSecret (key : String) : Bool :=
  let lower := toLowercase key
  decide (lower ∈ policy.messageKeys) ||
    policy.messageSubstrings.any fun s => decide (s.toList <:+: lower.toList)

end RedactionPolicy

end Redaction

/-- How a captured body was handled. -/
structure BodyCapture where
  len : Nat
  text : Option String := none
  truncated : Bool := false
  unchanged : Bool := false
  binary : Bool := false
deriving DecidableEq

structure RequestSnapshot where
  method : String
  path : String
  host : String
  scheme : String
  headers : HashMap (List String)
  queryParams : HashMap (List String)
  body : BodyCapture
deriving DecidableEq

structure ResponseSnapshot where
  statusCode : UInt16
  headers : HashMap (List String)
  body : BodyCapture
deriving DecidableEq

/-- A redacted point-in-time view of the whole context. -/
structure ContextSnapshot where
  request : RequestSnapshot
  response : ResponseSnapshot
  message : HashMap Json
  errors : List GatewayError
deriving DecidableEq

/-- Knobs for capturing a snapshot. -/
structure CaptureOptions where
  captureBodies : Bool
  maxBodyBytes : Nat
  redaction : RedactionPolicy

/-- `CaptureOptions::default()`. -/
def CaptureOptions.default [CaseMapping] : CaptureOptions where
  captureBodies := false
  maxBodyBytes := 8192
  redaction := RedactionPolicy.new [] [] []

/-- The bodies seen at the previous step. -/
structure PreviousBodies where
  request : Option Bytes := none
  response : Option Bytes := none

/-- The bodies a step leaves behind for the next one. -/
def PreviousBodies.of (ctx : Context) : PreviousBodies where
  request := some ctx.request.body
  response := some ctx.response.body

/-- Redacts a header/query map, keeping the number of values of every entry. -/
def redactMap (src : HashMap (List String)) (isSecret : String → Bool) : HashMap (List String) :=
  src.map fun k values => if isSecret k then values.map fun _ => REDACTED else values

/-- The body's length always, its text only when capture is on and the bytes differ from the
    previous step. -/
def captureBody (body : Bytes) (prev : Option Bytes) (opts : CaptureOptions) : BodyCapture :=
  let len := body.length
  if opts.captureBodies = false then { len := len }
  else if prev = some body then { len := len, unchanged := true }
  else
    let truncated := decide (len > opts.maxBodyBytes)
    let slice := if truncated then body.take opts.maxBodyBytes else body
    match fromUtf8 slice with
    | some s => { len := len, text := some s, truncated := truncated }
    | none =>
      match utf8Error slice with
      -- valid text cut inside a character by the limit: keep the valid prefix
      | some ⟨validUpTo, none⟩ =>
        { len := len, text := some ((fromUtf8 (slice.take validUpTo)).getD ""), truncated := true }
      | _ => { len := len, binary := true, truncated := truncated }

/-- `ContextSnapshot::capture`. -/
def ContextSnapshot.capture [CaseMapping] (ctx : Context) (opts : CaptureOptions)
    (prev : PreviousBodies) : ContextSnapshot where
  request :=
    { method := ctx.request.method
      path := ctx.request.path
      host := ctx.request.host
      scheme := ctx.request.scheme
      headers := redactMap ctx.request.headers opts.redaction.headerIsSecret
      queryParams := redactMap ctx.request.queryParams opts.redaction.queryIsSecret
      body := captureBody ctx.request.body prev.request opts }
  response :=
    { statusCode := ctx.response.statusCode
      headers := redactMap ctx.response.headers opts.redaction.headerIsSecret
      body := captureBody ctx.response.body prev.response opts }
  message := ctx.message.map fun k v =>
    if opts.redaction.messageIsSecret k then .string REDACTED else v
  errors := ctx.errors

/-- Whether a node returned success or failed. -/
inductive StepOutcome where
  | success
  | error (code message : String)
deriving DecidableEq

/-- Which edge the engine followed after a node, including the cases where there was none. -/
inductive EdgeKind where
  | success
  | error
  | catchAll
  | terminal
  | endOfChain
  | unhandled
  | nodeNotFound
deriving DecidableEq

/-- The edge kinds that end a walk. -/
def EdgeKind.Ends : EdgeKind → Bool
  | .success | .error | .catchAll => false
  | .terminal | .endOfChain | .unhandled | .nodeNotFound => true

/-- One node execution.  How long it took is left out: no part of the model reads a clock. -/
structure NodeStep where
  index : Nat
  nodeId : String
  nodeType : String
  outcome : StepOutcome
  edge : EdgeKind
  nextNodeId : Option String
  after : ContextSnapshot
deriving DecidableEq

/-- Whether a trace came from live traffic or a sandbox run. -/
inductive TraceSource where
  | request
  | sandbox
deriving DecidableEq

/-- One complete policy execution. -/
structure Trace where
  id : String
  seq : UInt64
  source : TraceSource
  route : Option String
  policy : String
  method : String
  path : String
  status : UInt16
  capturedBodies : Bool
  initial : ContextSnapshot
  steps : List NodeStep
  notes : List String

end Featherbit
