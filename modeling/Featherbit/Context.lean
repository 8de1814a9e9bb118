/-
  THE CONTEXT that flows through a policy graph (`context/mod.rs`): the inbound request, the
  response under construction, the nodes' scratch space, and the errors recorded so far.
-/
import Featherbit.Json

namespace Featherbit

/-- Wire protocol of the inbound connection. -/
inductive Protocol where
  | http1
  | http2
  | webSocket
  | tcp
  | udp
deriving DecidableEq, Inhabited

/-- Snapshot of the inbound request; multi-valued headers and parameters keep their lists. -/
structure GatewayRequest where
  method : String
  path : String
  host : String
  scheme : String
  headers : HashMap (List String)
  queryParams : HashMap (List String)
  body : Bytes
  remoteAddr : String
  protocol : Protocol
deriving DecidableEq, Inhabited

/-- The response under construction; `statusCode` is `0` until a node sets it. -/
structure GatewayResponse where
  statusCode : UInt16
  headers : HashMap (List String)
  body : Bytes
deriving DecidableEq

/-- An error recorded by a node during graph execution. -/
structure GatewayError where
  nodeId : String
  code : String
  message : String
  metadata : HashMap Json
deriving DecidableEq

/-- All state of one request as it travels through a policy graph. -/
structure Context where
  request : GatewayRequest
  response : GatewayResponse
  message : HashMap Json
  errors : List GatewayError
deriving DecidableEq

/-- A fresh context for an inbound request: an empty response with status `0`. -/
def Context.new (request : GatewayRequest) : Context where
  request := request
  response := { statusCode := 0, headers := ∅, body := [] }
  message := ∅
  errors := []

end Featherbit
