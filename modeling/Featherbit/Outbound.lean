/-
  THE OUTBOUND CLIENT (`outbound/mod.rs`), as the nodes that proxy a request use it.

  A node builds an `OutboundRequest` and hands it over; what the client answers is a parameter of
  the node.  `http::Method` parses a method's text: it is the class `MethodParser`, with what is
  documented of it.
-/
import Featherbit.Context
import Featherbit.Rust.Time

namespace Featherbit

/-- `str::parse::<http::Method>`, the method by its text. -/
class MethodParser where
  parseMethod : String → Option String
  /-- a method is its text -/
  parse_text : ∀ {s m}, parseMethod s = some m → m = s
  parse_get : parseMethod "GET" = some "GET"

export MethodParser (parseMethod)

/-- A single outbound request. -/
structure OutboundRequest where
  method : String
  url : String
  /-- names may repeat -/
  headers : List (String × String)
  body : Bytes
  timeout : Nat
  sslVerify : Bool
deriving DecidableEq

/-- A fully buffered outbound response. -/
structure OutboundResponse where
  status : UInt16
  headers : HashMap (List String)
  body : Bytes

/-- Outbound call failure. -/
inductive OutboundError where
  | timeout (deadline : Nat)
  | invalidRequest (message : String)
  | transport (message : String)

/-- `Display`. -/
def OutboundError.text [DurationText] : OutboundError → String
  | timeout deadline => "outbound request timed out after " ++ DurationText.debug deadline
  | invalidRequest message => "invalid outbound request: " ++ message
  | transport message => "outbound transport error: " ++ message

/-- `OutboundClient::request`. -/
abbrev OutboundClient := OutboundRequest → Except OutboundError OutboundResponse

/-- A backend address (`host:port`). -/
structure Target where
  host : String
  port : UInt16
deriving DecidableEq

/-- `format!("{}:{}", target.host, target.port)`. -/
def Target.address (target : Target) : String := target.host ++ ":" ++ toString target.port.toNat

end Featherbit
