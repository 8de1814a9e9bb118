/-
  FROM A HYPER REQUEST TO THE CONTEXT (`GatewayRequest::from_hyper`, `context/mod.rs`).

  `HttpParts` is what hyper hands over: a method, a URI already taken apart, the version, and the
  header fields in the order a `HeaderMap` iterates, their names in lower case.  Headers and
  parameters that repeat are collected under one key.
-/
import Featherbit.Context
import Featherbit.Lib.Multimap

namespace Featherbit

/-- `http::Version`. -/
inductive HttpVersion where
  | http09
  | http10
  | http11
  | http2
  | http3
deriving DecidableEq

/-- The components of `http::Uri` the gateway reads. -/
structure HttpUri where
  scheme : Option String
  path : String
  query : Option String

/-- `http::request::Parts`. -/
structure HttpParts where
  method : String
  uri : HttpUri
  version : HttpVersion
  headers : List (String × Bytes)

/-- `HeaderValue::to_str`: visible ASCII and tabs. -/
def headerToStr (value : Bytes) : Option String :=
  if value.all fun b => (0x20 ≤ b && b < 0x7F) || b = 0x09 then fromUtf8 value else none

/-- `key=value`; the value of a pair without `=` is empty. -/
def splitPair (pair : String) : String × String := (splitOnceChar '=' pair).getD (pair, "")

/-- The query string, split on `&` and `=` without percent-decoding. -/
def parseQuery (query : Option String) : HashMap (List String) :=
  match query with
  | some query => Multimap.ofPairs ((splitChar '&' query).map splitPair)
  | none => ∅

namespace HttpParts

/-- The headers with their values as text; a value that is not text is empty. -/
def textHeaders (parts : HttpParts) : List (String × String) :=
  parts.headers.map fun (name, value) => (name, (headerToStr value).getD "")

/-- The text of the first `host` field, or nothing. -/
def host (parts : HttpParts) : String :=
  ((parts.headers.find? fun field => field.1 = "host").bind fun field => headerToStr field.2).getD ""

end HttpParts

/-- `GatewayRequest::from_hyper`. -/
def GatewayRequest.fromHyper (parts : HttpParts) (body : Bytes) (remoteAddr : String) :
    GatewayRequest where
  method := parts.method
  path := parts.uri.path
  host := parts.host
  scheme := parts.uri.scheme.getD "http"
  headers := Multimap.ofPairs parts.textHeaders
  queryParams := parseQuery parts.uri.query
  body := body
  remoteAddr := remoteAddr
  protocol := if parts.version = .http2 then .http2 else .http1

end Featherbit
