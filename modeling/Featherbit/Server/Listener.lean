/-
  A REQUEST ARRIVES (`handle_request` of `server/listener.rs`, up to the walk of the graph).

  A request is looked at twice: once to find its route, and once to build the context the graph
  starts from.  Both read the `Host` header where the URI has an authority of its own over HTTP/2.
  `ClientRequest` is one request, `http11` and `http2` are the two ways hyper may hand it over, and
  `http2_loses_host` says all that differs.
-/
import Featherbit.Context.FromHyper
import Featherbit.Routing

namespace Featherbit

/-- The verified identity of a TLS client. -/
structure ClientCertIdentity where
  fingerprint : String
  subjectCn : Option String
  sanDns : List String

/-- A request as `handle_request` gets it. -/
structure Incoming where
  parts : HttpParts
  /-- the `:protocol` of an extended CONNECT -/
  protocol : Option String
  /-- the collected body, unless its stream fails -/
  body : Option Bytes
  remoteAddr : String
  clientCert : Option ClientCertIdentity

/-- `headers.get(name)`, as text. -/
def HttpParts.headerText (parts : HttpParts) (name : String) : Option String :=
  (parts.headers.find? fun field => field.1 = name).bind fun field => headerToStr field.2

/-- `is_websocket_upgrade`. -/
def isWebsocketUpgrade (parts : HttpParts) : Bool :=
  ((parts.headerText "connection").any fun v =>
    (splitChar ',' v).any fun token => eqIgnoreAsciiCase (trim token) "upgrade") &&
  ((parts.headerText "upgrade").any fun v => eqIgnoreAsciiCase v "websocket")

/-- `is_h2_websocket_connect`. -/
def isH2WebsocketConnect (method : String) (protocol : Option String) : Bool :=
  decide (method = "CONNECT") && protocol.any fun p => eqIgnoreAsciiCase p "websocket"

/-- The reserved message keys of a client certificate. -/
def stampClientCert (message : HashMap Json) (id : ClientCertIdentity) : HashMap Json :=
  let message := message.insert "__client_cert_fingerprint" (.string id.fingerprint)
  let message := match id.subjectCn with
    | some cn => message.insert "__client_cert_subject_cn" (.string cn)
    | none => message
  if id.sanDns.isEmpty then message
  else message.insert "__client_cert_san_dns" (.array (id.sanDns.map .string))

namespace Incoming

variable (req : Incoming)

def isWs : Bool :=
  isWebsocketUpgrade req.parts || isH2WebsocketConnect req.parts.method req.protocol

/-- What the routes are matched against. -/
def head : RequestHead where
  path := req.parts.uri.path
  method := req.parts.method
  headers := req.parts.textHeaders
  host := req.parts.host

/-- The request of the context; a body that could not be read is empty. -/
def gatewayRequest : GatewayRequest :=
  let request := GatewayRequest.fromHyper req.parts (req.body.getD []) req.remoteAddr
  if req.isWs then { request with protocol := .webSocket } else request

/-- The context the graph of the matched route starts from. -/
def context (startMs : UInt64) : Context :=
  let ctx := Context.new req.gatewayRequest
  let message := ctx.message.insert "__request_start_ms" (.number (.posInt startMs))
  { ctx with
    message := match req.clientCert with
      | some id => stampClientCert message id
      | none => message }

end Incoming

/-! ## One request, delivered over two versions -/

/-- The names of a `HeaderMap` are ASCII, in lower case. -/
def IsHeaderName (name : String) : Prop := ∀ c ∈ name.toList, c.toNat < 128 ∧ c.toLower = c

/-- What a client asks, whatever the version: its header fields apart from `host` are `front` and
    `back`. -/
structure ClientRequest where
  method : String
  path : String
  query : Option String
  scheme : String
  authority : String
  /-- an authority is visible ASCII -/
  visible : (asBytes authority).all (fun b => 0x20 ≤ b && b < 0x7F) = true
  front : List (String × Bytes)
  back : List (String × Bytes)
  names : ∀ field ∈ front ++ back, IsHeaderName field.1 ∧ field.1 ≠ "host"
  body : Option Bytes
  remoteAddr : String
  clientCert : Option ClientCertIdentity

namespace ClientRequest

variable (req : ClientRequest)

/-- Over HTTP/1.1: an origin-form target, and the authority in the `Host` header. -/
def http11 : Incoming where
  parts := {
    method := req.method
    uri := { scheme := none, path := req.path, query := req.query }
    version := .http11
    headers := req.front ++ ("host", asBytes req.authority) :: req.back }
  protocol := none
  body := req.body
  remoteAddr := req.remoteAddr
  clientCert := req.clientCert

/-- Over HTTP/2: the scheme and the authority in the URI, no `Host` header. -/
def http2 : Incoming where
  parts := {
    method := req.method
    uri := { scheme := some req.scheme, path := req.path, query := req.query }
    version := .http2
    headers := req.front ++ req.back }
  protocol := none
  body := req.body
  remoteAddr := req.remoteAddr
  clientCert := req.clientCert

end ClientRequest

/-- A rule that no request without a host can meet: it names a host, or requires a `host` header. -/
def MatchRule.asksHost [CaseMapping] (rule : MatchRule) : Bool :=
  (rule.host.any fun host => decide (host ≠ "")) ||
    rule.headers.toList.any fun (key, _) => decide (toLowercase key = "host")

/-- A rule without its `host` criterion. -/
def MatchRule.anyHost (rule : MatchRule) : MatchRule := { rule with host := none }

/-! ## The host -/

theorem isHeaderName_host : IsHeaderName "host" := by
  intro c hc
  have hmem : c ∈ ['h', 'o', 's', 't'] := hc
  fin_cases hmem <;> decide

theorem eqIgnoreAsciiCase_empty (host : String) : eqIgnoreAsciiCase "" host = decide (host = "") := by
  rw [eqIgnoreAsciiCase, decide_eq_decide, toAsciiLowercase, toAsciiLowercase, String.ofList_inj,
    ← String.toList_inj]
  cases host.toList <;> simp

section Host

variable (req : ClientRequest)

theorem headerToStr_authority : headerToStr (asBytes req.authority) = some req.authority := by
  have hall : ((asBytes req.authority).all fun b => (0x20 ≤ b && b < 0x7F) || b = 0x09) = true := by
    rw [List.all_eq_true]
    intro b hb
    have hvisible := List.all_eq_true.mp req.visible b hb
    rw [hvisible]
    rfl
  rw [headerToStr, if_pos hall, fromUtf8_asBytes]

theorem find?_host {fields : List (String × Bytes)}
    (h : ∀ field ∈ fields, field ∈ req.front ++ req.back) :
    (fields.find? fun field => field.1 = "host") = none := by
  rw [List.find?_eq_none]
  intro field hfield heq
  exact (req.names field (h field hfield)).2 (of_decide_eq_true heq)

theorem host_http11 : req.http11.parts.host = req.authority := by
  have hfront := find?_host req fun field => List.mem_append_left req.back
  simp [HttpParts.host, ClientRequest.http11, List.find?_append, hfront, headerToStr_authority]

theorem host_http2 : req.http2.parts.host = "" := by
  have hnone := find?_host req fun field hfield => hfield
  simp only [HttpParts.host, ClientRequest.http2, hnone]
  rfl

end Host

/-! ## Routing -/

theorem all_not_and {α : Type} (xs : List α) (p q : α → Bool) :
    (xs.all fun x => !p x && q x) = (!xs.any p && xs.all q) := by
  induction xs with
  | nil => rfl
  | cons x xs ih =>
    rw [List.all_cons, List.any_cons, List.all_cons, ih, Bool.not_or]
    ac_rfl

section Routing

variable [CaseMapping] (req : ClientRequest)

theorem toLowercase_headerName {name : String} (h : IsHeaderName name) : toLowercase name = name := by
  rw [CaseMapping.toLowercase_ascii name fun c hc => (h c hc).1,
    List.map_congr_left fun c hc => (h c hc).2, List.map_id', String.ofList_toList]

/-- A header criterion is met over HTTP/2 iff it is met over HTTP/1.1 and is not about `host`. -/
theorem headerCriterion_http2 (key value : String) :
    (req.http2.head.headers.any fun (k, v) =>
      decide (toLowercase k = toLowercase key) && decide (v = value)) =
    (!decide (toLowercase key = "host") &&
      req.http11.head.headers.any fun (k, v) =>
        decide (toLowercase k = toLowercase key) && decide (v = value)) := by
  simp only [Incoming.head, HttpParts.textHeaders, ClientRequest.http11, ClientRequest.http2,
    List.map_append, List.map_cons, List.any_append, List.any_cons, List.any_map,
    Function.comp_def, toLowercase_headerName isHeaderName_host]
  by_cases hkey : toLowercase key = "host"
  · -- no other field has the name
    have hother : ∀ fields : List (String × Bytes), (∀ field ∈ fields, field ∈ req.front ++ req.back) →
        (fields.any fun field => decide (toLowercase field.1 = "host") &&
          decide ((headerToStr field.2).getD "" = value)) = false := by
      intro fields hfields
      rw [List.any_eq_false]
      intro field hfield
      obtain ⟨hname, hhost⟩ := req.names field (hfields field hfield)
      rw [toLowercase_headerName hname, decide_eq_false hhost]
      exact Bool.false_ne_true
    rw [hkey, hother req.front fun field => List.mem_append_left _,
      hother req.back fun field => List.mem_append_right _]
    rfl
  · -- the `Host` field, the only one HTTP/2 lacks, is not asked for
    have hhost : ¬ "host" = toLowercase key := fun h => hkey h.symm
    simp only [hkey, hhost, decide_false, Bool.not_false, Bool.true_and, Bool.false_and,
      Bool.false_or]

/-- The same for all the header criteria of a rule. -/
theorem headerCriteria_http2 (required : List (String × String)) :
    (required.all fun (key, value) => req.http2.head.headers.any fun (k, v) =>
      decide (toLowercase k = toLowercase key) && decide (v = value)) =
    (!(required.any fun (key, _) => decide (toLowercase key = "host")) &&
      required.all fun (key, value) => req.http11.head.headers.any fun (k, v) =>
        decide (toLowercase k = toLowercase key) && decide (v = value)) := by
  rw [← all_not_and]
  congr 1
  funext ⟨key, value⟩
  exact headerCriterion_http2 req key value

/-- **A rule over HTTP/2** is met by what meets it over HTTP/1.1 for any host, unless it asks for
    one. -/
theorem matchesRoute_http2 (rule : MatchRule) :
    matchesRoute rule req.http2.head =
      (!rule.asksHost && matchesRoute rule.anyHost req.http11.head) := by
  have hpath : req.http2.head.path = req.http11.head.path := rfl
  have hmethod : req.http2.head.method = req.http11.head.method := rfl
  have hhost : req.http2.head.host = "" := host_http2 req
  simp only [matchesRoute, headerCriteria_http2, hpath, hmethod, hhost, MatchRule.asksHost,
    MatchRule.anyHost, Bool.not_or, Bool.and_true]
  cases rule.host with
  | none =>
    simp only [Option.any_none, Bool.not_false, Bool.true_and, Bool.and_true]
    ac_rfl
  | some host =>
    simp only [eqIgnoreAsciiCase_empty, Option.any_some, decide_not, Bool.not_not]
    ac_rfl

/-- The route found over HTTP/2. -/
theorem selectRoute_http2 {γ : Type} (table : List (RouteConfig × γ)) :
    selectRoute table req.http2.head = table.find? fun entry =>
      !entry.1.matchRule.asksHost && matchesRoute entry.1.matchRule.anyHost req.http11.head := by
  unfold selectRoute
  congr 1
  funext entry
  exact matchesRoute_http2 req entry.1.matchRule

end Routing

/-! ## The two contexts -/

/-- Two contexts that agree on everything but the host, the scheme and the protocol: the request
    line, the headers other than `host`, the body, and all that is not the request. -/
structure SameButHost (ctx ctx' : Context) : Prop where
  method : ctx.request.method = ctx'.request.method
  path : ctx.request.path = ctx'.request.path
  queryParams : ctx.request.queryParams = ctx'.request.queryParams
  headers : ∀ name, name ≠ "host" → ctx.request.headers[name]? = ctx'.request.headers[name]?
  body : ctx.request.body = ctx'.request.body
  remoteAddr : ctx.request.remoteAddr = ctx'.request.remoteAddr
  response : ctx.response = ctx'.response
  message : ctx.message = ctx'.message
  errors : ctx.errors = ctx'.errors

/-- Only the protocol of the context's request is not the one `from_hyper` gives. -/
theorem Incoming.gatewayRequest_eq (req : Incoming) : ∃ protocol, req.gatewayRequest =
    { GatewayRequest.fromHyper req.parts (req.body.getD []) req.remoteAddr with
      protocol := protocol } := by
  unfold Incoming.gatewayRequest
  split
  · exact ⟨.webSocket, rfl⟩
  · exact ⟨_, rfl⟩

section Start

variable (req : ClientRequest) (startMs : UInt64)

theorem valuesOf_textHeaders {name : String} (h : name ≠ "host") :
    Multimap.valuesOf name req.http11.parts.textHeaders =
      Multimap.valuesOf name req.http2.parts.textHeaders := by
  have hhost : ¬ "host" = name := fun heq => h heq.symm
  simp only [HttpParts.textHeaders, ClientRequest.http11, ClientRequest.http2, List.map_append,
    List.map_cons, Multimap.valuesOf_append, Multimap.valuesOf_cons, if_neg hhost]

theorem sameButHost : SameButHost (req.http11.context startMs) (req.http2.context startMs) := by
  obtain ⟨p11, h11⟩ := req.http11.gatewayRequest_eq
  obtain ⟨p2, h2⟩ := req.http2.gatewayRequest_eq
  have hheaders : ∀ name, name ≠ "host" →
      req.http11.gatewayRequest.headers[name]? = req.http2.gatewayRequest.headers[name]? := by
    intro name hname
    rw [h11, h2]
    show (Multimap.ofPairs _)[name]? = (Multimap.ofPairs _)[name]?
    rw [Multimap.getElem?_ofPairs, Multimap.getElem?_ofPairs, valuesOf_textHeaders req hname]
  constructor
  case headers => exact hheaders
  case response => rfl
  case message => rfl
  case errors => rfl
  all_goals
    simp only [Incoming.context, Context.new, h11, h2]
    rfl

end Start

/-- **What HTTP/2 loses.**  Over HTTP/1.1 and HTTP/2 a request leads to contexts that agree but for
    the host, the scheme and the protocol: the host is the authority over HTTP/1.1 and empty over
    HTTP/2, the scheme `http` over HTTP/1.1 and the client's over HTTP/2.  The route over HTTP/2 is
    the first one that does not ask for a host and would match over HTTP/1.1 with any; so it is the
    same one where no rule of the table constrains the host. -/
theorem http2_loses_host [CaseMapping] {γ : Type} (req : ClientRequest)
    (table : List (RouteConfig × γ)) (startMs : UInt64) :
    SameButHost (req.http11.context startMs) (req.http2.context startMs) ∧
    (req.http11.context startMs).request.host = req.authority ∧
    (req.http2.context startMs).request.host = "" ∧
    (req.http11.context startMs).request.scheme = "http" ∧
    (req.http2.context startMs).request.scheme = req.scheme ∧
    (selectRoute table req.http2.head = table.find? fun entry =>
      !entry.1.matchRule.asksHost && matchesRoute entry.1.matchRule.anyHost req.http11.head) ∧
    ((∀ entry ∈ table, entry.1.matchRule.host = none ∧ entry.1.matchRule.asksHost = false) →
      selectRoute table req.http11.head = selectRoute table req.http2.head) := by
  obtain ⟨p11, h11⟩ := req.http11.gatewayRequest_eq
  obtain ⟨p2, h2⟩ := req.http2.gatewayRequest_eq
  refine ⟨sameButHost req startMs, ?_, ?_, ?_, ?_, selectRoute_http2 req table, fun htable => ?_⟩
  · show req.http11.gatewayRequest.host = req.authority
    rw [h11]
    exact host_http11 req
  · show req.http2.gatewayRequest.host = ""
    rw [h2]
    exact host_http2 req
  · show req.http11.gatewayRequest.scheme = "http"
    rw [h11]
    rfl
  · show req.http2.gatewayRequest.scheme = req.scheme
    rw [h2]
    rfl
  · rw [selectRoute_http2]
    refine List.find?_congr fun entry hentry => ?_
    obtain ⟨hnone, hasks⟩ := htable entry hentry
    have hrule : entry.1.matchRule.anyHost = entry.1.matchRule := by
      rw [MatchRule.anyHost, ← hnone]
    rw [hasks, hrule, Bool.not_false, Bool.true_and]

/-! ## A route for one host -/

/-- `https://api.example.com/v1/users`. -/
def usersRequest : ClientRequest where
  method := "GET"
  path := "/v1/users"
  query := none
  scheme := "https"
  authority := "api.example.com"
  visible := by decide
  front := []
  back := []
  names := nofun
  body := some []
  remoteAddr := "10.0.0.1:40000"
  clientCert := none

/-- The route of one host. -/
def apiTable : List (RouteConfig × Unit) :=
  [({ name := "api", matchRule := { host := some "api.example.com" }, policy := "api" }, ())]

/-- The request finds its route over HTTP/1.1 and none over HTTP/2, and its context has another
    host and another scheme. -/
theorem api_lost_over_http2 :
    let _ : CaseMapping := asciiCaseMapping
    selectRoute apiTable usersRequest.http11.head = apiTable.head? ∧
    selectRoute apiTable usersRequest.http2.head = none ∧
    (usersRequest.http11.context 0).request.host ≠ (usersRequest.http2.context 0).request.host ∧
    (usersRequest.http11.context 0).request.scheme ≠
      (usersRequest.http2.context 0).request.scheme := by
  decide +kernel

end Featherbit
