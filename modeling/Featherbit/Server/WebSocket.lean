/-
  THE WEBSOCKET TUNNEL (`server/websocket.rs`, and the 101 branch of `handle_request` of
  `server/listener.rs`).

  A client asks for a tunnel over HTTP/1.1, by the `Upgrade` header, or over HTTP/2, by an extended
  CONNECT.  The `upstream` node leaves a target in the context; the listener opens it by an HTTP/1.1
  handshake of its own, whichever way the client came.

  1. **The handshake** (`Upgrade.handshake`) — six headers go over from the context, and an HTTP/2
     client's are completed.
  2. **Its fields** (`valuesOf_handshake`) — name by name, what the target gets.
  3. **Is it one?** (`opening_handshake_iff`) — over HTTP/1.1 when the client's was; over HTTP/2
     when the client sent no version.  The version is left out with the headers that are made anew,
     and is made anew only if it did not come.
-/
import Featherbit.Plugins.Upstream
import Featherbit.Server.Listener
import Featherbit.Server.Response

namespace Featherbit

open Multimap

/-- What `proxy_upgrade` is called with. -/
structure Upgrade where
  host : String
  port : UInt16
  path : String
  tls : Bool
  verify : Bool
  headers : HashMap (List String)
  clientIsH2 : Bool

/-- The tunnel of a request whose graph ended with a 101 and a target. -/
def Incoming.upgrade (req : Incoming) (ctx : Context) : Option Upgrade :=
  if req.isWs && decide (ctx.response.statusCode = 101) then do
    let host ← (ctx.message["__ws_upstream_host"]?).bind Json.asStr
    let port ← (ctx.message["__ws_upstream_port"]?).bind Json.asU64
    some {
      host := host
      port := port.toUInt16
      path := ((ctx.message["__ws_upstream_path"]?).bind Json.asStr).getD "/"
      tls := ((ctx.message["__ws_upstream_tls"]?).bind Json.asBool).getD false
      verify := ((ctx.message["__ws_upstream_verify"]?).bind Json.asBool).getD true
      headers := ctx.request.headers
      clientIsH2 := isH2WebsocketConnect req.parts.method req.protocol }
  else none

namespace Upgrade

/-- `FORWARD_HEADERS`. -/
def forwardHeaders : List String :=
  ["upgrade", "connection", "sec-websocket-key", "sec-websocket-version", "sec-websocket-protocol",
    "sec-websocket-extensions"]

/-- `ECHO_HEADERS`. -/
def echoHeaders : List String :=
  ["upgrade", "connection", "sec-websocket-accept", "sec-websocket-protocol",
    "sec-websocket-extensions"]

/-- The headers of an HTTP/1.1 handshake that an HTTP/2 client's are not taken for. -/
def http1Headers : List String :=
  ["upgrade", "connection", "sec-websocket-key", "sec-websocket-version"]

variable (u : Upgrade)

/-- The values of a header that go over to the target. -/
def carried (name : String) : List String :=
  if u.clientIsH2 && decide (name ∈ http1Headers) then [] else u.headers[name]?.getD []

/-- What is made anew for an HTTP/2 client. -/
def synthesized (key : String) : List (String × String) :=
  if u.clientIsH2 then
    [("upgrade", "websocket"), ("connection", "upgrade"), ("sec-websocket-key", key)] ++
      if "sec-websocket-version" ∈ u.headers then [] else [("sec-websocket-version", "13")]
  else []

/-- The header fields of the handshake with the target; `key` is drawn for an HTTP/2 client. -/
def handshake (key : String) : List (String × String) :=
  ("host", u.host ++ ":" ++ showNat u.port.toNat) ::
    ((forwardHeaders.flatMap fun name => (u.carried name).map fun value => (name, value)) ++
      u.synthesized key)

end Upgrade

/-- `WsError`. -/
inductive WsError where
  | connect (address message : String)
  | handshake (message : String)
  | upstreamRejected (status : UInt16)
  | upgrade (message : String)
  | tls (message : String)

/-- The target: its answer to a handshake, and whether the connection then turned into a tunnel. -/
abbrev WsTarget := Upgrade → List (String × String) → Except WsError (HttpResponse × Except WsError Unit)

namespace Upgrade

variable (u : Upgrade)

/-- The response the client is sent when the target agrees. -/
def clientResponse (answer : HttpResponse) : HttpResponse :=
  let first name := (answer.headers.find? fun field => field.1 = name).toList
  if u.clientIsH2 then { status := 200, headers := first "sec-websocket-protocol", body := [] }
  else { status := 101, headers := echoHeaders.flatMap first, body := [] }

/-- `proxy_upgrade`, up to the relay of bytes. -/
def proxyUpgrade (target : WsTarget) (key : String) : Except WsError HttpResponse := do
  let (answer, tunnel) ← target u (u.handshake key)
  if answer.status ≠ 101 then throw (.upstreamRejected answer.status)
  tunnel
  return u.clientResponse answer

end Upgrade

/-- `bad_gateway_502`. -/
def badGateway502 : HttpResponse where
  status := 502
  headers := [("content-type", asBytes "application/json")]
  body := asBytes
    "\x7b\"error\":\"bad_gateway\",\"message\":\"upstream websocket handshake failed\"\x7d"

/-! ## The target of the tunnel -/

/-- What `upstream` leaves is what the tunnel goes to. -/
theorem upgrade_stashTarget {req : Incoming} (hws : req.isWs = true) (plugin : UpstreamPlugin)
    (target : Target) (ctx : Context) :
    req.upgrade (plugin.stashTarget target ctx) = some {
      host := target.host, port := target.port, path := ctx.request.path, tls := plugin.tls
      verify := plugin.sslVerify, headers := ctx.request.headers
      clientIsH2 := isH2WebsocketConnect req.parts.method req.protocol } := by
  have hhost : (plugin.stashTarget target ctx).message["__ws_upstream_host"]? =
      some (.string target.host) := by
    simp only [UpstreamPlugin.stashTarget, HashMap.get_insert, String.reduceEq, reduceIte]
  have hport : (plugin.stashTarget target ctx).message["__ws_upstream_port"]? =
      some (jsonU16 target.port) := by
    simp only [UpstreamPlugin.stashTarget, HashMap.get_insert, String.reduceEq, reduceIte]
  have hpath : (plugin.stashTarget target ctx).message["__ws_upstream_path"]? =
      some (.string ctx.request.path) := by
    simp only [UpstreamPlugin.stashTarget, HashMap.get_insert, String.reduceEq, reduceIte]
  have htls : (plugin.stashTarget target ctx).message["__ws_upstream_tls"]? =
      some (.bool plugin.tls) := by
    simp only [UpstreamPlugin.stashTarget, HashMap.get_insert, String.reduceEq, reduceIte]
  have hverify : (plugin.stashTarget target ctx).message["__ws_upstream_verify"]? =
      some (.bool plugin.sslVerify) := by
    simp only [UpstreamPlugin.stashTarget, HashMap.get_insert, reduceIte]
  have hnarrow : target.port.toUInt64.toUInt16 = target.port := by simp
  have hstatus : (plugin.stashTarget target ctx).response.statusCode = 101 := rfl
  rw [Incoming.upgrade, hws, hstatus, hhost, hport, hpath, htls, hverify]
  simp only [decide_true, Bool.and_self, if_true, Option.bind_some, Json.asStr, jsonU16, Json.asU64,
    Json.asBool, Option.getD_some]
  show some (Upgrade.mk _ target.port.toUInt64.toUInt16 _ _ _ _ _) = _
  rw [hnarrow]
  rfl

/-! ## The fields of the handshake -/

/-- The values of one name, where the fields are listed name by name. -/
theorem valuesOf_flatMap {names : List String} (hnodup : names.Nodup) (values : String → List String)
    (name : String) :
    valuesOf name (names.flatMap fun n => (values n).map fun value => (n, value)) =
      if name ∈ names then values name else [] := by
  induction names with
  | nil => rfl
  | cons n names ih =>
    obtain ⟨hnotin, hrest⟩ := List.nodup_cons.mp hnodup
    rw [List.flatMap_cons, valuesOf_append, ih hrest]
    by_cases hname : n = name
    · subst hname
      rw [valuesOf_map_key, if_neg hnotin, if_pos List.mem_cons_self, List.append_nil]
    · have hnone : valuesOf name ((values n).map fun value => (n, value)) = [] := by
        rw [valuesOf_eq_nil]
        intro pair hpair
        obtain ⟨value, -, rfl⟩ := List.mem_map.mp hpair
        exact hname
      rw [hnone, List.nil_append]
      simp only [List.mem_cons, show ¬ name = n from fun h => hname h.symm, false_or]

namespace Upgrade

variable {u : Upgrade} {key : String}

/-- Name by name. -/
theorem valuesOf_handshake {name : String} (hname : name ≠ "host") :
    valuesOf name (u.handshake key) =
      (if name ∈ forwardHeaders then u.carried name else []) ++ valuesOf name (u.synthesized key) := by
  have hhost : ¬ "host" = name := fun h => hname h.symm
  rw [handshake, valuesOf_cons, if_neg hhost, valuesOf_append, valuesOf_flatMap (by decide)]

theorem valuesOf_handshake_host :
    valuesOf "host" (u.handshake key) = [u.host ++ ":" ++ showNat u.port.toNat] := by
  have hsynthesized : valuesOf "host" (u.synthesized key) = [] := by
    rw [synthesized]
    split
    · split <;> rfl
    · rfl
  rw [handshake, valuesOf_cons, if_pos rfl, valuesOf_append, valuesOf_flatMap (by decide),
    if_neg (by decide), hsynthesized]
  rfl

/-- Nothing but the host and the six headers. -/
theorem name_of_mem_handshake {field : String × String} (h : field ∈ u.handshake key) :
    field.1 = "host" ∨ field.1 ∈ forwardHeaders := by
  rw [handshake, List.mem_cons, List.mem_append] at h
  rcases h with rfl | hcarried | hsynthesized
  · exact Or.inl rfl
  · obtain ⟨name, hname, hfield⟩ := List.mem_flatMap.mp hcarried
    obtain ⟨value, -, rfl⟩ := List.mem_map.mp hfield
    exact Or.inr hname
  · rw [synthesized] at hsynthesized
    right
    split at hsynthesized
    · rcases List.mem_append.mp hsynthesized with hthree | hversion
      · simp only [List.mem_cons, List.not_mem_nil, or_false] at hthree
        rcases hthree with rfl | rfl | rfl
        · show "upgrade" ∈ forwardHeaders
          decide
        · show "connection" ∈ forwardHeaders
          decide
        · show "sec-websocket-key" ∈ forwardHeaders
          decide
      · split at hversion
        · cases hversion
        · rw [List.mem_singleton.mp hversion]
          decide
    · cases hsynthesized

end Upgrade

/-! ## A handshake a server can accept -/

/-- What the fields of an opening handshake have to be. -/
structure OpeningHandshake (fields : List (String × String)) : Prop where
  host : (valuesOf "host" fields).length = 1
  upgrade : ∃ v ∈ valuesOf "upgrade" fields, eqIgnoreAsciiCase v "websocket" = true
  connection : ∃ v ∈ valuesOf "connection" fields, ∃ token ∈ splitChar ',' v,
    eqIgnoreAsciiCase (trim token) "upgrade" = true
  key : (valuesOf "sec-websocket-key" fields).length = 1
  version : valuesOf "sec-websocket-version" fields = ["13"]

/-- The text of a header is one of its values. -/
theorem mem_valuesOf_of_headerText {parts : HttpParts} {name v : String}
    (h : parts.headerText name = some v) : v ∈ valuesOf name parts.textHeaders := by
  obtain ⟨field, hfield, htext⟩ := Option.bind_eq_some_iff.mp h
  have hname : decide (field.1 = name) = true :=
    List.find?_some (p := fun f : String × Bytes => decide (f.1 = name)) hfield
  have hmem := List.mem_of_find?_eq_some hfield
  rw [valuesOf, List.mem_map]
  refine ⟨(field.1, (headerToStr field.2).getD ""), List.mem_filter.mpr ⟨?_, hname⟩, ?_⟩
  · exact List.mem_map.mpr ⟨field, hmem, rfl⟩
  · rw [htext]
    rfl

section Complete

variable {req : Incoming} {ctx : Context} {u : Upgrade}

/-- What is known of a tunnel. -/
theorem upgrade_spec (h : req.upgrade ctx = some u) :
    req.isWs = true ∧ ctx.response.statusCode = 101 ∧ u.headers = ctx.request.headers ∧
      u.clientIsH2 = isH2WebsocketConnect req.parts.method req.protocol := by
  rw [Incoming.upgrade] at h
  split at h
  · rename_i hboth
    rw [Bool.and_eq_true, decide_eq_true_eq] at hboth
    obtain ⟨host, -, h⟩ := Option.bind_eq_some_iff.mp h
    obtain ⟨port, -, h⟩ := Option.bind_eq_some_iff.mp h
    rw [← Option.some.inj h]
    exact ⟨hboth.1, hboth.2, rfl, rfl⟩
  · cases h

/-- The headers of a context that still has the client's. -/
theorem getElem?_headers (h : ctx.request.headers = req.gatewayRequest.headers) (name : String) :
    ctx.request.headers[name]?.getD [] = valuesOf name req.parts.textHeaders := by
  obtain ⟨protocol, hrequest⟩ := req.gatewayRequest_eq
  rw [h, hrequest]
  show (Multimap.ofPairs req.parts.textHeaders)[name]?.getD [] = _
  rw [Multimap.getElem?_ofPairs]
  split
  · rename_i hnil
    rw [hnil]
    rfl
  · rfl

/-- An HTTP/1.1 client's handshake goes over as it came. -/
theorem opening_http1 (hws : isWebsocketUpgrade req.parts = true) (hh2 : u.clientIsH2 = false)
    (hheaders : ∀ name, u.headers[name]?.getD [] = valuesOf name req.parts.textHeaders) (key : String) :
    OpeningHandshake (u.handshake key) ↔
      (valuesOf "sec-websocket-key" req.parts.textHeaders).length = 1 ∧
      valuesOf "sec-websocket-version" req.parts.textHeaders = ["13"] := by
  have hvalues : ∀ name, name ≠ "host" → name ∈ Upgrade.forwardHeaders →
      valuesOf name (u.handshake key) = valuesOf name req.parts.textHeaders := by
    intro name hname hmem
    rw [Upgrade.valuesOf_handshake hname, if_pos hmem, Upgrade.carried, Upgrade.synthesized, hh2,
      ← hheaders]
    simp
  have hkey := hvalues "sec-websocket-key" (by decide) (by decide)
  have hversion := hvalues "sec-websocket-version" (by decide) (by decide)
  constructor
  · intro h
    rw [← hkey, ← hversion]
    exact ⟨h.key, h.version⟩
  · rintro ⟨hone, hthirteen⟩
    rw [isWebsocketUpgrade, Bool.and_eq_true] at hws
    obtain ⟨hconnection, hupgrade⟩ := hws
    obtain ⟨c, hc, htoken⟩ := (Option.any_eq_true _ _).mp hconnection
    obtain ⟨v, hv, hwebsocket⟩ := (Option.any_eq_true _ _).mp hupgrade
    constructor
    · rw [Upgrade.valuesOf_handshake_host]
      rfl
    · refine ⟨v, ?_, hwebsocket⟩
      rw [hvalues "upgrade" (by decide) (by decide)]
      exact mem_valuesOf_of_headerText hv
    · refine ⟨c, ?_, List.any_eq_true.mp htoken⟩
      rw [hvalues "connection" (by decide) (by decide)]
      exact mem_valuesOf_of_headerText hc
    · rw [hkey]
      exact hone
    · rw [hversion]
      exact hthirteen

/-- An HTTP/2 client's handshake is made anew, but for a version that came. -/
theorem opening_http2 (hh2 : u.clientIsH2 = true) (key : String) :
    OpeningHandshake (u.handshake key) ↔ "sec-websocket-version" ∉ u.headers := by
  have hvalues : ∀ name, name ≠ "host" → name ∈ Upgrade.http1Headers →
      valuesOf name (u.handshake key) = valuesOf name (u.synthesized key) := by
    intro name hname hmem
    rw [Upgrade.valuesOf_handshake hname, Upgrade.carried, hh2, decide_eq_true hmem]
    simp
  have hversion := hvalues "sec-websocket-version" (by decide) (by decide)
  rw [Upgrade.synthesized, hh2, if_pos rfl] at hversion hvalues
  constructor
  · intro h hsent
    have hthirteen := h.version
    rw [hversion, if_pos hsent] at hthirteen
    cases hthirteen
  · intro hsent
    rw [if_neg hsent] at hversion
    have hone : ∀ name value, (name, value) ∈
        [("upgrade", "websocket"), ("connection", "upgrade"), ("sec-websocket-key", key)] →
        valuesOf name (u.handshake key) = [value] := by
      intro name value hmem
      simp only [List.mem_cons, Prod.mk.injEq, List.not_mem_nil, or_false] at hmem
      rcases hmem with ⟨rfl, rfl⟩ | ⟨rfl, rfl⟩ | ⟨rfl, rfl⟩
      · rw [hvalues _ (by decide) (by decide), if_neg hsent]
        rfl
      · rw [hvalues _ (by decide) (by decide), if_neg hsent]
        rfl
      · rw [hvalues _ (by decide) (by decide), if_neg hsent]
        rfl
    constructor
    · rw [Upgrade.valuesOf_handshake_host]
      rfl
    · rw [hone "upgrade" "websocket" (by simp)]
      exact ⟨_, List.mem_singleton_self _, by decide⟩
    · rw [hone "connection" "upgrade" (by simp)]
      exact ⟨_, List.mem_singleton_self _, "upgrade", by decide +kernel, by decide +kernel⟩
    · rw [hone "sec-websocket-key" key (by simp)]
      rfl
    · rw [hversion]
      rfl

end Complete

/-- An extended CONNECT as browsers send it. -/
def connectRequest : Incoming where
  parts := {
    method := "CONNECT"
    uri := { scheme := some "https", path := "/chat", query := none }
    version := .http2
    headers := [("sec-websocket-version", asBytes "13")] }
  protocol := some "websocket"
  body := none
  remoteAddr := "192.0.2.7:50000"
  clientCert := none

end Featherbit
