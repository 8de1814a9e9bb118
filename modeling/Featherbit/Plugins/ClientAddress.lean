/-
  THE CLIENT'S ADDRESS, as the gateway spells it and as its parts read it.

  1. **The spellings** (`Spelled`): what a listener prints for its peer, and what `real-ip` writes over
     it.  An address of IPv4 has one colon, before the port, or none; one of IPv6 is in brackets where a
     port follows, and bare where none does.

  2. **The cut** (`beforeLastColon`): what the balancer hashes, and what wolf-rbac sends.  Of a bare IPv6
     address it leaves out the last group, so that the rest is no text of the address (`cut_of_bare`).

  3. **Stickiness** (`ipHash_sticky_iff`) and **agreement** (`extractors_agree_iff`) hold for the addresses
     of IPv4 and for no others.
-/
import Featherbit.Plugins.ExternalAuth
import Featherbit.Plugins.LogEntry
import Featherbit.Plugins.RealIp
import Featherbit.Rust.SocketAddr
import Featherbit.Traffic.RoundRobin

namespace Featherbit

/-! ## The spellings -/

/-- A text for the peer's address that the gateway itself produces, with the port in it. -/
inductive Spelled (ip : IpAddr) : Option UInt16 → String → Prop
  /-- a listener prints its peer -/
  | listener (addr : SocketAddr) : addr.ip = ip → Spelled ip (some addr.port) addr.display
  /-- `real-ip` writes over it -/
  | realIp (port : Option UInt16) : port ≠ some 0 → Spelled ip port (RealIpPlugin.formatAddr ip port)

/-- A node that gets such a text hands on such a text. -/
theorem spelled_realIp [CaseMapping] [JsonText] (plugin : RealIpPlugin) {ctx : Context} {ip : IpAddr}
    {port : Option UInt16} (h : Spelled ip port ctx.request.remoteAddr) :
    ∃ ip port, Spelled ip port (plugin.execute ctx).context.request.remoteAddr := by
  rcases plugin.remoteAddr_execute ctx with hsame | ⟨ip', port', hport, hwritten⟩
  · rw [hsame]
    exact ⟨ip, port, h⟩
  · rw [hwritten]
    exact ⟨ip', port', .realIp port' hport⟩

/-- The text denotes the address: it is one of its texts, in brackets or not, with nothing after it. -/
def Denotes (text : String) (ip : IpAddr) : Prop :=
  IpAddr.parse text = some ip ∨ ∃ inner, text = "[" ++ inner ++ "]" ∧ IpAddr.parse inner = some ip

theorem denotes_display (ip : IpAddr) : Denotes ip.display ip := Or.inl (IpAddr.parse_display ip)

theorem not_denotes_of_bracket {text : String} (htext : text.toList.head? = some '[')
    (hlast : text.toList.getLast? ≠ some ']') (ip : IpAddr) : ¬ Denotes text ip := by
  rintro (hparse | ⟨inner, rfl, -⟩)
  · rw [IpRestrictionPlugin.parse_bracketed htext] at hparse
    cases hparse
  · refine hlast ?_
    rw [String.toList_append, List.getLast?_append_of_ne_nil _ (by decide)]
    rfl

/-- A text denotes one address at most. -/
theorem Denotes.unique {text : String} {ip ip' : IpAddr} (h : Denotes text ip) (h' : Denotes text ip') :
    ip = ip' := by
  have hbracket : ∀ inner : String, IpAddr.parse ("[" ++ inner ++ "]") = none := by
    intro inner
    rw [String.append_assoc]
    exact RealIpPlugin.parse_bracket_append _
  rcases h with hparse | ⟨inner, rfl, hinner⟩
  · rcases h' with hparse' | ⟨inner', rfl, -⟩
    · exact Option.some.inj (hparse.symm.trans hparse')
    · rw [hbracket] at hparse
      cases hparse
  · rcases h' with hparse' | ⟨inner', hsame, hinner'⟩
    · rw [hbracket] at hparse'
      cases hparse'
    · rw [String.append_assoc, String.append_assoc, SocketAddr.append_right_inj] at hsame
      have hchars := congrArg String.toList hsame
      rw [String.toList_append, String.toList_append] at hchars
      rw [String.toList_inj.mp (List.append_cancel_right hchars)] at hinner
      exact Option.some.inj (hinner.symm.trans hinner')

/-! ## The cut -/

/-- What stands before the last colon, or all where there is none. -/
def beforeLastColon (addr : String) : String := ((rsplitOnceChar ':' addr).map Prod.fst).getD addr

section Spellings

variable {v4 : Ipv4Addr} {v6 : Ipv6Addr} {port : Option UInt16} {text : String}

/-- All texts of an IPv4 address are spelled alike. -/
theorem Spelled.v4_eq (h : Spelled (.v4 v4) port text) :
    text = RealIpPlugin.formatAddr (.v4 v4) port := by
  cases h with
  | listener addr haddr =>
    cases addr with
    | v4 ip port =>
      cases haddr
      rfl
    | v6 ip port flowinfo scopeId => cases haddr
  | realIp => rfl

/-- The text of an IPv4 address is cut between address and port. -/
theorem rsplit_formatAddr (v4 : Ipv4Addr) (port : Option UInt16) :
    rsplitOnceChar ':' (RealIpPlugin.formatAddr (.v4 v4) port) =
      port.map fun port => ((IpAddr.v4 v4).display, showNat port.toNat) := by
  cases port with
  | none => exact rsplitOnceChar_eq_none (RealIpPlugin.colon_not_mem_v4 v4)
  | some port => exact RealIpPlugin.rsplit_v4 v4 port.toNat

theorem Spelled.cut_v4 (h : Spelled (.v4 v4) port text) :
    beforeLastColon text = (IpAddr.v4 v4).display := by
  rw [h.v4_eq]
  unfold beforeLastColon
  rw [rsplit_formatAddr]
  cases port with
  | none => rfl
  | some port => rfl

/-- What is cut off a bare IPv6 address is a group of it. -/
theorem cut_of_bare (v6 : Ipv6Addr) : ¬ Denotes (beforeLastColon (IpAddr.v6 v6).display) (.v6 v6) := by
  obtain ⟨front, last, hcut, hparse, hhead⟩ := IpAddr.cut_ne v6
  unfold beforeLastColon
  rw [hcut]
  rintro (hfront | ⟨inner, hbracket, -⟩)
  · exact hparse hfront
  · refine hhead ?_
    show front.toList.head? = some '['
    rw [show front = "[" ++ inner ++ "]" from hbracket, String.append_assoc, String.toList_append]
    rfl

end Spellings

/-! ## The balancer -/

namespace Balancer

variable [DefaultHasher]

/-- What `ip_hash` feeds the hasher. -/
theorem ipHash_eq (targets : Nat) (remoteAddr : String) :
    ipHash targets remoteAddr = (DefaultHasher.finish (beforeLastColon remoteAddr)).toNat % targets :=
  rfl

/-- One client sticks to one target, whatever the spelling of its address, and the text that is hashed is
    the whole address. -/
structure Sticky (balancer : Balancer) (ip : IpAddr) : Prop where
  one_target : ∃ idx < balancer.len, ∀ port text, Spelled ip port text →
    ∀ s task, ∃ s', balancer.step s (.select task text) = some s' ∧ s'.tasks task = .picked idx
  full_address : ∀ port text, Spelled ip port text → Denotes (beforeLastColon text) ip

/-- Two clients that are hashed on their whole addresses are not hashed on one text. -/
theorem Sticky.not_merged {balancer : Balancer} {ip ip' : IpAddr} (h : balancer.Sticky ip)
    (h' : balancer.Sticky ip') (hne : ip ≠ ip') {port port' : Option UInt16} {text text' : String}
    (htext : Spelled ip port text) (htext' : Spelled ip' port' text') :
    beforeLastColon text ≠ beforeLastColon text' := by
  intro hsame
  have hdenotes := h.full_address port text htext
  rw [hsame] at hdenotes
  exact hne (hdenotes.unique (h'.full_address port' text' htext'))

/-- **Stickiness**: for the addresses of IPv4, and for no others. -/
theorem ipHash_sticky_iff {balancer : Balancer} (hstrategy : balancer.strategy = .ipHash) (ip : IpAddr) :
    balancer.Sticky ip ↔ ∃ v4, ip = .v4 v4 := by
  constructor
  · intro h
    cases ip with
    | v4 v4 => exact ⟨v4, rfl⟩
    -- the bare text of the address is hashed without its last group
    | v6 v6 =>
      exact absurd (h.full_address none _ (.realIp none (Option.some_ne_none 0).symm)) (cut_of_bare v6)
  · rintro ⟨v4, rfl⟩
    refine ⟨⟨ipHash balancer.len (IpAddr.v4 v4).display,
      Nat.mod_lt _ (List.length_pos_iff.mpr balancer.targets_ne_nil), ?_⟩, ?_⟩
    · intro port text h s task
      refine ⟨{ s with tasks :=
        Function.update s.tasks task (.picked (ipHash balancer.len text)) }, ?_, ?_⟩
      · unfold step
        rw [hstrategy]
      · have hbare : Spelled (.v4 v4) none (IpAddr.v4 v4).display :=
          .realIp none (Option.some_ne_none 0).symm
        show Function.update s.tasks task _ task = _
        rw [Function.update_self, ipHash_eq, ipHash_eq, h.cut_v4, hbare.cut_v4]
    · intro port text h
      rw [h.cut_v4]
      exact denotes_display _

/-- Three targets, of which the hash of the client's address picks one. -/
def hashedTrio : Balancer := { trio with strategy := .ipHash }

end Balancer

/-- A client of IPv4, under a hash. -/
theorem Balancer.ipHash_sticky_v4 :
    let _ : DefaultHasher := ⟨fun s => UInt64.ofNat s.length⟩
    hashedTrio.Sticky (.v4 ⟨10, 1, 2, 3⟩) := by
  intro _
  exact (ipHash_sticky_iff rfl _).mpr ⟨⟨10, 1, 2, 3⟩, rfl⟩

/-- The address `2001:db8::` with a last group. -/
def documentation (last : UInt16) : Ipv6Addr := ⟨[0x2001, 0xdb8, 0, 0, 0, 0, 0, last], rfl⟩

theorem not_denotes_documentation (ip : IpAddr) : ¬ Denotes "2001:db8:" ip := by
  rintro (hparse | ⟨inner, hbracket, -⟩)
  · rw [show IpAddr.parse "2001:db8:" = none by decide] at hparse
    cases hparse
  · have hhead : "2001:db8:".toList.head? = some '[' := by
      rw [hbracket, String.append_assoc, String.toList_append]
      rfl
    exact absurd hhead (by decide)

/-- A node that takes the address of any peer's header. -/
def anyProxy : RealIpPlugin where
  source := "http_x_real_ip"
  trustedAddresses := none
  recursive := false

/-- A request from a link-local peer, which has a zone, on behalf of a client. -/
def onBehalfOf (client : String) : Context := Context.new {
  method := "GET", path := "/", host := "", scheme := "http", queryParams := ∅
  headers := (∅ : HashMap (List String)).insert "x-real-ip" [client]
  body := [], protocol := .http1
  remoteAddr := (SocketAddr.v6 ⟨[0xfe80, 0, 0, 0, 0, 0, 0, 1], rfl⟩ 443 0 2).display }

/-- Two clients whose addresses are written bare, as they are behind a peer with a zone, go to the target of
    one text; the same client with a port can go to another. -/
theorem Balancer.ipHash_merges :
    let _ : CaseMapping := asciiCaseMapping
    let _ : JsonText := oneFieldText
    ((anyProxy.execute (onBehalfOf "2001:db8::1")).context.request.remoteAddr = "2001:db8::1" ∧
      (anyProxy.execute (onBehalfOf "2001:db8::2")).context.request.remoteAddr = "2001:db8::2") ∧
    (beforeLastColon "2001:db8::1" = "2001:db8:" ∧ beforeLastColon "2001:db8::2" = "2001:db8:") ∧
    @ipHash ⟨fun s => UInt64.ofNat s.length⟩ 3 (SocketAddr.v6 (documentation 1) 443 0 0).display ≠
      @ipHash ⟨fun s => UInt64.ofNat s.length⟩ 3 "2001:db8::1" ∧
    ∀ (_ : DefaultHasher) (balancer : Balancer), ¬ balancer.Sticky (.v6 (documentation 1)) := by
  intro _ _
  refine ⟨⟨by decide, by decide⟩, ⟨by decide, by decide⟩, by decide, fun _ balancer h => ?_⟩
  have hcut := h.full_address none _ (.realIp none (Option.some_ne_none 0).symm)
  rw [show beforeLastColon (RealIpPlugin.formatAddr (.v6 (documentation 1)) none) = "2001:db8:" by decide]
    at hcut
  exact not_denotes_documentation _ hcut

/-! ## The extractors -/

namespace WolfRbacPlugin

/-- What wolf-rbac sends as `clientIP`. -/
def clientIp (ctx : Context) : String := beforeLastColon ctx.request.remoteAddr

theorem request_url (plugin : WolfRbacPlugin) (ctx : Context) (appid wolfToken : String) :
    (plugin.request ctx appid wolfToken).url =
      buildAccessCheckUrl plugin.server (if appid = "" then plugin.appid else appid)
        ctx.request.method ctx.request.path (clientIp ctx) :=
  rfl

end WolfRbacPlugin

namespace OpaPlugin

/-- `input.var.remote_addr` of a document. -/
def inputRemoteAddr (document : Json) : Option Json :=
  ((document.get "input").bind (Json.get "var")).bind (Json.get "remote_addr")

theorem inputRemoteAddr_build (plugin : OpaPlugin) (ctx : Context) (nowUnix : UInt64) :
    inputRemoteAddr (plugin.buildOpaInput ctx nowUnix) =
      some (.string (splitAddrPort ctx.request.remoteAddr).1) := by
  have hskip : ∀ (consumer : List Json) (rest : List (String × Json)),
      ((consumer.map fun c => ("consumer", c)) ++ rest).lookup "var" = rest.lookup "var" := by
    intro consumer rest
    -- no field of a consumer has the name
    induction consumer with
    | nil => rfl
    | cons c consumer ih => exact ih
  unfold inputRemoteAddr buildOpaInput
  dsimp only
  show Option.bind (List.lookup "var" _) _ = _
  rw [hskip]
  rfl

end OpaPlugin

section Extractors

variable [CaseMapping] [JsonText]

/-- The five readers of the client's address read one address. -/
structure Agree (ctx : Context) (ip : IpAddr) : Prop where
  vars : ∃ text, Vars.resolve ctx "remote_addr" = some text ∧ Denotes text ip
  log : ∀ nowMillis includeReqBody includeRespBody, ∃ text,
    (LogEntry.buildEntry nowMillis ctx none includeReqBody includeRespBody).get "client_ip" =
      some (.string text) ∧ Denotes text ip
  wolf : Denotes (WolfRbacPlugin.clientIp ctx) ip
  opa : ∀ (plugin : OpaPlugin) (nowUnix : UInt64), ∃ text,
    OpaPlugin.inputRemoteAddr (plugin.buildOpaInput ctx nowUnix) = some (.string text) ∧ Denotes text ip
  realIp : RealIpPlugin.denoted ctx.request.remoteAddr = some ip

end Extractors

section Readers

variable {v4 : Ipv4Addr} {v6 : Ipv6Addr} {port : Option UInt16} {text : String}

theorem Spelled.not_bracketed_v4 (h : Spelled (.v4 v4) port text) : stripPrefix "[" text = none := by
  rw [h.v4_eq]
  cases port with
  | none =>
    have hbare := RealIpPlugin.not_bracketed_display (.v4 v4) ""
    rwa [String.append_empty] at hbare
  | some port =>
    show stripPrefix "[" ((IpAddr.v4 v4).display ++ ":" ++ showNat port.toNat) = none
    rw [String.append_assoc]
    exact RealIpPlugin.not_bracketed_display (.v4 v4) _

theorem splitRemoteAddr_v4 (h : Spelled (.v4 v4) port text) :
    (Vars.splitRemoteAddr text).1 = (IpAddr.v4 v4).display := by
  have hstrip := h.not_bracketed_v4
  rw [h.v4_eq] at hstrip ⊢
  unfold Vars.splitRemoteAddr
  rw [hstrip, rsplit_formatAddr]
  cases port with
  | none => rfl
  | some port =>
    show (if _ then _ else _ : String × Option String).1 = _
    rw [if_neg (RealIpPlugin.colon_not_mem_v4 v4)]

theorem splitAddrPort_v4 (h : Spelled (.v4 v4) port text) :
    (OpaPlugin.splitAddrPort text).1 = (IpAddr.v4 v4).display := by
  have hstrip := h.not_bracketed_v4
  rw [h.v4_eq] at hstrip ⊢
  unfold OpaPlugin.splitAddrPort
  rw [hstrip, rsplit_formatAddr]
  cases port with
  | none => rfl
  | some port =>
    show (if _ then _ else _ : String × Option UInt16).1 = _
    rw [if_neg (RealIpPlugin.colon_not_mem_v4 v4)]

theorem clientIp_v4 (h : Spelled (.v4 v4) port text) :
    LogEntry.clientIp text = (IpAddr.v4 v4).display := by
  rw [h.v4_eq]
  unfold LogEntry.clientIp
  rw [rsplit_formatAddr]
  cases port with
  | none => rfl
  | some port =>
    show (if _ then _ else _ : String) = _
    rw [if_neg (RealIpPlugin.colon_not_mem_v4 v4)]

theorem denoted_v4 (h : Spelled (.v4 v4) port text) :
    RealIpPlugin.denoted text = if port = some 0 then none else some (.v4 v4) := by
  rw [h.v4_eq]
  by_cases hzero : port = some 0
  · rw [if_pos hzero, hzero]
    exact Option.map_eq_none_iff.mpr ((RealIpPlugin.parseIpPort_v4 v4 0).trans (if_pos rfl))
  · rw [if_neg hzero]
    exact RealIpPlugin.denoted_eq_some.mpr ⟨port, RealIpPlugin.parseIpPort_formatAddr _ hzero⟩

theorem colon_mem_v6 (v6 : Ipv6Addr) : ':' ∈ (IpAddr.v6 v6).display.toList := by
  by_contra hcolon
  obtain ⟨front, last, hcut, -⟩ := IpAddr.cut_ne v6
  rw [rsplitOnceChar_eq_none hcolon] at hcut
  cases hcut

/-- A text of an IPv6 address: bare, or in brackets with the port behind them. -/
theorem Spelled.v6_eq (h : Spelled (.v6 v6) port text) :
    text = (IpAddr.v6 v6).display ∨
      ∃ zone n, text = "[" ++ ((IpAddr.v6 v6).display ++ zone) ++ "]:" ++ showNat n := by
  cases h with
  | listener addr haddr =>
    cases addr with
    | v4 ip port => cases haddr
    | v6 ip port flowinfo scopeId =>
      cases haddr
      refine Or.inr ⟨SocketAddr.zoneText scopeId, port.toNat, ?_⟩
      rw [← @String.append_assoc "["]
      rfl
  | realIp =>
    cases port with
    | none => exact Or.inl rfl
    | some port =>
      refine Or.inr ⟨"", port.toNat, ?_⟩
      rw [String.append_empty]
      rfl

/-- In the log, a socket address in brackets stays as it is, with its port. -/
theorem clientIp_socket {inner : String} (hcolon : ':' ∈ inner.toList) (n : Nat) :
    LogEntry.clientIp ("[" ++ inner ++ "]:" ++ showNat n) = "[" ++ inner ++ "]:" ++ showNat n := by
  have hsplit : rsplitOnceChar ':' ("[" ++ inner ++ "]:" ++ showNat n) =
      some ("[" ++ inner ++ "]", showNat n) := by
    have hport : ':' ∉ (showNat n).toList := not_mem_showNat (by decide) n
    have h := rsplitOnceChar_append hport ("[" ++ inner ++ "]")
    rw [@String.append_assoc ("[" ++ inner)] at h
    exact h
  have hmem : ':' ∈ ("[" ++ inner ++ "]").toList := by
    rw [String.toList_append, String.toList_append]
    exact List.mem_append_left _ (List.mem_append_right _ hcolon)
  unfold LogEntry.clientIp
  rw [hsplit]
  show (if _ then _ else _ : String) = _
  rw [if_pos hmem]

theorem not_denotes_socket (inner : String) (n : Nat) (ip : IpAddr) :
    ¬ Denotes ("[" ++ inner ++ "]:" ++ showNat n) ip := by
  refine not_denotes_of_bracket ?_ ?_ ip
  · rw [String.append_assoc, String.append_assoc, String.toList_append]
    rfl
  · rw [String.toList_append, List.getLast?_append_of_ne_nil _ (toList_showNat_ne_nil n)]
    intro hlast
    exact RealIpPlugin.not_addressChar_close
      (RealIpPlugin.showNat_addressChar n ']' (List.mem_of_getLast? hlast))

variable [CaseMapping] [JsonText]

/-- **Agreement**: the readers agree on the addresses of IPv4 and on no others; with the port zero, which
    a datagram can come from, `real-ip` reads none. -/
theorem extractors_agree_iff {ctx : Context} {ip : IpAddr}
    (h : Spelled ip port ctx.request.remoteAddr) :
    ((∃ common, Agree ctx common) ↔ (∃ v4, ip = .v4 v4) ∧ port ≠ some 0) ∧
      ∀ common, Agree ctx common → common = ip := by
  have hsound : ∀ common, Agree ctx common → (∃ v4, ip = .v4 v4) ∧ port ≠ some 0 ∧ common = ip := by
    intro common hagree
    cases ip with
    | v4 v4 =>
      have hdenoted := hagree.realIp
      rw [denoted_v4 h] at hdenoted
      by_cases hzero : port = some 0
      · rw [if_pos hzero] at hdenoted
        cases hdenoted
      · rw [if_neg hzero] at hdenoted
        exact ⟨⟨v4, rfl⟩, hzero, (Option.some.inj hdenoted).symm⟩
    | v6 v6 =>
      exfalso
      rcases h.v6_eq with hbare | ⟨zone, n, hsocket⟩
      · -- wolf-rbac cuts a group off
        have hwolf := hagree.wolf
        have hdenoted := hagree.realIp
        unfold WolfRbacPlugin.clientIp at hwolf
        rw [hbare] at hwolf hdenoted
        rw [RealIpPlugin.denoted_eq_some.mpr ⟨none, RealIpPlugin.parseIpPort_display (.v6 v6)⟩]
          at hdenoted
        rw [← Option.some.inj hdenoted] at hwolf
        exact cut_of_bare v6 hwolf
      · -- the log keeps the port
        have hcolon : ':' ∈ ((IpAddr.v6 v6).display ++ zone).toList := by
          rw [String.toList_append]
          exact List.mem_append_left _ (colon_mem_v6 v6)
        obtain ⟨text, hlog, hdenotes⟩ := hagree.log none false false
        rw [LogEntry.buildEntry_clientIp, hsocket, clientIp_socket hcolon] at hlog
        rw [← Json.string.inj (Option.some.inj hlog)] at hdenotes
        exact not_denotes_socket _ n common hdenotes
  refine ⟨⟨fun ⟨common, hagree⟩ => ?_, ?_⟩, fun common hagree => (hsound common hagree).2.2⟩
  · obtain ⟨hv4, hzero, -⟩ := hsound common hagree
    exact ⟨hv4, hzero⟩
  · rintro ⟨⟨v4, rfl⟩, hzero⟩
    have hdisplay := denotes_display (.v4 v4)
    refine ⟨.v4 v4, ⟨(IpAddr.v4 v4).display, ?_, hdisplay⟩, fun nowMillis includeReqBody includeRespBody =>
      ⟨(IpAddr.v4 v4).display, ?_, hdisplay⟩, ?_, fun plugin nowUnix => ⟨(IpAddr.v4 v4).display, ?_,
      hdisplay⟩, ?_⟩
    · show some (Vars.splitRemoteAddr ctx.request.remoteAddr).1 = _
      rw [splitRemoteAddr_v4 h]
    · rw [LogEntry.buildEntry_clientIp, clientIp_v4 h]
    · unfold WolfRbacPlugin.clientIp
      rw [h.cut_v4]
      exact hdisplay
    · rw [OpaPlugin.inputRemoteAddr_build, splitAddrPort_v4 h]
    · rw [denoted_v4 h, if_neg hzero]

end Readers

/-- A listener's text for a client of IPv4. -/
theorem extractors_agree_v4 :
    let _ : CaseMapping := asciiCaseMapping
    let _ : JsonText := oneFieldText
    ∃ common, Agree (Context.new { (onBehalfOf "").request with remoteAddr := "10.1.2.3:44321" })
      common := by
  intro _ _
  have hspelled : Spelled (.v4 ⟨10, 1, 2, 3⟩) (some 44321)
      (Context.new { (onBehalfOf "").request with remoteAddr := "10.1.2.3:44321" }).request.remoteAddr :=
    .listener (.v4 ⟨10, 1, 2, 3⟩ 44321) rfl
  exact (extractors_agree_iff hspelled).1.mpr ⟨⟨⟨10, 1, 2, 3⟩, rfl⟩, by decide⟩

/-- The readers of what `real-ip` writes for a client of IPv6. -/
theorem extractors_disagree_bare :
    let _ : CaseMapping := asciiCaseMapping
    let _ : JsonText := oneFieldText
    let ctx := (anyProxy.execute (onBehalfOf "2001:db8::1")).context
    ctx.request.remoteAddr = "2001:db8::1" ∧ Vars.resolve ctx "remote_addr" = some "2001:db8::1" ∧
      WolfRbacPlugin.clientIp ctx = "2001:db8:" ∧
      LogEntry.clientIp (SocketAddr.v6 (documentation 1) 443 0 0).display = "[2001:db8::1]:443" ∧
      ¬ ∃ common, Agree ctx common := by
  intro _ _ ctx
  have hwolf : WolfRbacPlugin.clientIp ctx = "2001:db8:" := by decide
  refine ⟨by decide, by decide, hwolf, by decide, fun ⟨common, hagree⟩ => ?_⟩
  have hcut := hagree.wolf
  rw [hwolf] at hcut
  exact not_denotes_documentation _ hcut

end Featherbit
