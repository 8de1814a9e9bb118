/-
  THE CLIENT'S ADDRESS FROM A HEADER (`plugins/native/real_ip.rs`).

  Behind proxies, the peer of a connection is the last proxy.  The node takes the client's address from a
  variable, such as a list in `X-Forwarded-For` to which every proxy adds the peer it saw, and writes it
  over the peer's, in one of the forms a listener prints.

  1. **The addresses** (`parseIpPort`): bare, with a port, in brackets or not.  What is written is read
     back (`parseIpPort_formatAddr`).
  2. **The walk** from the right end of the list passes over the trusted proxies (`getAddr_walk`).  It
     reads an entry as a bare address only, so that a trusted proxy that wrote its peer with a port, or in
     brackets, is taken for the client (`realIp_client_iff`).
  3. What stands to the left of the entry taken never matters (`walk_suffix`), and without a trusted peer
     nothing is written.
-/
import Featherbit.Plugins.IpRestriction
import Featherbit.Rust.IpCut
import Featherbit.Vars

namespace Featherbit

/-- A configured `real-ip` node. -/
structure RealIpPlugin where
  /-- variable the real address is read from -/
  source : String
  /-- `none` means always rewrite -/
  trustedAddresses : Option (List Network)
  /-- walk the list right to left -/
  recursive : Bool

namespace RealIpPlugin

/-- A port; zero is none. -/
def parsePort (s : String) : Option UInt16 := (parseU16 s).filter fun port => port ≠ 0

/-- `parse_ip_port`: `ip`, `ip:port`, `[v6]` or `[v6]:port`. -/
def parseIpPort (addr : String) : Option (IpAddr × Option UInt16) :=
  let addr := trim addr
  match stripPrefix "[" addr with
  | some rest => do
    let (ip, tail) ← splitOnceChar ']' rest
    let ip ← IpAddr.parse ip
    match stripPrefix ":" tail with
    | some port => (parsePort port).map fun port => (ip, some port)
    | none => if tail = "" then some (ip, none) else none
  | none =>
    match IpAddr.parse addr with
    | some ip => some (ip, none)
    | none => do
      let (ip, port) ← rsplitOnceChar ':' addr
      -- an IPv6 without brackets and with a port is ambiguous
      if ':' ∈ ip.toList then none
      else
        let ip ← IpAddr.parse ip
        (parsePort port).map fun port => (ip, some port)

/-! ## Configuration -/

/-- All bits of a single address count. -/
theorem all_bits_le (ip : IpAddr) : ip.width ≤ ip.width := Nat.le_refl _

/-- One item of `trusted_addresses`. -/
def parseTrusted [IpNetParser] (item : Json) : Except String Network :=
  item.asStr.elim (.error "trusted_addresses items must be strings") fun s =>
    match IpNetParser.parse s with
    | some net => .ok net
    | none =>
      match IpAddr.parse s with
      | some ip => .ok ⟨ip, ip.width, all_bits_le ip⟩
      | none => .error ("invalid ip address: " ++ s)

/-- `RealIpPlugin::from_config`. -/
def fromConfig [IpNetParser] (config : HashMap Json) : Except String RealIpPlugin := do
  let source ← match config["source"]?.bind Json.asStr with
    | none | some "" =>
      throw "real-ip plugin requires 'source' (a variable name, e.g. http_x_real_ip)"
    | some source => pure source
  let trustedAddresses ← match config["trusted_addresses"]? with
    | none => pure none
    | some raw =>
      match raw.asArray with
      | none => throw "trusted_addresses must be an array of IPs/CIDRs"
      | some [] => throw "trusted_addresses must contain at least one IP/CIDR"
      | some items => some <$> items.mapM parseTrusted
  return {
    source := source
    trustedAddresses := trustedAddresses
    recursive := (config["recursive"]?.bind Json.asBool).getD false }

/-! ## Execution -/

section Execute

variable (plugin : RealIpPlugin)

/-- `is_trusted`. -/
def isTrusted (ip : IpAddr) : Bool :=
  match plugin.trustedAddresses with
  | none => false
  | some nets => nets.any fun net => decide (net.Contains ip)

/-- The entries of a list, trimmed. -/
def listEntries (value : String) : List String := (splitChar ',' value).map trim

/-- An entry the walk passes over: a bare address that is trusted. -/
def passedOver (entry : String) : Bool := (IpAddr.parse entry).any plugin.isTrusted

/-- The walk, right to left; the leftmost entry where it passes over all others. -/
def walk (first : String) (others : List String) : String :=
  (others.reverse.find? fun entry => !plugin.passedOver entry).getD first

variable [CaseMapping] [JsonText] (ctx : Context)

/-- `get_addr`. -/
def getAddr : Option String :=
  if plugin.source = "http_x_forwarded_for" then do
    let value ← (← ctx.request.headers["x-forwarded-for"]?).getLast?
    match listEntries value with
    | [] => none
    | [part] => some part
    | first :: others =>
      if plugin.recursive ∧ plugin.trustedAddresses.isSome then some (plugin.walk first others)
      else others.getLast?
  else Vars.resolve ctx plugin.source

/-- An address as it is written back. -/
def formatAddr : IpAddr → Option UInt16 → String
  | .v6 v6, some port => "[" ++ (IpAddr.v6 v6).display ++ "]:" ++ showNat port.toNat
  | ip, some port => ip.display ++ ":" ++ showNat port.toNat
  | ip, none => ip.display

/-- What an entry is taken for; one that is no address leaves everything alone. -/
def rewritten (entry : String) : Context :=
  match parseIpPort entry with
  | none => ctx
  | some (ip, port) =>
    -- the peer's port stays where the entry has none
    let port := port.or ((parseIpPort ctx.request.remoteAddr).bind Prod.snd)
    { ctx with request := { ctx.request with remoteAddr := formatAddr ip port } }

/-- The rewrite only happens behind a trusted peer. -/
def peerTrusted : Bool :=
  plugin.trustedAddresses.isNone ||
    (parseIpPort ctx.request.remoteAddr).any fun peer => plugin.isTrusted peer.1

/-- `RealIpPlugin::execute`, which never fails. -/
def execute : PluginResult :=
  if plugin.peerTrusted ctx then
    match plugin.getAddr ctx with
    | none => .ok { context := ctx, namedOutputs := ∅ }
    | some addr => .ok { context := rewritten ctx addr, namedOutputs := ∅ }
  else .ok { context := ctx, namedOutputs := ∅ }

end Execute

/-! ## What is written is read back -/

theorem parsePort_showNat (port : UInt16) :
    parsePort (showNat port.toNat) = if port = 0 then none else some port := by
  unfold parsePort
  rw [parseU16_showNat]
  by_cases hport : port = 0
  · rw [if_pos hport, hport]
    rfl
  · rw [if_neg hport]
    exact Option.filter_some_pos (decide_eq_true hport)

theorem showNat_addressChar (n : Nat) : ∀ c ∈ (showNat n).toList, IpText.AddressChar c := by
  unfold showNat
  rw [String.toList_ofList]
  exact IpText.addressChar_toDigits (by decide) (by decide)

theorem not_addressChar_open : ¬ IpText.AddressChar '[' := by
  rintro (hdigit | hcolon | hdot)
  · exact absurd hdigit (by decide)
  · exact absurd hcolon (by decide)
  · exact absurd hdot (by decide)

theorem not_addressChar_close : ¬ IpText.AddressChar ']' := by
  rintro (hdigit | hcolon | hdot)
  · exact absurd hdigit (by decide)
  · exact absurd hcolon (by decide)
  · exact absurd hdot (by decide)

/-- No address begins with a bracket. -/
theorem parse_bracket_append (s : String) : IpAddr.parse ("[" ++ s) = none := by
  apply IpRestrictionPlugin.parse_bracketed
  unfold Bracketed
  rw [String.toList_append]
  rfl

theorem not_bracketed_display (ip : IpAddr) (s : String) : stripPrefix "[" (ip.display ++ s) = none := by
  refine stripPrefix_eq_none fun t h => ?_
  have hchars : (ip.display ++ s).toList.head? = ("[" ++ t).toList.head? := by rw [h]
  have hne : ip.display.toList ≠ [] := by
    intro hnil
    have hparse := IpAddr.parse_display ip
    rw [String.toList_eq_nil_iff.mp hnil] at hparse
    exact absurd hparse (by simp [show IpAddr.parse "" = none by decide])
  rw [String.toList_append, String.toList_append, List.head?_append_of_ne_nil _ hne] at hchars
  exact not_addressChar_open (ip.addressChar_display '[' (List.mem_of_mem_head? hchars))

/-- A bare address. -/
theorem parseIpPort_display (ip : IpAddr) : parseIpPort ip.display = some (ip, none) := by
  have htrim : trim ip.display = ip.display :=
    trim_eq_self fun c hc => (ip.addressChar_display c hc).not_whitespace
  have hstrip : stripPrefix "[" ip.display = none := by
    have h := not_bracketed_display ip ""
    rwa [String.append_empty] at h
  unfold parseIpPort
  rw [htrim]
  dsimp only
  rw [hstrip, IpAddr.parse_display]

/-- The port of an IPv4 address is what follows the only colon. -/
theorem rsplit_v4 (v4 : Ipv4Addr) (n : Nat) :
    rsplitOnceChar ':' ((IpAddr.v4 v4).display ++ ":" ++ showNat n) =
      some ((IpAddr.v4 v4).display, showNat n) :=
  rsplitOnceChar_append (not_mem_showNat (by decide) n) _

theorem colon_not_mem_v4 (v4 : Ipv4Addr) : ':' ∉ (IpAddr.v4 v4).display.toList := by
  show ':' ∉ (String.ofList (IpText.displayIpv4 v4)).toList
  rw [String.toList_ofList]
  exact IpText.colon_not_mem_displayIpv4 v4

/-- An IPv4 address with a port, which is not zero. -/
theorem parseIpPort_v4 (v4 : Ipv4Addr) (port : UInt16) :
    parseIpPort ((IpAddr.v4 v4).display ++ ":" ++ showNat port.toNat) =
      if port = 0 then none else some (.v4 v4, some port) := by
  have hchars : ((IpAddr.v4 v4).display ++ ":" ++ showNat port.toNat).toList =
      IpText.displayIpv4 v4 ++ ':' :: (showNat port.toNat).toList := by
    simp [IpAddr.display]
  have htrim : trim ((IpAddr.v4 v4).display ++ ":" ++ showNat port.toNat) =
      (IpAddr.v4 v4).display ++ ":" ++ showNat port.toNat := by
    refine trim_eq_self fun c hc => ?_
    rw [hchars] at hc
    rcases List.mem_append.mp hc with hc | hc
    · exact (IpText.addressChar_displayIpv4 v4 c hc).not_whitespace
    · rcases List.mem_cons.mp hc with rfl | hc
      · decide
      · exact (showNat_addressChar _ c hc).not_whitespace
  have hbare : IpAddr.parse ((IpAddr.v4 v4).display ++ ":" ++ showNat port.toNat) = none := by
    have h := IpAddr.parse_v4_append v4 (IpText.toDigit_colon 10) (showNat port.toNat).toList
    rwa [← hchars, String.ofList_toList] at h
  unfold parseIpPort
  rw [htrim]
  dsimp only
  rw [String.append_assoc, not_bracketed_display, ← String.append_assoc, hbare]
  dsimp only
  rw [rsplit_v4]
  show (if _ then _ else _) = _
  rw [if_neg (colon_not_mem_v4 v4)]
  show (IpAddr.parse (IpAddr.v4 v4).display).bind _ = _
  rw [IpAddr.parse_display, Option.bind_some, parsePort_showNat]
  by_cases hport : port = 0
  · rw [if_pos hport, if_pos hport]
    rfl
  · rw [if_neg hport, if_neg hport]
    rfl

/-- An IPv6 address in brackets, with a port. -/
theorem parseIpPort_v6 (v6 : Ipv6Addr) {port : UInt16} (hport : port ≠ 0) :
    parseIpPort ("[" ++ (IpAddr.v6 v6).display ++ "]:" ++ showNat port.toNat) =
      some (.v6 v6, some port) := by
  have htrim : trim ("[" ++ (IpAddr.v6 v6).display ++ "]:" ++ showNat port.toNat) =
      "[" ++ (IpAddr.v6 v6).display ++ "]:" ++ showNat port.toNat := by
    refine trim_eq_self fun c hc => ?_
    simp only [String.toList_append, List.mem_append] at hc
    rcases hc with ((hc | hc) | hc) | hc
    · rw [List.mem_singleton.mp hc]
      decide
    · exact ((IpAddr.v6 v6).addressChar_display c hc).not_whitespace
    · rcases List.mem_cons.mp hc with rfl | hc
      · decide
      · rw [List.mem_singleton.mp hc]
        decide
    · exact (showNat_addressChar _ c hc).not_whitespace
  have hclose : ']' ∉ (IpAddr.v6 v6).display.toList :=
    fun hmem => not_addressChar_close ((IpAddr.v6 v6).addressChar_display ']' hmem)
  have hsplit : splitOnceChar ']' ((IpAddr.v6 v6).display ++ "]:" ++ showNat port.toNat) =
      some ((IpAddr.v6 v6).display, ":" ++ showNat port.toNat) := by
    have h := splitOnceChar_append hclose (":" ++ showNat port.toNat)
    rw [String.append_assoc] at h ⊢
    exact h
  unfold parseIpPort
  rw [htrim]
  dsimp only
  rw [String.append_assoc, String.append_assoc, stripPrefix_append, ← String.append_assoc]
  dsimp only
  rw [hsplit]
  show (IpAddr.parse (IpAddr.v6 v6).display).bind _ = _
  rw [IpAddr.parse_display, Option.bind_some, stripPrefix_append]
  show (parsePort (showNat port.toNat)).map _ = _
  rw [parsePort_showNat, if_neg hport]
  rfl

theorem formatAddr_none (ip : IpAddr) : formatAddr ip none = ip.display := by
  cases ip with
  | v4 v4 => rfl
  | v6 v6 => rfl

/-- **Read back.** -/
theorem parseIpPort_formatAddr (ip : IpAddr) {port : Option UInt16} (hport : port ≠ some 0) :
    parseIpPort (formatAddr ip port) = some (ip, port) := by
  cases port with
  | none =>
    rw [formatAddr_none]
    exact parseIpPort_display ip
  | some port =>
    have hne : port ≠ 0 := fun h => hport (congrArg some h)
    cases ip with
    | v4 v4 => exact (parseIpPort_v4 v4 port).trans (if_neg hne)
    | v6 v6 => exact parseIpPort_v6 v6 hne

/-! ## The client's entry of a list -/

/-- The rightmost entry that is not trusted, or the leftmost one where all others are. -/
inductive ClientEntry (trusted : String → Prop) : List String → String → Prop
  | untrusted {left right : List String} {entry : String} :
      left ≠ [] → ¬ trusted entry → (∀ other ∈ right, trusted other) →
      ClientEntry trusted (left ++ entry :: right) entry
  | leftmost {entry : String} {right : List String} :
      (∀ other ∈ right, trusted other) → ClientEntry trusted (entry :: right) entry

section Client

variable {trusted passed : String → Prop} {entries : List String} {entry client : String}

/-- An entry with nothing but trusted ones to its right, that is not trusted or has nothing to its
    left. -/
theorem clientEntry_iff : ClientEntry trusted entries client ↔
    ∃ left right, entries = left ++ client :: right ∧ (∀ other ∈ right, trusted other) ∧
      (left = [] ∨ ¬ trusted client) := by
  constructor
  · intro h
    cases h with
    | @untrusted left right _ _ hclient hright => exact ⟨left, right, rfl, hright, Or.inr hclient⟩
    | @leftmost _ right hright => exact ⟨[], right, rfl, hright, Or.inl rfl⟩
  · rintro ⟨left, right, rfl, hright, hclient⟩
    cases left with
    | nil => exact .leftmost hright
    | cons first left =>
      exact .untrusted (List.cons_ne_nil _ _)
        (hclient.resolve_left (List.cons_ne_nil _ _)) hright

/-- There is one such entry. -/
theorem ClientEntry.unique (h : ClientEntry trusted entries client)
    (h' : ClientEntry trusted entries entry) : client = entry := by
  obtain ⟨left, right, rfl, hright, hclient⟩ := clientEntry_iff.mp h
  obtain ⟨left', right', hsplit, hright', hentry⟩ := clientEntry_iff.mp h'
  rcases List.append_eq_append_iff.mp hsplit with ⟨mid, hleft', htail⟩ | ⟨mid, hleft, htail⟩
  · cases mid with
    | nil => exact (List.cons.inj htail).1
    | cons c mid =>
      -- the other entry is to the right of this one, and has it to its left
      obtain ⟨rfl, hmid⟩ := List.cons.inj htail
      have hne : left' ≠ [] := by
        rw [hleft']
        exact List.append_ne_nil_of_right_ne_nil _ (List.cons_ne_nil _ _)
      refine absurd (hright entry ?_) (hentry.resolve_left hne)
      rw [hmid]
      exact List.mem_append_right _ List.mem_cons_self
  · cases mid with
    | nil => exact (List.cons.inj htail).1.symm
    | cons c mid =>
      obtain ⟨rfl, hmid⟩ := List.cons.inj htail
      have hne : left ≠ [] := by
        rw [hleft]
        exact List.append_ne_nil_of_right_ne_nil _ (List.cons_ne_nil _ _)
      refine absurd (hright' client ?_) (hclient.resolve_left hne)
      rw [hmid]
      exact List.mem_append_right _ List.mem_cons_self

theorem ClientEntry.exists (hne : entries ≠ []) : ∃ client, ClientEntry trusted entries client := by
  induction entries using List.reverseRecOn with
  | nil => exact absurd rfl hne
  | append_singleton entries last ih =>
    by_cases hlast : trusted last
    -- the client of the list is that of the entries before the last
    · rcases List.eq_nil_or_concat' entries with rfl | ⟨_, _, rfl⟩
      · exact ⟨last, .leftmost fun other hother => absurd hother List.not_mem_nil⟩
      · obtain ⟨client, hclient⟩ := ih (List.concat_ne_nil _ _)
        obtain ⟨left, right, hsplit, hright, hsame⟩ := clientEntry_iff.mp hclient
        refine ⟨client, clientEntry_iff.mpr ⟨left, right ++ [last], ?_, fun other hother => ?_, hsame⟩⟩
        · rw [hsplit, List.append_assoc]
          rfl
        · rcases List.mem_append.mp hother with hother | hother
          · exact hright other hother
          · rw [List.mem_singleton.mp hother]
            exact hlast
    · exact ⟨last, clientEntry_iff.mpr
        ⟨entries, [], rfl, fun other hother => absurd hother List.not_mem_nil, Or.inr hlast⟩⟩

end Client

/-! ## The walk -/

section Walk

variable (plugin : RealIpPlugin)

/-- The address that the entry denotes is trusted. -/
def TrustedEntry (entry : String) : Prop :=
  ∃ ip port, parseIpPort entry = some (ip, port) ∧ plugin.isTrusted ip = true

variable {plugin} {ctx : Context} {value : String}

theorem trim_trim (s : String) : trim (trim s) = trim s := by
  have hinner : ∀ l : List Char, ((l.dropWhile isWhitespace).rdropWhile isWhitespace).dropWhile
      isWhitespace = (l.dropWhile isWhitespace).rdropWhile isWhitespace := by
    intro l
    rw [List.dropWhile_eq_self_iff]
    intro hpos hhead
    have hpre := List.rdropWhile_prefix isWhitespace (l.dropWhile isWhitespace)
    have hne : l.dropWhile isWhitespace ≠ [] :=
      List.ne_nil_of_length_pos (Nat.lt_of_lt_of_le hpos hpre.length_le)
    have hfirst := List.head_dropWhile_not isWhitespace hne
    rw [List.head_eq_getElem, ← hpre.getElem hpos, hhead] at hfirst
    cases hfirst
  unfold trim
  rw [String.toList_ofList, hinner, List.rdropWhile_idempotent]

/-- A bare address, as an entry of a list has it. -/
theorem parseIpPort_of_parse {entry : String} {ip : IpAddr} (hparse : IpAddr.parse entry = some ip)
    (htrim : trim entry = entry) : parseIpPort entry = some (ip, none) := by
  have hstrip : stripPrefix "[" entry = none := by
    refine stripPrefix_eq_none fun t h => ?_
    rw [h, parse_bracket_append] at hparse
    cases hparse
  unfold parseIpPort
  rw [htrim]
  dsimp only
  rw [hstrip, hparse]

/-- What the walk passes over is trusted. -/
theorem trusted_of_passedOver {entry : String} (hentry : entry ∈ listEntries value)
    (h : plugin.passedOver entry = true) : plugin.TrustedEntry entry := by
  obtain ⟨ip, hparse, htrusted⟩ := (Option.any_eq_true _ _).mp h
  obtain ⟨part, -, rfl⟩ := List.mem_map.mp hentry
  exact ⟨ip, none, parseIpPort_of_parse hparse (trim_trim part), htrusted⟩

/-- The walk takes the entry it is meant to take, of those it passes over. -/
theorem walk_client (first : String) (others : List String) :
    ClientEntry (fun entry => plugin.passedOver entry = true) (first :: others)
      (plugin.walk first others) := by
  unfold walk
  cases hfind : others.reverse.find? fun entry => !plugin.passedOver entry with
  | none =>
    rw [List.find?_eq_none] at hfind
    refine .leftmost fun other hother => ?_
    have hpassed := hfind other (List.mem_reverse.mpr hother)
    simpa using hpassed
  | some entry =>
    obtain ⟨hentry, right, left, hsplit, hright⟩ := List.find?_eq_some_iff_append.mp hfind
    have hothers : others = left.reverse ++ entry :: right.reverse := by
      have hback := congrArg List.reverse hsplit
      rw [List.reverse_reverse] at hback
      rw [hback]
      simp
    rw [hothers, ← List.cons_append]
    refine .untrusted (List.cons_ne_nil _ _) ?_ fun other hother => ?_
    · simpa using hentry
    · have hpassed := hright other (List.mem_reverse.mp hother)
      simpa using hpassed

/-- The walk stops at an entry that is not passed over, whatever stands to its left. -/
theorem walk_stop {first entry : String} {others left right : List String}
    (hsplit : first :: others = left ++ entry :: right) (hentry : plugin.passedOver entry = false) :
    plugin.walk first others =
      ((right.reverse ++ [entry]).find? fun entry => !plugin.passedOver entry).getD entry := by
  unfold walk
  cases left with
  | nil =>
    obtain ⟨rfl, rfl⟩ := List.cons.inj (hsplit.trans (List.nil_append _))
    rw [List.find?_append]
    cases hfind : others.reverse.find? fun entry => !plugin.passedOver entry with
    | some other => rfl
    | none => simp [hentry]
  | cons c left =>
    obtain ⟨-, rfl⟩ := List.cons.inj (hsplit.trans (List.cons_append ..))
    rw [List.reverse_append, List.reverse_cons, List.find?_append, List.find?_append]
    cases hfind : right.reverse.find? fun entry => !plugin.passedOver entry with
    | some other => rfl
    | none => simp [hentry]

/-- What stands to the left of an entry that is not passed over does not matter. -/
theorem walk_suffix {first first' entry : String} {others others' left left' right : List String}
    (hsplit : first :: others = left ++ entry :: right)
    (hsplit' : first' :: others' = left' ++ entry :: right)
    (hentry : plugin.passedOver entry = false) :
    plugin.walk first others = plugin.walk first' others' := by
  rw [walk_stop hsplit hentry, walk_stop hsplit' hentry]

end Walk

/-! ## What the node writes -/

section Rewrite

/-- The address an entry denotes. -/
def denoted (entry : String) : Option IpAddr := (parseIpPort entry).map Prod.fst

theorem denoted_eq_some {entry : String} {ip : IpAddr} :
    denoted entry = some ip ↔ ∃ port, parseIpPort entry = some (ip, port) := by
  unfold denoted
  constructor
  · intro h
    obtain ⟨⟨ip', port⟩, hparse, rfl⟩ := Option.map_eq_some_iff.mp h
    exact ⟨port, hparse⟩
  · rintro ⟨port, hparse⟩
    rw [hparse]
    rfl

theorem parsePort_ne_zero {s : String} {port : UInt16} (h : parsePort s = some port) : port ≠ 0 :=
  of_decide_eq_true (Option.filter_eq_some_iff.mp h).2

/-- A port that is read is one. -/
theorem parseIpPort_port {entry : String} {ip : IpAddr} {port : Option UInt16}
    (h : parseIpPort entry = some (ip, port)) : port ≠ some 0 := by
  have hread : ∀ {s : String} {ip' : IpAddr},
      (parsePort s).map (fun port => (ip', some port)) = some (ip, port) → port ≠ some 0 := by
    intro s ip' hs
    obtain ⟨port', hport, heq⟩ := Option.map_eq_some_iff.mp hs
    obtain ⟨-, rfl⟩ := Prod.mk.inj heq
    exact fun hzero => parsePort_ne_zero hport (Option.some.inj hzero)
  unfold parseIpPort at h
  dsimp only at h
  split at h
  · obtain ⟨⟨inner, tail⟩, -, h⟩ := Option.bind_eq_some_iff.mp h
    obtain ⟨ip', -, h⟩ := Option.bind_eq_some_iff.mp h
    dsimp only at h
    split at h
    · exact hread h
    · split at h
      · cases h
        exact Option.some_ne_none 0 |>.symm
      · cases h
  · split at h
    · cases h
      exact Option.some_ne_none 0 |>.symm
    · obtain ⟨⟨front, last⟩, -, h⟩ := Option.bind_eq_some_iff.mp h
      dsimp only at h
      split at h
      · cases h
      · obtain ⟨ip', -, h⟩ := Option.bind_eq_some_iff.mp h
        exact hread h

/-- The spelling in which an entry is written over the address of a peer. -/
def spelling (peer entry : String) : Option String :=
  (parseIpPort entry).map fun (ip, port) =>
    formatAddr ip (port.or ((parseIpPort peer).bind Prod.snd))

theorem spelling_eq_some {peer entry addr : String} (h : spelling peer entry = some addr) :
    ∃ ip port, port ≠ some 0 ∧ denoted entry = some ip ∧ addr = formatAddr ip port := by
  obtain ⟨⟨ip, port⟩, hentry, rfl⟩ := Option.map_eq_some_iff.mp h
  refine ⟨ip, port.or ((parseIpPort peer).bind Prod.snd), ?_, denoted_eq_some.mpr ⟨port, hentry⟩, rfl⟩
  cases port with
  | some port =>
    rw [Option.some_or]
    exact parseIpPort_port hentry
  -- the port is the peer's
  | none =>
    rw [Option.none_or]
    intro hzero
    obtain ⟨⟨peerIp, peerPort⟩, hpeer, hsame⟩ := Option.bind_eq_some_iff.mp hzero
    exact parseIpPort_port hpeer hsame

/-- It denotes what the entry denotes. -/
theorem denoted_spelling {peer entry addr : String} (h : spelling peer entry = some addr) :
    denoted addr = denoted entry := by
  obtain ⟨ip, port, hport, hentry, rfl⟩ := spelling_eq_some h
  rw [hentry]
  exact denoted_eq_some.mpr ⟨port, parseIpPort_formatAddr ip hport⟩

variable {ctx : Context} {entry client : String}

theorem rewritten_none (h : denoted entry = none) : rewritten ctx entry = ctx := by
  unfold rewritten
  rw [Option.map_eq_none_iff.mp h]

theorem rewritten_some {addr : String} (h : spelling ctx.request.remoteAddr entry = some addr) :
    rewritten ctx entry = { ctx with request := { ctx.request with remoteAddr := addr } } := by
  obtain ⟨⟨ip, port⟩, hentry, rfl⟩ := Option.map_eq_some_iff.mp h
  unfold rewritten
  rw [hentry]

/-- The result has the address of `client` for the client's, in whatever spelling; it is the context as
    it was where `client` denotes no address. -/
def Follows (ctx result : Context) (client : String) : Prop :=
  (denoted client = none → result = ctx) ∧
    ∀ ip, denoted client = some ip → ∃ addr, denoted addr = some ip ∧
      result = { ctx with request := { ctx.request with remoteAddr := addr } }

theorem follows_rewritten : Follows ctx (rewritten ctx client) client := by
  refine ⟨rewritten_none, fun ip hip => ?_⟩
  obtain ⟨port, hparse⟩ := denoted_eq_some.mp hip
  have hspelling : spelling ctx.request.remoteAddr client =
      some (formatAddr ip (port.or ((parseIpPort ctx.request.remoteAddr).bind Prod.snd))) := by
    unfold spelling
    rw [hparse]
    rfl
  exact ⟨_, (denoted_spelling hspelling).trans hip, rewritten_some hspelling⟩

/-- Taking one entry for another: they have to denote the same, or nothing must come of it. -/
theorem follows_other_iff {ip : IpAddr} (hentry : denoted entry = some ip) :
    Follows ctx (rewritten ctx entry) client ↔
      denoted client = denoted entry ∨
        denoted client = none ∧ spelling ctx.request.remoteAddr entry = some ctx.request.remoteAddr := by
  obtain ⟨port, hparse⟩ := denoted_eq_some.mp hentry
  obtain ⟨addr, hspelling⟩ : ∃ addr, spelling ctx.request.remoteAddr entry = some addr := by
    unfold spelling
    rw [hparse]
    exact ⟨_, rfl⟩
  have haddr : denoted addr = some ip := (denoted_spelling hspelling).trans hentry
  rw [rewritten_some hspelling, hspelling, hentry]
  constructor
  · rintro ⟨hnone, hsome⟩
    cases hclient : denoted client with
    | none =>
      have hsame := congrArg (fun ctx : Context => ctx.request.remoteAddr) (hnone hclient)
      exact Or.inr ⟨rfl, congrArg some hsame⟩
    | some ip' =>
      obtain ⟨addr', haddr', hresult⟩ := hsome ip' hclient
      have hsame : addr = addr' :=
        congrArg (fun ctx : Context => ctx.request.remoteAddr) hresult
      rw [hsame, haddr'] at haddr
      exact Or.inl haddr
  · rintro (hclient | ⟨hclient, hsame⟩)
    · refine ⟨fun hnone => ?_, fun ip' hip' => ⟨addr, ?_, rfl⟩⟩
      · rw [hclient] at hnone
        cases hnone
      · rw [haddr, ← hclient, hip']
    · refine ⟨fun _ => ?_, fun ip' hip' => ?_⟩
      · rw [Option.some.inj hsame]
      · rw [hclient] at hip'
        cases hip'

theorem remoteAddr_rewritten : (rewritten ctx entry).request.remoteAddr =
    (spelling ctx.request.remoteAddr entry).getD ctx.request.remoteAddr := by
  cases hspelling : spelling ctx.request.remoteAddr entry with
  | some addr =>
    rw [rewritten_some hspelling]
    rfl
  | none =>
    rw [rewritten_none (Option.map_eq_none_iff.mpr (Option.map_eq_none_iff.mp hspelling))]
    rfl

end Rewrite

/-! ## The list and its client -/

section Recursive

/-- The node set to walk over the list in `X-Forwarded-For`, and the last value of the header. -/
structure ReadsList (plugin : RealIpPlugin) (ctx : Context) (value : String) : Prop where
  source : plugin.source = "http_x_forwarded_for"
  recursive : plugin.recursive = true
  trusted : plugin.trustedAddresses.isSome = true
  last : ctx.request.headers["x-forwarded-for"]?.bind List.getLast? = some value

/-- An address and nothing else. -/
def Bare (entry : String) : Prop := (IpAddr.parse entry).isSome = true

variable {plugin : RealIpPlugin} {ctx : Context} {value : String}

theorem passedOver_iff {entry : String} (hentry : entry ∈ listEntries value) :
    plugin.passedOver entry = true ↔ plugin.TrustedEntry entry ∧ Bare entry := by
  constructor
  · intro h
    obtain ⟨ip, hparse, -⟩ := (Option.any_eq_true _ _).mp h
    exact ⟨trusted_of_passedOver hentry h, Option.isSome_iff_exists.mpr ⟨ip, hparse⟩⟩
  · rintro ⟨⟨ip, port, hip, htrusted⟩, hbare⟩
    obtain ⟨ip', hparse⟩ := Option.isSome_iff_exists.mp hbare
    obtain ⟨part, -, rfl⟩ := List.mem_map.mp hentry
    have hsame := (parseIpPort_of_parse hparse (trim_trim part)).symm.trans hip
    obtain ⟨rfl, -⟩ := Prod.mk.inj (Option.some.inj hsame)
    exact (Option.any_eq_true _ _).mpr ⟨ip', hparse, htrusted⟩

theorem TrustedEntry.denoted {entry : String} (h : plugin.TrustedEntry entry) :
    ∃ ip, denoted entry = some ip := by
  obtain ⟨ip, port, hparse, -⟩ := h
  exact ⟨ip, denoted_eq_some.mpr ⟨port, hparse⟩⟩

theorem ReadsList.peerTrusted_iff (h : plugin.ReadsList ctx value) :
    plugin.peerTrusted ctx = true ↔ plugin.TrustedEntry ctx.request.remoteAddr := by
  unfold peerTrusted TrustedEntry
  rw [Option.isNone_eq_false_iff.mpr h.trusted, Bool.false_or, Option.any_eq_true]
  constructor
  · rintro ⟨⟨ip, port⟩, hpeer, htrusted⟩
    exact ⟨ip, port, hpeer, htrusted⟩
  · rintro ⟨ip, port, hpeer, htrusted⟩
    exact ⟨(ip, port), hpeer, htrusted⟩

variable [CaseMapping] [JsonText]

/-- The node takes the entry at which the walk stops. -/
theorem ReadsList.getAddr_walk (h : plugin.ReadsList ctx value) :
    ∃ first others, listEntries value = first :: others ∧
      plugin.getAddr ctx = some (plugin.walk first others) := by
  have hne : listEntries value ≠ [] := fun hnil => splitChar_ne_nil _ _ (List.map_eq_nil_iff.mp hnil)
  obtain ⟨first, others, hlist⟩ := List.exists_cons_of_ne_nil hne
  refine ⟨first, others, hlist, ?_⟩
  obtain ⟨values, hvalues, hlast⟩ := Option.bind_eq_some_iff.mp h.last
  unfold getAddr
  rw [if_pos h.source, hvalues, Option.bind_eq_bind, Option.bind_some, Option.bind_eq_bind, hlast,
    Option.bind_some, hlist]
  cases others with
  | nil => rfl
  | cons second others => exact if_pos ⟨h.recursive, h.trusted⟩

theorem ReadsList.execute_untrusted (h : plugin.ReadsList ctx value)
    (hpeer : ¬ plugin.TrustedEntry ctx.request.remoteAddr) :
    plugin.execute ctx = .ok { context := ctx, namedOutputs := ∅ } := by
  unfold execute
  rw [if_neg (mt h.peerTrusted_iff.mp hpeer)]

theorem ReadsList.execute_trusted (h : plugin.ReadsList ctx value)
    (hpeer : plugin.TrustedEntry ctx.request.remoteAddr) {entry : String}
    (hentry : plugin.getAddr ctx = some entry) :
    plugin.execute ctx = .ok { context := rewritten ctx entry, namedOutputs := ∅ } := by
  unfold execute
  rw [if_pos (h.peerTrusted_iff.mpr hpeer), hentry]

/-- What the walk is for: behind a trusted peer the client is the rightmost entry that is not trusted, or
    the leftmost one, and what is to the left of it has no influence; else nothing changes. -/
structure FindsClient (plugin : RealIpPlugin) (ctx : Context) (value : String) : Prop where
  untrusted_peer : ¬ plugin.TrustedEntry ctx.request.remoteAddr →
    plugin.execute ctx = .ok { context := ctx, namedOutputs := ∅ }
  client : plugin.TrustedEntry ctx.request.remoteAddr → ∃ client result,
    ClientEntry plugin.TrustedEntry (listEntries value) client ∧ Follows ctx result client ∧
      plugin.execute ctx = .ok { context := result, namedOutputs := ∅ }
  left_unread : ∀ left entry right, listEntries value = left ++ entry :: right →
    ¬ plugin.TrustedEntry entry → ∀ ctx' value' left', plugin.ReadsList ctx' value' →
    ctx'.request.remoteAddr = ctx.request.remoteAddr → listEntries value' = left' ++ entry :: right →
    (plugin.execute ctx').context.request.remoteAddr = (plugin.execute ctx).context.request.remoteAddr

/-- A trusted entry at which the walk stops for its spelling does no harm: the client's own entry denotes
    the same address, or none while the peer's address already reads as this entry is written. -/
def ReadsProxies (plugin : RealIpPlugin) (ctx : Context) (value : String) : Prop :=
  ∀ left entry right client, listEntries value = left ++ entry :: right → left ≠ [] →
    (∀ other ∈ right, plugin.TrustedEntry other ∧ Bare other) → plugin.TrustedEntry entry →
    ClientEntry plugin.TrustedEntry (listEntries value) client →
    Bare entry ∨ denoted client = denoted entry ∨
      denoted client = none ∧ spelling ctx.request.remoteAddr entry = some ctx.request.remoteAddr

/-- Nothing to the left of an untrusted entry is read. -/
theorem ReadsList.left_unread (h : plugin.ReadsList ctx value) {ctx' : Context} {value' : String}
    (h' : plugin.ReadsList ctx' value') (hsame : ctx'.request.remoteAddr = ctx.request.remoteAddr)
    {left left' right : List String} {entry : String}
    (hsplit : listEntries value = left ++ entry :: right)
    (hsplit' : listEntries value' = left' ++ entry :: right) (hentry : ¬ plugin.TrustedEntry entry) :
    (plugin.execute ctx').context.request.remoteAddr =
      (plugin.execute ctx).context.request.remoteAddr := by
  by_cases hpeer : plugin.TrustedEntry ctx.request.remoteAddr
  · have hpeer' : plugin.TrustedEntry ctx'.request.remoteAddr := by
      rw [hsame]
      exact hpeer
    have hstop : plugin.passedOver entry = false := by
      refine Bool.eq_false_iff.mpr fun hpassed => hentry ?_
      exact trusted_of_passedOver (by rw [hsplit]; exact List.mem_append_right _ List.mem_cons_self)
        hpassed
    obtain ⟨first, others, hlist, hget⟩ := h.getAddr_walk
    obtain ⟨first', others', hlist', hget'⟩ := h'.getAddr_walk
    have hwalk := walk_suffix (hlist'.symm.trans hsplit') (hlist.symm.trans hsplit) hstop
    have hresult : (plugin.execute ctx).context = rewritten ctx (plugin.walk first others) := by
      rw [h.execute_trusted hpeer hget]
      simp only [PluginResult.context]
    have hresult' : (plugin.execute ctx').context = rewritten ctx' (plugin.walk first' others') := by
      rw [h'.execute_trusted hpeer' hget']
      simp only [PluginResult.context]
    rw [hresult, hresult', hwalk, remoteAddr_rewritten, remoteAddr_rewritten, hsame]
  · have hpeer' : ¬ plugin.TrustedEntry ctx'.request.remoteAddr := by
      rw [hsame]
      exact hpeer
    rw [h.execute_untrusted hpeer, h'.execute_untrusted hpeer']
    exact hsame

/-- **The client of the list**: the walk finds it exactly where no trusted entry misleads it. -/
theorem realIp_client_iff (h : plugin.ReadsList ctx value) : plugin.FindsClient ctx value ↔
    (plugin.TrustedEntry ctx.request.remoteAddr → plugin.ReadsProxies ctx value) := by
  obtain ⟨first, others, hlist, hget⟩ := h.getAddr_walk
  have hwalk := @walk_client plugin first others
  rw [← hlist] at hwalk
  constructor
  -- an entry at which the walk stops for its spelling is the one that is taken
  · intro hfinds hpeer left entry right client hsplit hleft hright htrusted hclient
    by_cases hbare : Bare entry
    · exact Or.inl hbare
    obtain ⟨client', result, hclient', hfollows, hexecute⟩ := hfinds.client hpeer
    have hmem : ∀ other ∈ entry :: right, other ∈ listEntries value :=
      fun other hother => by rw [hsplit]; exact List.mem_append_right _ hother
    have hstop : ClientEntry (fun entry => plugin.passedOver entry = true) (listEntries value) entry :=
      clientEntry_iff.mpr ⟨left, right, hsplit,
        fun other hother => (passedOver_iff (hmem other (List.mem_cons_of_mem _ hother))).mpr
          (hright other hother),
        Or.inr fun hpassed => hbare ((passedOver_iff (hmem entry List.mem_cons_self)).mp hpassed).2⟩
    rw [h.execute_trusted hpeer hget, hwalk.unique hstop] at hexecute
    obtain ⟨hresult, -⟩ := PluginOutput.mk.inj (Except.ok.inj hexecute)
    obtain ⟨ip, hip⟩ := htrusted.denoted
    rw [← hresult, hclient'.unique hclient] at hfollows
    exact Or.inr ((follows_other_iff hip).mp hfollows)
  · intro hproxies
    refine ⟨h.execute_untrusted, fun hpeer => ?_, ?_⟩
    · obtain ⟨client, hclient⟩ := @ClientEntry.exists plugin.TrustedEntry (listEntries value)
        (by rw [hlist]; exact List.cons_ne_nil _ _)
      refine ⟨client, _, hclient, ?_, h.execute_trusted hpeer hget⟩
      obtain ⟨left, right, hsplit, hright, hside⟩ := clientEntry_iff.mp hwalk
      have hmem : ∀ other ∈ plugin.walk first others :: right, other ∈ listEntries value :=
        fun other hother => by rw [hsplit]; exact List.mem_append_right _ hother
      have hright' : ∀ other ∈ right, plugin.TrustedEntry other ∧ Bare other :=
        fun other hother => (passedOver_iff (hmem other (List.mem_cons_of_mem _ hother))).mp
          (hright other hother)
      by_cases hstop : left = [] ∨ ¬ plugin.TrustedEntry (plugin.walk first others)
      · -- the walk stops where it should
        have hsame : ClientEntry plugin.TrustedEntry (listEntries value) (plugin.walk first others) :=
          clientEntry_iff.mpr ⟨left, right, hsplit, fun other hother => (hright' other hother).1, hstop⟩
        rw [hclient.unique hsame]
        exact follows_rewritten
      · -- it stops at a trusted entry, which can only be for the spelling
        obtain ⟨hleft, htrusted⟩ := not_or.mp hstop
        have htrusted := not_not.mp htrusted
        obtain ⟨ip, hip⟩ := htrusted.denoted
        refine (follows_other_iff hip).mpr ?_
        refine (hproxies hpeer left _ right client hsplit hleft hright' htrusted hclient).resolve_left
          fun hbare => ?_
        exact hside.resolve_left hleft
          ((passedOver_iff (hmem _ List.mem_cons_self)).mpr ⟨htrusted, hbare⟩)
    · intro left entry right hsplit hentry ctx' value' left' h' hsame hsplit'
      exact h.left_unread h' hsame hsplit hsplit' hentry

end Recursive

/-- Two trusted proxies. -/
def twoProxies : RealIpPlugin where
  source := "http_x_forwarded_for"
  trustedAddresses := some [⟨.v4 ⟨10, 0, 0, 1⟩, 32, Nat.le_refl _⟩, ⟨.v4 ⟨10, 0, 0, 2⟩, 32, Nat.le_refl _⟩]
  recursive := true

/-- A request from the first of them, with the list it sends on. -/
def forwardedFor (list : String) : Context := Context.new {
  method := "GET", path := "/", host := "", scheme := "http", queryParams := ∅
  headers := (∅ : HashMap (List String)).insert "x-forwarded-for" [list]
  body := [], remoteAddr := "10.0.0.1:1111", protocol := .http1 }

/-- Where all entries are bare addresses, the walk finds the client. -/
theorem realIp_client_bare :
    let _ : CaseMapping := asciiCaseMapping
    let _ : JsonText := oneFieldText
    twoProxies.FindsClient (forwardedFor "1.2.3.4, 198.51.100.1, 10.0.0.2")
      "1.2.3.4, 198.51.100.1, 10.0.0.2" := by
  intro _ _
  refine (realIp_client_iff ⟨rfl, rfl, rfl, rfl⟩).mpr fun _ left entry right client hsplit _ _ _ _ => ?_
  have hbare : ∀ entry ∈ listEntries "1.2.3.4, 198.51.100.1, 10.0.0.2", (IpAddr.parse entry).isSome := by
    decide
  exact Or.inl (hbare entry (by rw [hsplit]; exact List.mem_append_right _ List.mem_cons_self))

/-- A trusted proxy that is written with its port is taken for the client. -/
theorem realIp_takes_proxy :
    let _ : CaseMapping := asciiCaseMapping
    let _ : JsonText := oneFieldText
    let _ : IpNetParser := ⟨fun _ => none⟩
    fromConfig ((((∅ : HashMap Json).insert "source" (.string "http_x_forwarded_for")).insert
        "trusted_addresses" (.array [.string "10.0.0.1", .string "10.0.0.2"])).insert
        "recursive" (.bool true)) = .ok twoProxies ∧
      twoProxies.ReadsList (forwardedFor "198.51.100.1, 10.0.0.2:443") "198.51.100.1, 10.0.0.2:443" ∧
      ClientEntry twoProxies.TrustedEntry (listEntries "198.51.100.1, 10.0.0.2:443") "198.51.100.1" ∧
      (twoProxies.execute (forwardedFor "198.51.100.1, 10.0.0.2:443")).context.request.remoteAddr =
        "10.0.0.2:443" ∧
      ¬ twoProxies.FindsClient (forwardedFor "198.51.100.1, 10.0.0.2:443")
        "198.51.100.1, 10.0.0.2:443" := by
  intro _ _ _
  have hproxy : twoProxies.TrustedEntry "10.0.0.2:443" :=
    ⟨.v4 ⟨10, 0, 0, 2⟩, some 443, by decide, by decide⟩
  have hpeer : twoProxies.TrustedEntry "10.0.0.1:1111" :=
    ⟨.v4 ⟨10, 0, 0, 1⟩, some 1111, by decide, by decide⟩
  have hclient : ClientEntry twoProxies.TrustedEntry (listEntries "198.51.100.1, 10.0.0.2:443")
      "198.51.100.1" := by
    refine clientEntry_iff.mpr ⟨[], ["10.0.0.2:443"], by decide, fun other hother => ?_, Or.inl rfl⟩
    rw [List.mem_singleton.mp hother]
    exact hproxy
  have hresult : (twoProxies.execute (forwardedFor "198.51.100.1, 10.0.0.2:443")).context.request.remoteAddr
      = "10.0.0.2:443" := by decide
  refine ⟨rfl, ⟨rfl, rfl, rfl, rfl⟩, hclient, hresult, fun hfinds => ?_⟩
  obtain ⟨client, result, hclient', hfollows, hexecute⟩ := hfinds.client hpeer
  rw [hclient'.unique hclient] at hfollows
  obtain ⟨addr, haddr, rfl⟩ := hfollows.2 (.v4 ⟨198, 51, 100, 1⟩) (by decide)
  rw [hexecute] at hresult
  simp only [PluginResult.context] at hresult
  rw [hresult] at haddr
  exact absurd haddr (by decide)

/-- In whatever mode, the address is left as it is or written over. -/
theorem remoteAddr_execute [CaseMapping] [JsonText] (plugin : RealIpPlugin) (ctx : Context) :
    (plugin.execute ctx).context.request.remoteAddr = ctx.request.remoteAddr ∨
      ∃ ip port, port ≠ some 0 ∧
        (plugin.execute ctx).context.request.remoteAddr = formatAddr ip port := by
  unfold execute
  split
  · split
    · exact Or.inl rfl
    · rename_i entry hentry
      simp only [PluginResult.context]
      rw [remoteAddr_rewritten]
      cases hspelling : spelling ctx.request.remoteAddr entry with
      | none => exact Or.inl rfl
      | some addr =>
        obtain ⟨ip, port, hport, -, haddr⟩ := spelling_eq_some hspelling
        exact Or.inr ⟨ip, port, hport, haddr⟩
  · exact Or.inl rfl

end RealIpPlugin

end Featherbit
