/-
  `ip-restriction` (`plugins/native/ip_restriction.rs`): allow and deny lists over the client's address.

  1. **What an entry stands for** — an address, or a network: all addresses of the family that agree
     with it in the first bits (`Network.Contains`).

  2. **What the plugin compares** — an entry with a prefix length by mask, any other entry by its text:
     with the address as it came in and with the text the address is printed as (`entryMatches_iff`).
     A socket address of IPv6 is in brackets, and no address is read out of it
     (`clientIp_bracketed`).

  3. **Where the decision is the one on addresses** (`decided_on_addresses_iff`): where an entry that
     contains the client is missed for its spelling, the outcome still has to be the same.
-/
import Featherbit.Plugins
import Featherbit.Rust.IpNet
import Featherbit.Rust.ParseInt
import Mathlib.Tactic.Ring

namespace Featherbit

/-! ## Networks -/

/-- The network an entry of a list stands for: an address alone is the network of its own. -/
def networkOf (entry : String) : Option Network :=
  match splitOnceChar '/' entry with
  | none => (IpAddr.parse entry).map fun ip => ⟨ip, ip.width, Nat.le_refl _⟩
  | some (net, bits) =>
    match IpAddr.parse net, parseU32 bits with
    | some ip, some bits => if h : bits ≤ ip.width then some ⟨ip, bits, h⟩ else none
    | _, _ => none

/-! ## The plugin -/

structure IpRestrictionPlugin where
  allow : List String
  deny : List String
deriving DecidableEq

namespace IpRestrictionPlugin

/-- The texts of an array of the configuration. -/
def entries (config : HashMap Json) (key : String) : List String :=
  ((config[key]?.bind Json.asArray).getD []).filterMap Json.asStr

/-- `IpRestrictionPlugin::from_config`; never fails. -/
def fromConfig (config : HashMap Json) : IpRestrictionPlugin where
  allow := entries config "allow"
  deny := entries config "deny"

/-- The client's IP: the address itself, or what stands before its last colon. -/
def clientIp (addr : String) : Option IpAddr :=
  match IpAddr.parse addr with
  | some ip => some ip
  | none => (rsplitOnceChar ':' addr).bind fun parts => IpAddr.parse parts.1

/-- The mask of a prefix length, `!0 << (width - bits)`; past the width the shift wraps, as a release
    build has it. -/
def maskOf (width bits : Nat) : BitVec width :=
  if bits = 0 then 0
  else BitVec.allOnes width <<< ((2 ^ 32 + width - bits) % 2 ^ 32 % width)

/-- The CIDR check of one entry. -/
def cidrMatches (pattern : String) (ip : IpAddr) : Bool :=
  match splitOnceChar '/' pattern with
  | none => false
  | some (net, bits) =>
    match IpAddr.parse net, parseU32 bits with
    | some net, some bits =>
      if net.width = ip.width then
        BitVec.ofNat ip.width net.value &&& maskOf ip.width bits =
          BitVec.ofNat ip.width ip.value &&& maskOf ip.width bits
      else false
    | _, _ => false

/-- One entry against the address as it came in and its IP. -/
def entryMatches (addr : String) (ip : IpAddr) (pattern : String) : Bool :=
  pattern = addr || pattern = ip.display || cidrMatches pattern ip

/-- `ip_matches`. -/
def ipMatches (patterns : List String) (addr : String) : Bool :=
  match clientIp addr with
  | none => false
  | some ip => patterns.any (entryMatches addr ip)

/-- A rejection with a 403. -/
def reject (ctx : Context) (code message : String) : PluginResult :=
  .error {
    context := { ctx with response := {
      statusCode := 403
      headers := ctx.response.headers.insert "content-type" ["application/json"]
      body := asBytes ("\x7b\"error\": \"forbidden\", \"message\": \"" ++ message ++ "\"\x7d") } }
    error := { nodeId := "", code := code, message := message, metadata := ∅ } }

variable (plugin : IpRestrictionPlugin)

/-- `execute`. -/
def execute (ctx : Context) : PluginResult :=
  let addr := ctx.request.remoteAddr
  if plugin.deny ≠ [] ∧ ipMatches plugin.deny addr then reject ctx "IP_DENIED" "IP address denied"
  else if plugin.allow ≠ [] ∧ ipMatches plugin.allow addr = false then
    reject ctx "IP_NOT_ALLOWED" "IP address not allowed"
  else .ok { context := ctx, namedOutputs := ∅ }

/-- The request goes through, as it is. -/
theorem execute_eq_ok (ctx : Context) :
    (∃ output, plugin.execute ctx = .ok output) ↔
      ipMatches plugin.deny ctx.request.remoteAddr = false ∧
        (plugin.allow = [] ∨ ipMatches plugin.allow ctx.request.remoteAddr = true) := by
  have hnil : ∀ addr, ipMatches [] addr = false := by
    intro addr
    unfold ipMatches
    cases clientIp addr <;> rfl
  unfold execute
  dsimp only
  cases hdeny : ipMatches plugin.deny ctx.request.remoteAddr with
  | true =>
    have hne : plugin.deny ≠ [] := by
      intro h
      rw [h, hnil] at hdeny
      cases hdeny
    simp [hne, reject]
  | false =>
    by_cases hallow : plugin.allow = []
    · simp [hallow]
    · cases hmatch : ipMatches plugin.allow ctx.request.remoteAddr with
      | true => simp [hallow]
      | false => simp [hallow, reject]

/-! ## Masks -/

/-- Masking the low bits away compares what is above them. -/
theorem and_mask_eq_iff {w : Nat} (x y : BitVec w) (k : Nat) :
    x &&& BitVec.allOnes w <<< k = y &&& BitVec.allOnes w <<< k ↔ x >>> k = y >>> k := by
  constructor
  · intro h
    apply BitVec.eq_of_getLsbD_eq
    intro i hi
    have hbit := congrArg (fun v => v.getLsbD (k + i)) h
    simp only [BitVec.getLsbD_ushiftRight]
    by_cases hw : k + i < w
    · simpa [hw, hi] using hbit
    · rw [BitVec.getLsbD_of_ge _ _ (by omega), BitVec.getLsbD_of_ge _ _ (by omega)]
  · intro h
    apply BitVec.eq_of_getLsbD_eq
    intro i hi
    by_cases hk : i < k
    · simp [hk]
    · have hbit := congrArg (fun v => v.getLsbD (i - k)) h
      simp only [BitVec.getLsbD_ushiftRight] at hbit
      have hik : k + (i - k) = i := by omega
      rw [hik] at hbit
      simp [hbit]

end IpRestrictionPlugin

/-! ## Addresses as numbers -/

theorem foldl_segments_lt : ∀ (segments : List UInt16) (n : Nat),
    segments.foldl (fun n segment => n * 65536 + segment.toNat) n < (n + 1) * 65536 ^ segments.length := by
  intro segments
  induction segments with
  | nil => intro n; simp
  | cons segment segments ih =>
    intro n
    have hlt : segment.toNat < 65536 := segment.toNat_lt
    calc segments.foldl (fun n segment => n * 65536 + segment.toNat) (n * 65536 + segment.toNat)
        < (n * 65536 + segment.toNat + 1) * 65536 ^ segments.length := ih _
      _ ≤ ((n + 1) * 65536) * 65536 ^ segments.length := Nat.mul_le_mul_right _ (by omega)
      _ = (n + 1) * 65536 ^ (segments.length + 1) := by rw [Nat.pow_succ]; ring

theorem foldl_segments_inj : ∀ (xs ys : List UInt16) (m n : Nat), xs.length = ys.length →
    xs.foldl (fun n segment => n * 65536 + segment.toNat) m =
      ys.foldl (fun n segment => n * 65536 + segment.toNat) n → m = n ∧ xs = ys := by
  intro xs
  induction xs with
  | nil =>
    intro ys m n hlength h
    cases ys with
    | nil => exact ⟨h, rfl⟩
    | cons y ys => cases hlength
  | cons x xs ih =>
    intro ys m n hlength h
    cases ys with
    | nil => cases hlength
    | cons y ys =>
      have hx : x.toNat < 65536 := x.toNat_lt
      have hy : y.toNat < 65536 := y.toNat_lt
      obtain ⟨hstep, htail⟩ := ih ys _ _ (Nat.succ.inj hlength) h
      have hvalue : m * 65536 + x.toNat = n * 65536 + y.toNat := hstep
      have hhead : x.toNat = y.toNat := by omega
      exact ⟨by omega, by rw [htail, UInt16.toNat_inj.mp hhead]⟩

theorem IpAddr.value_lt (ip : IpAddr) : ip.value < 2 ^ ip.width := by
  cases ip with
  | v4 addr =>
    have ha : addr.a.toNat < 256 := addr.a.toNat_lt
    have hb : addr.b.toNat < 256 := addr.b.toNat_lt
    have hc : addr.c.toNat < 256 := addr.c.toNat_lt
    have hd : addr.d.toNat < 256 := addr.d.toNat_lt
    show ((addr.a.toNat * 256 + addr.b.toNat) * 256 + addr.c.toNat) * 256 + addr.d.toNat < 2 ^ 32
    omega
  | v6 addr =>
    have h := foldl_segments_lt addr.segments 0
    rw [addr.length_eq] at h
    exact h

/-- An address is known by its family and its number. -/
theorem IpAddr.eq_of_value {x y : IpAddr} (hwidth : x.width = y.width) (h : x.value = y.value) :
    x = y := by
  cases x with
  | v4 x =>
    cases y with
    | v4 y =>
      have ha : x.a.toNat < 256 := x.a.toNat_lt
      have hb : x.b.toNat < 256 := x.b.toNat_lt
      have hc : x.c.toNat < 256 := x.c.toNat_lt
      have hd : x.d.toNat < 256 := x.d.toNat_lt
      have ha' : y.a.toNat < 256 := y.a.toNat_lt
      have hb' : y.b.toNat < 256 := y.b.toNat_lt
      have hc' : y.c.toNat < 256 := y.c.toNat_lt
      have hd' : y.d.toNat < 256 := y.d.toNat_lt
      have hvalue : ((x.a.toNat * 256 + x.b.toNat) * 256 + x.c.toNat) * 256 + x.d.toNat =
          ((y.a.toNat * 256 + y.b.toNat) * 256 + y.c.toNat) * 256 + y.d.toNat := h
      have heq : x = y := by
        rcases x with ⟨a, b, c, d⟩
        rcases y with ⟨a', b', c', d'⟩
        simp only at *
        rw [Ipv4Addr.mk.injEq, ← UInt8.toNat_inj, ← UInt8.toNat_inj, ← UInt8.toNat_inj,
          ← UInt8.toNat_inj]
        omega
      rw [heq]
    | v6 y => exact absurd (show 32 = 128 from hwidth) (by decide)
  | v6 x =>
    cases y with
    | v4 y => exact absurd (show 128 = 32 from hwidth) (by decide)
    | v6 y =>
      have hsegments := (foldl_segments_inj x.segments y.segments 0 0
        (x.length_eq.trans y.length_eq.symm) h).2
      rcases x with ⟨xs, hx⟩
      rcases y with ⟨ys, hy⟩
      simp only at hsegments
      subst hsegments
      rfl

/-- The network of an address alone contains that address. -/
theorem contains_self_iff (host ip : IpAddr) :
    Network.Contains ⟨host, host.width, Nat.le_refl _⟩ ip ↔ host = ip := by
  unfold Network.Contains
  simp only [Nat.sub_self, Nat.pow_zero, Nat.div_one]
  constructor
  · rintro ⟨hwidth, hvalue⟩
    exact IpAddr.eq_of_value hwidth hvalue
  · rintro rfl
    exact ⟨rfl, rfl⟩

namespace IpRestrictionPlugin

/-- The mask of a prefix length keeps that many bits. -/
theorem maskOf_eq {width bits : Nat} (hwidth : width < 2 ^ 32) (hbits : bits ≤ width) :
    bits = 0 ∨ maskOf width bits = BitVec.allOnes width <<< (width - bits) := by
  by_cases h : bits = 0
  · exact Or.inl h
  · right
    have hwrap : 2 ^ 32 + width - bits = (width - bits) + 2 ^ 32 := by omega
    have hshift : (2 ^ 32 + width - bits) % 2 ^ 32 % width = width - bits := by
      rw [hwrap, Nat.add_mod_right, Nat.mod_eq_of_lt (by omega), Nat.mod_eq_of_lt (by omega)]
    rw [maskOf, if_neg h, hshift]

/-- Masked numbers agree where their first bits do. -/
theorem masked_eq_iff {width bits x y : Nat} (hwidth : width < 2 ^ 32) (hbits : bits ≤ width)
    (hx : x < 2 ^ width) (hy : y < 2 ^ width) :
    BitVec.ofNat width x &&& maskOf width bits = BitVec.ofNat width y &&& maskOf width bits ↔
      x / 2 ^ (width - bits) = y / 2 ^ (width - bits) := by
  rcases maskOf_eq hwidth hbits with h0 | hmask
  · subst h0
    simp [maskOf, Nat.div_eq_of_lt hx, Nat.div_eq_of_lt hy]
  · rw [hmask, and_mask_eq_iff, ← BitVec.toNat_inj]
    simp only [BitVec.toNat_ushiftRight, BitVec.toNat_ofNat, Nat.mod_eq_of_lt hx, Nat.mod_eq_of_lt hy,
      Nat.shiftRight_eq_div_pow]

theorem width_lt (ip : IpAddr) : ip.width < 2 ^ 32 := by
  cases ip with
  | v4 addr => exact (by decide : 32 < 2 ^ 32)
  | v6 addr => exact (by decide : 128 < 2 ^ 32)

/-- The CIDR check is membership in the network of the entry. -/
theorem cidrMatches_iff {entry : String} {n : Network} {parts : String × String}
    (hn : networkOf entry = some n) (hsplit : splitOnceChar '/' entry = some parts) (ip : IpAddr) :
    cidrMatches entry ip = true ↔ n.Contains ip := by
  obtain ⟨net, bits⟩ := parts
  unfold networkOf at hn
  unfold cidrMatches
  rw [hsplit] at hn ⊢
  dsimp only at hn ⊢
  cases hnet : IpAddr.parse net with
  | none => simp [hnet] at hn
  | some addr =>
    cases hbits : parseU32 bits with
    | none => simp [hnet, hbits] at hn
    | some k =>
      simp only [hnet, hbits] at hn ⊢
      by_cases hk : k ≤ addr.width
      · rw [dif_pos hk] at hn
        cases hn
        unfold Network.Contains
        dsimp only
        by_cases hwidth : addr.width = ip.width
        · have hvalue : addr.value < 2 ^ ip.width := hwidth ▸ addr.value_lt
          have hk' : k ≤ ip.width := hwidth ▸ hk
          rw [if_pos hwidth, decide_eq_true_iff, masked_eq_iff (width_lt ip) hk' hvalue ip.value_lt]
          rw [hwidth]
          simp
        · simp [hwidth]
      · rw [dif_neg hk] at hn
        cases hn

end IpRestrictionPlugin

/-! ## The remote address -/

/-- The texts of a client's address: a socket address as the listener prints it (an IPv6 one in
    brackets, with its scope if it has one), or an address alone, in any spelling. -/
inductive RemoteAddr : String → IpAddr → Prop where
  | v4Socket (addr : Ipv4Addr) (port : UInt16) :
    RemoteAddr ((IpAddr.v4 addr).display ++ (":" ++ showNat port.toNat)) (.v4 addr)
  | v6Socket (addr : Ipv6Addr) (scope : UInt32) (port : UInt16) :
    RemoteAddr ("[" ++ (IpAddr.v6 addr).display ++
      (if scope = 0 then "" else "%" ++ showNat scope.toNat) ++ "]:" ++ showNat port.toNat) (.v6 addr)
  | bare {text : String} {ip : IpAddr} (h : IpAddr.parse text = some ip) : RemoteAddr text ip

/-- An IPv6 socket address is in brackets. -/
def Bracketed (addr : String) : Prop := addr.toList.head? = some '['

instance (addr : String) : Decidable (Bracketed addr) := inferInstanceAs (Decidable (_ = _))

namespace IpRestrictionPlugin

theorem parse_bracketed {s : String} (hs : Bracketed s) : IpAddr.parse s = none := by
  unfold Bracketed at hs
  cases hlist : s.toList with
  | nil => rw [hlist] at hs; cases hs
  | cons c cs =>
    rw [hlist] at hs
    cases hs
    have h := IpAddr.parse_bracket cs
    rwa [← hlist, String.ofList_toList] at h

/-- No IP is read out of an address in brackets. -/
theorem clientIp_bracketed {addr : String} (h : Bracketed addr) : clientIp addr = none := by
  unfold clientIp
  rw [parse_bracketed h]
  cases hsplit : rsplitOnceChar ':' addr with
  | none => rfl
  | some parts =>
    obtain ⟨p, hp, heq⟩ := Option.map_eq_some_iff.mp hsplit
    have hchars := Split.eq_of_rsplitOnce hp
    show IpAddr.parse parts.1 = none
    rw [← heq]
    apply parse_bracketed
    unfold Bracketed at h ⊢
    rw [String.toList_ofList]
    rw [hchars] at h
    cases hfirst : p.1 with
    | nil => rw [hfirst] at h; cases h
    | cons c cs => rw [hfirst] at h; exact h

/-- The IP of an IPv4 socket address is read. -/
theorem clientIp_v4Socket (v4 : Ipv4Addr) (port : UInt16) :
    clientIp ((IpAddr.v4 v4).display ++ (":" ++ showNat port.toNat)) = some (.v4 v4) := by
  have hchars : ((IpAddr.v4 v4).display ++ (":" ++ showNat port.toNat)).toList =
      (IpAddr.v4 v4).display.toList ++ ':' :: (showNat port.toNat).toList := by simp
  have hsocket : IpAddr.parse ((IpAddr.v4 v4).display ++ (":" ++ showNat port.toNat)) = none := by
    have htext := IpAddr.parse_v4_append v4 (IpText.toDigit_colon 10) (showNat port.toNat).toList
    rwa [show IpText.displayIpv4 v4 = (IpAddr.v4 v4).display.toList from String.toList_ofList.symm,
      ← hchars, String.ofList_toList] at htext
  have hsplit : rsplitOnceChar ':' ((IpAddr.v4 v4).display ++ (":" ++ showNat port.toNat)) =
      some ((IpAddr.v4 v4).display, showNat port.toNat) := by
    rw [rsplitOnceChar, hchars, Split.rsplitOnce_append (not_mem_showNat (by decide) _)]
    simp
  simp only [clientIp, hsocket, hsplit, Option.bind_some, IpAddr.parse_display]

/-- Out of an address that is not in brackets its IP is read. -/
theorem clientIp_remoteAddr {addr : String} {ip : IpAddr} (h : RemoteAddr addr ip)
    (hbracket : ¬ Bracketed addr) : clientIp addr = some ip ∧ '/' ∉ addr.toList := by
  cases h with
  | v4Socket v4 port =>
    refine ⟨clientIp_v4Socket v4 port, ?_⟩
    have hslash := IpAddr.slash_not_mem (IpAddr.parse_display (.v4 v4))
    have hport : '/' ∉ (showNat port.toNat).toList := not_mem_showNat (by decide) _
    simp [hslash, hport]
  | v6Socket v6 scope port => exact absurd (by simp [Bracketed]) hbracket
  | bare hparse =>
    constructor
    · simp only [clientIp, hparse]
    · exact IpAddr.slash_not_mem hparse

theorem not_bracketed_v4 {addr : String} {v4 : Ipv4Addr} (h : RemoteAddr addr (.v4 v4)) :
    ¬ Bracketed addr := by
  intro hbracket
  have hnone := clientIp_bracketed hbracket
  cases h with
  | v4Socket v4 port =>
    rw [clientIp_v4Socket] at hnone
    cases hnone
  | bare hparse =>
    rw [parse_bracketed hbracket] at hparse
    cases hparse

/-! ## The lists -/

/-- An entry of the list contains the IP. -/
def Lists (entries : List String) (ip : IpAddr) : Prop :=
  ∃ entry ∈ entries, ∃ n, networkOf entry = some n ∧ n.Contains ip

/-- The entry is compared by its bits, or it is spelled as the address is printed, or as the address
    came in. -/
def Plain (addr entry : String) : Prop :=
  '/' ∈ entry.toList ∨ (IpAddr.parse entry).map IpAddr.display = some entry ∨ entry = addr

instance (addr entry : String) : Decidable (Plain addr entry) :=
  inferInstanceAs (Decidable (_ ∨ _ ∨ _))

/-- The address is not in brackets, and a plain entry contains its IP. -/
def ListsPlainly (entries : List String) (addr : String) (ip : IpAddr) : Prop :=
  ¬ Bracketed addr ∧
    ∃ entry ∈ entries, Plain addr entry ∧ ∃ n, networkOf entry = some n ∧ n.Contains ip

/-- An address without a prefix length stands for itself. -/
theorem networkOf_address {entry : String} (h : '/' ∉ entry.toList) :
    splitOnceChar '/' entry = none ∧
      networkOf entry = (IpAddr.parse entry).map fun ip => ⟨ip, ip.width, Nat.le_refl _⟩ := by
  have hsplit : splitOnceChar '/' entry = none := by
    cases hs : splitOnceChar '/' entry with
    | none => rfl
    | some parts =>
      refine absurd ?_ h
      rw [eq_of_splitOnceChar hs]
      simp
  refine ⟨hsplit, ?_⟩
  unfold networkOf
  rw [hsplit]

/-- What the plugin finds in one entry is what the entry contains, where the entry is plain. -/
theorem entryMatches_iff {addr entry : String} {ip : IpAddr} {n : Network}
    (hclient : clientIp addr = some ip) (haddr : '/' ∉ addr.toList) (hn : networkOf entry = some n) :
    entryMatches addr ip entry = true ↔ Plain addr entry ∧ n.Contains ip := by
  have hmatch : entryMatches addr ip entry = true ↔
      entry = addr ∨ entry = ip.display ∨ cidrMatches entry ip = true := by
    simp [entryMatches, or_assoc]
  rw [hmatch]
  by_cases hslash : '/' ∈ entry.toList
  · have hplain : Plain addr entry := Or.inl hslash
    have haddr' : entry ≠ addr := fun h => haddr (h ▸ hslash)
    have hdisplay : entry ≠ ip.display := fun h =>
      IpAddr.slash_not_mem (IpAddr.parse_display ip) (h ▸ hslash)
    cases hsplit : splitOnceChar '/' entry with
    | none =>
      obtain ⟨before, after, htext, hbefore⟩ := List.eq_append_cons_of_mem hslash
      rw [splitOnceChar, htext, Split.splitOnce_append hbefore] at hsplit
      cases hsplit
    | some parts => simp [hplain, haddr', hdisplay, cidrMatches_iff hn hsplit ip]
  · obtain ⟨hsplit, hnetwork⟩ := networkOf_address hslash
    have hcidr : cidrMatches entry ip = false := by
      unfold cidrMatches
      rw [hsplit]
    rw [hnetwork] at hn
    obtain ⟨host, hparse, heq⟩ := Option.map_eq_some_iff.mp hn
    rw [← heq, contains_self_iff, hcidr]
    have hdisplay : ip.display = entry → host = ip := by
      intro h
      rw [← h, IpAddr.parse_display] at hparse
      exact (Option.some.inj hparse).symm
    have hown : entry = addr → host = ip := by
      intro h
      unfold clientIp at hclient
      rw [← h, hparse] at hclient
      exact Option.some.inj hclient
    unfold Plain
    rw [hparse]
    constructor
    · rintro (h | h | h)
      · exact ⟨Or.inr (Or.inr h), hown h⟩
      · refine ⟨Or.inr (Or.inl ?_), hdisplay h.symm⟩
        rw [hdisplay h.symm, h]
        rfl
      · cases h
    · rintro ⟨h | h | h, rfl⟩
      · exact absurd h hslash
      · exact Or.inr (Or.inl (Option.some.inj h).symm)
      · exact Or.inl h

/-- What the plugin finds in a list. -/
theorem ipMatches_iff {entries : List String} {addr : String} {ip : IpAddr} (haddr : RemoteAddr addr ip)
    (hdenote : ∀ entry ∈ entries, (networkOf entry).isSome) :
    ipMatches entries addr = true ↔ ListsPlainly entries addr ip := by
  unfold ipMatches ListsPlainly
  by_cases hbracket : Bracketed addr
  · simp [clientIp_bracketed hbracket, hbracket]
  · obtain ⟨hclient, hslash⟩ := clientIp_remoteAddr haddr hbracket
    simp only [hclient, hbracket, not_false_iff, true_and, List.any_eq_true]
    constructor
    · rintro ⟨entry, hmem, hmatch⟩
      obtain ⟨n, hn⟩ := Option.isSome_iff_exists.mp (hdenote entry hmem)
      obtain ⟨hplain, hcontains⟩ := (entryMatches_iff hclient hslash hn).mp hmatch
      exact ⟨entry, hmem, hplain, n, hn, hcontains⟩
    · rintro ⟨entry, hmem, hplain, n, hn, hcontains⟩
      exact ⟨entry, hmem, (entryMatches_iff hclient hslash hn).mpr ⟨hplain, hcontains⟩⟩

theorem ListsPlainly.lists {entries : List String} {addr : String} {ip : IpAddr}
    (h : ListsPlainly entries addr ip) : Lists entries ip := by
  obtain ⟨-, entry, hmem, -, hn⟩ := h
  exact ⟨entry, hmem, hn⟩

/-- Two decisions over a deny and an allow list, the first one finding less in both: they agree just
    where what it misses makes no difference. -/
theorem decision_iff {denied listedDeny allowed listedAllow empty : Prop} (hdeny : denied → listedDeny)
    (hallow : allowed → listedAllow) (hempty : empty → ¬ listedAllow) :
    ((¬ denied ∧ (empty ∨ allowed)) ↔ ¬ listedDeny ∧ (empty ∨ listedAllow)) ↔
      (listedDeny → denied ∨ ¬ empty ∧ ¬ allowed) ∧ (listedAllow → allowed ∨ listedDeny) := by
  by_cases hd : listedDeny
  · -- the second one rejects
    by_cases hdenied : denied
    · simp [hd, hdenied]
    · simp [hd, hdenied]
  · have hdenied : ¬ denied := fun h => hd (hdeny h)
    by_cases he : empty
    · simp [hd, hdenied, he, hempty he]
    · by_cases ha : allowed
      · simp [hd, hdenied, he, ha, hallow ha]
      · simp [hd, hdenied, he, ha]

/-- **The decision.**  For lists of addresses and networks and any address of a client, the request
    goes through exactly when no deny entry contains the client's IP and the allow list is empty or has
    an entry that does, just where what is missed for its spelling makes no difference: a denied client
    is denied by a plain entry or has no plain entry to be allowed by, and an allowed client is allowed
    by a plain entry or denied. -/
theorem decided_on_addresses_iff (plugin : IpRestrictionPlugin) (ctx : Context) {ip : IpAddr}
    (haddr : RemoteAddr ctx.request.remoteAddr ip)
    (hdenote : ∀ entry ∈ plugin.allow ++ plugin.deny, (networkOf entry).isSome) :
    ((∃ output, plugin.execute ctx = .ok output) ↔
      ¬ Lists plugin.deny ip ∧ (plugin.allow = [] ∨ Lists plugin.allow ip)) ↔
    (Lists plugin.deny ip → ListsPlainly plugin.deny ctx.request.remoteAddr ip ∨
        plugin.allow ≠ [] ∧ ¬ ListsPlainly plugin.allow ctx.request.remoteAddr ip) ∧
      (Lists plugin.allow ip → ListsPlainly plugin.allow ctx.request.remoteAddr ip ∨
        Lists plugin.deny ip) := by
  have hdeny := ipMatches_iff haddr fun entry h => hdenote entry (List.mem_append_right _ h)
  have hallow := ipMatches_iff haddr fun entry h => hdenote entry (List.mem_append_left _ h)
  have hdeny' : ipMatches plugin.deny ctx.request.remoteAddr = false ↔
      ¬ ListsPlainly plugin.deny ctx.request.remoteAddr ip := by
    rw [← hdeny, Bool.not_eq_true]
  have hempty : plugin.allow = [] → ¬ Lists plugin.allow ip := by
    rintro h ⟨entry, hmem, -⟩
    rw [h] at hmem
    exact List.not_mem_nil hmem
  rw [execute_eq_ok, hdeny', hallow]
  exact decision_iff ListsPlainly.lists ListsPlainly.lists hempty

/-- A network that contains an IPv4 address is written as one, or plainly with a prefix length. -/
theorem plain_of_contains_v4 {addr entry : String} {n : Network} {v4 : Ipv4Addr}
    (hn : networkOf entry = some n) (hcontains : n.Contains (.v4 v4)) : Plain addr entry := by
  by_cases hslash : '/' ∈ entry.toList
  · exact Or.inl hslash
  · rw [(networkOf_address hslash).2] at hn
    obtain ⟨host, hparse, heq⟩ := Option.map_eq_some_iff.mp hn
    rw [← heq, contains_self_iff] at hcontains
    rw [hcontains] at hparse
    refine Or.inr (Or.inl ?_)
    rw [hparse, IpAddr.eq_display_of_v4 hparse]
    rfl

/-- A client of IPv4 is decided on its address. -/
theorem v4_decided_on_address (plugin : IpRestrictionPlugin) (ctx : Context) {v4 : Ipv4Addr}
    (haddr : RemoteAddr ctx.request.remoteAddr (.v4 v4))
    (hdenote : ∀ entry ∈ plugin.allow ++ plugin.deny, (networkOf entry).isSome) :
    (∃ output, plugin.execute ctx = .ok output) ↔
      ¬ Lists plugin.deny (.v4 v4) ∧ (plugin.allow = [] ∨ Lists plugin.allow (.v4 v4)) := by
  have hbracket := not_bracketed_v4 haddr
  have hplainly : ∀ {entries}, Lists entries (.v4 v4) →
      ListsPlainly entries ctx.request.remoteAddr (.v4 v4) := by
    rintro entries ⟨entry, hmem, n, hn, hcontains⟩
    exact ⟨hbracket, entry, hmem, plain_of_contains_v4 hn hcontains, n, hn, hcontains⟩
  have hdeny := ipMatches_iff haddr fun entry h => hdenote entry (List.mem_append_right _ h)
  have hallow := ipMatches_iff haddr fun entry h => hdenote entry (List.mem_append_left _ h)
  rw [execute_eq_ok, ← Bool.not_eq_true, hdeny, hallow,
    show ListsPlainly plugin.deny ctx.request.remoteAddr (.v4 v4) ↔ Lists plugin.deny (.v4 v4) from
      ⟨ListsPlainly.lists, hplainly⟩,
    show ListsPlainly plugin.allow ctx.request.remoteAddr (.v4 v4) ↔ Lists plugin.allow (.v4 v4) from
      ⟨ListsPlainly.lists, hplainly⟩]

/-- A network of IPv6 is denied. -/
def denyDocumentation : IpRestrictionPlugin where
  allow := []
  deny := ["2001:db8::/32", "10.0.0.0/8", "2001:DB8::7"]

/-- A client at `2001:db8::1`. -/
def clientAt (addr : String) : Context :=
  Context.new {
    method := "GET", path := "/", host := "h", scheme := "http", headers := ∅, queryParams := ∅
    body := [], remoteAddr := addr, protocol := .http1 }

/-- `2001:db8::1`. -/
def documentationHost : Ipv6Addr := ⟨[0x2001, 0xdb8, 0, 0, 0, 0, 0, 1], rfl⟩

theorem decided_on_addresses_iff_bare :
    ((∃ output, denyDocumentation.execute (clientAt "2001:db8:0:0:0:0:0:1") = .ok output) ↔
      ¬ Lists denyDocumentation.deny (.v6 documentationHost) ∧
        (denyDocumentation.allow = [] ∨ Lists denyDocumentation.allow (.v6 documentationHost))) ↔
    (Lists denyDocumentation.deny (.v6 documentationHost) →
        ListsPlainly denyDocumentation.deny "2001:db8:0:0:0:0:0:1" (.v6 documentationHost) ∨
        denyDocumentation.allow ≠ [] ∧
          ¬ ListsPlainly denyDocumentation.allow "2001:db8:0:0:0:0:0:1" (.v6 documentationHost)) ∧
      (Lists denyDocumentation.allow (.v6 documentationHost) →
        ListsPlainly denyDocumentation.allow "2001:db8:0:0:0:0:0:1" (.v6 documentationHost) ∨
        Lists denyDocumentation.deny (.v6 documentationHost)) :=
  decided_on_addresses_iff denyDocumentation (clientAt "2001:db8:0:0:0:0:0:1")
    (.bare (by decide)) (by decide)

/-- A denied client of IPv6 goes through, as the listener prints its address. -/
theorem socket_of_denied_network_admitted :
    RemoteAddr "[2001:db8::1]:443" (.v6 documentationHost) ∧
    (∀ entry ∈ denyDocumentation.allow ++ denyDocumentation.deny, (networkOf entry).isSome) ∧
    Lists denyDocumentation.deny (.v6 documentationHost) ∧
    ∃ output, denyDocumentation.execute (clientAt "[2001:db8::1]:443") = .ok output := by
  refine ⟨?_, by decide, ?_, ?_⟩
  · exact RemoteAddr.v6Socket documentationHost 0 443
  · refine ⟨"2001:db8::/32", by decide, ?_⟩
    refine ⟨⟨.v6 ⟨[0x2001, 0xdb8, 0, 0, 0, 0, 0, 0], rfl⟩, 32, by decide⟩, by decide, by decide⟩
  · rw [execute_eq_ok]
    exact ⟨by decide, Or.inl rfl⟩

end IpRestrictionPlugin

end Featherbit
