/-
  THE PREFIX LENGTHS OF `ip-restriction` (`ip_matches` of `plugins/native/ip_restriction.rs`), as a machine
  runs it that checks its subtractions and shifts.

  A prefix length is any `u32` that the configuration has after a slash.  The mask is shifted by what is
  left of the width, and for a length above the width nothing is.

  1. **One entry** (`cidrChecked_eq`, `cidrChecked_overlong`) — only an overlong prefix of the client's family
     faults; zero is apart, so that no shift is by the whole width.
  2. **A list** (`ipMatchesChecked_ok`) — a run without a fault answers what the plugin does.
  3. **Which lists are safe** (`safeAt_iff`) — those in which every overlong prefix of the client's family comes
     after an entry that names the client.
-/
import Featherbit.Lib.Fault
import Featherbit.Plugins.IpRestriction

namespace Featherbit

namespace IpRestrictionPlugin

open Fault (sub shl)

/-! ## One entry -/

/-- The mask of a prefix length. -/
def maskChecked (width bits : Nat) : Except Fault (BitVec width) :=
  if bits = 0 then .ok 0
  else do
    let shift ← sub width bits
    shl (BitVec.allOnes width) shift

/-- The CIDR check of one entry. -/
def cidrChecked (pattern : String) (ip : IpAddr) : Except Fault Bool :=
  match splitOnceChar '/' pattern with
  | none => .ok false
  | some (net, bits) =>
    match IpAddr.parse net, parseU32 bits with
    | some net, some bits =>
      if net.width = ip.width then do
        let mask ← maskChecked ip.width bits
        .ok (BitVec.ofNat ip.width net.value &&& mask = BitVec.ofNat ip.width ip.value &&& mask)
      else .ok false
    | _, _ => .ok false

def entryChecked (addr : String) (ip : IpAddr) (pattern : String) : Except Fault Bool :=
  if pattern = addr ∨ pattern = ip.display then .ok true else cidrChecked pattern ip

/-- The loop over the entries. -/
def anyChecked (addr : String) (ip : IpAddr) : List String → Except Fault Bool
  | [] => .ok false
  | pattern :: patterns => do
    if ← entryChecked addr ip pattern then .ok true else anyChecked addr ip patterns

/-- `ip_matches`. -/
def ipMatchesChecked (patterns : List String) (addr : String) : Except Fault Bool :=
  match clientIp addr with
  | none => .ok false
  | some ip => anyChecked addr ip patterns

/-- A network of the address's family, with a prefix longer than its addresses. -/
def Overlong (ip : IpAddr) (pattern : String) : Prop :=
  ∃ net bits base k, splitOnceChar '/' pattern = some (net, bits) ∧ IpAddr.parse net = some base ∧
    parseU32 bits = some k ∧ base.width = ip.width ∧ ip.width < k

section Entry

variable {addr pattern : String} {ip : IpAddr}

theorem maskChecked_eq {width bits : Nat} (hwidth : width < 2 ^ 32) (hbits : bits ≤ width) :
    maskChecked width bits = .ok (maskOf width bits) := by
  unfold maskChecked
  by_cases h0 : bits = 0
  · rw [if_pos h0, maskOf, if_pos h0]
  · -- one bit at least is kept, so the shift is below the width
    rcases maskOf_eq hwidth hbits with h | h
    · exact absurd h h0
    · rw [if_neg h0, Fault.sub_eq_ok hbits, Fault.ok_bind, Fault.shl_eq_ok _ (by omega), h]

theorem maskChecked_overlong {width bits : Nat} (hbits : width < bits) :
    maskChecked width bits = .error .overflow := by
  unfold maskChecked
  rw [if_neg (by omega), Fault.sub_eq_error hbits]
  rfl

/-- No other entry faults. -/
theorem cidrChecked_eq (h : ¬ Overlong ip pattern) : cidrChecked pattern ip = .ok (cidrMatches pattern ip) := by
  unfold cidrChecked cidrMatches
  cases hsplit : splitOnceChar '/' pattern with
  | none => rfl
  | some parts =>
    obtain ⟨net, bits⟩ := parts
    dsimp only
    cases hnet : IpAddr.parse net with
    | none => rfl
    | some base =>
      cases hbits : parseU32 bits with
      | none => rfl
      | some k =>
        dsimp only
        by_cases hwidth : base.width = ip.width
        · have hk : k ≤ ip.width := by
            by_contra hk
            exact h ⟨net, bits, base, k, hsplit, hnet, hbits, hwidth, by omega⟩
          rw [if_pos hwidth, if_pos hwidth, maskChecked_eq (width_lt ip) hk, Fault.ok_bind]
        · rw [if_neg hwidth, if_neg hwidth]

theorem cidrChecked_overlong (h : Overlong ip pattern) : cidrChecked pattern ip = .error .overflow := by
  obtain ⟨net, bits, base, k, hsplit, hnet, hbits, hwidth, hk⟩ := h
  unfold cidrChecked
  rw [hsplit]
  dsimp only
  rw [hnet, hbits]
  dsimp only
  rw [if_pos hwidth, maskChecked_overlong hk]
  rfl

/-- The entry is the address as it came in or as it is printed, or a network that contains it. -/
def Names (addr : String) (ip : IpAddr) (pattern : String) : Prop :=
  pattern = addr ∨ pattern = ip.display ∨
    ∃ parts n, splitOnceChar '/' pattern = some parts ∧ networkOf pattern = some n ∧ n.Contains ip

theorem cidrMatches_names (h : ¬ Overlong ip pattern) : cidrMatches pattern ip = true ↔
    ∃ parts n, splitOnceChar '/' pattern = some parts ∧ networkOf pattern = some n ∧ n.Contains ip := by
  constructor
  · intro hmatches
    have hmatch := hmatches
    unfold cidrMatches at hmatch
    cases hsplit : splitOnceChar '/' pattern with
    | none =>
      rw [hsplit] at hmatch
      cases hmatch
    | some parts =>
      obtain ⟨net, bits⟩ := parts
      rw [hsplit] at hmatch
      dsimp only at hmatch
      cases hnet : IpAddr.parse net with
      | none =>
        rw [hnet] at hmatch
        cases hmatch
      | some base =>
        cases hbits : parseU32 bits with
        | none =>
          rw [hnet, hbits] at hmatch
          cases hmatch
        | some k =>
          rw [hnet, hbits] at hmatch
          dsimp only at hmatch
          split at hmatch
          · rename_i hwidth
            -- a longer prefix would be overlong
            have hk : k ≤ base.width := by
              by_contra hk
              exact h ⟨net, bits, base, k, hsplit, hnet, hbits, hwidth, by omega⟩
            have hn : networkOf pattern = some ⟨base, k, hk⟩ := by
              unfold networkOf
              rw [hsplit]
              dsimp only
              rw [hnet, hbits]
              exact dif_pos hk
            exact ⟨(net, bits), ⟨base, k, hk⟩, rfl, hn, (cidrMatches_iff hn hsplit ip).mp hmatches⟩
          · cases hmatch
  · rintro ⟨parts, n, hsplit, hn, hcontains⟩
    exact (cidrMatches_iff hn hsplit ip).mpr hcontains

theorem display_not_overlong (ip : IpAddr) : ¬ Overlong ip ip.display := by
  rintro ⟨net, bits, _, _, hsplit, -⟩
  have hslash := IpAddr.slash_not_mem (IpAddr.parse_display ip)
  rw [(networkOf_address hslash).1] at hsplit
  cases hsplit

/-- What an entry does where it does not fault. -/
theorem entryChecked_ok {b : Bool} (h : entryChecked addr ip pattern = .ok b) :
    b = entryMatches addr ip pattern ∧ (pattern = addr ∨ ¬ Overlong ip pattern) ∧
      (b = true ↔ Names addr ip pattern) := by
  unfold entryChecked at h
  unfold entryMatches Names
  by_cases hown : pattern = addr ∨ pattern = ip.display
  · rw [if_pos hown] at h
    obtain rfl := Except.ok.inj h
    rcases hown with rfl | rfl
    · refine ⟨?_, Or.inl rfl, iff_of_true rfl (Or.inl rfl)⟩
      rw [decide_eq_true rfl, Bool.true_or, Bool.true_or]
    · refine ⟨?_, Or.inr (display_not_overlong ip), iff_of_true rfl (Or.inr (Or.inl rfl))⟩
      rw [decide_eq_true (p := ip.display = ip.display) rfl, Bool.or_true, Bool.true_or]
  · rw [if_neg hown] at h
    obtain ⟨haddr, hdisplay⟩ := not_or.mp hown
    have hlong : ¬ Overlong ip pattern := by
      intro hlong
      rw [cidrChecked_overlong hlong] at h
      cases h
    rw [cidrChecked_eq hlong] at h
    obtain rfl := Except.ok.inj h
    rw [decide_eq_false haddr, decide_eq_false hdisplay, Bool.false_or, Bool.false_or]
    refine ⟨rfl, Or.inr hlong, ?_⟩
    rw [cidrMatches_names hlong, or_iff_right haddr, or_iff_right hdisplay]

/-- An entry faults exactly where its prefix is overlong, and it is not the address as it came in. -/
theorem entryChecked_error_iff :
    (∃ fault, entryChecked addr ip pattern = .error fault) ↔ Overlong ip pattern ∧ pattern ≠ addr := by
  constructor
  · rintro ⟨fault, h⟩
    unfold entryChecked at h
    split at h
    · cases h
    · rename_i hown
      by_cases hlong : Overlong ip pattern
      · exact ⟨hlong, fun haddr => hown (Or.inl haddr)⟩
      · rw [cidrChecked_eq hlong] at h
        cases h
  · rintro ⟨hlong, haddr⟩
    have hown : ¬ (pattern = addr ∨ pattern = ip.display) := by
      rintro (h | h)
      · exact haddr h
      · exact display_not_overlong ip (h ▸ hlong)
    exact ⟨.overflow, (if_neg hown).trans (cidrChecked_overlong hlong)⟩

end Entry

/-! ## A list -/

section Run

variable {addr : String} {ip : IpAddr} {patterns : List String}

/-- **A list.**  A run without a fault answers what the plugin does, and stops at no entry that is overlong. -/
theorem anyChecked_ok {b : Bool} (h : anyChecked addr ip patterns = .ok b) :
    b = patterns.any (entryMatches addr ip) ∧
      ∀ pattern, patterns.find? (entryMatches addr ip) = some pattern → Names addr ip pattern := by
  induction patterns with
  | nil =>
    obtain rfl := Except.ok.inj h
    exact ⟨rfl, fun pattern hfind => nomatch hfind⟩
  | cons first patterns ih =>
    rw [anyChecked] at h
    cases hfirst : entryChecked addr ip first with
    | error fault =>
      rw [hfirst] at h
      cases h
    | ok c =>
      obtain ⟨hmatch, -, hnames⟩ := entryChecked_ok hfirst
      rw [hfirst, Fault.ok_bind] at h
      rw [List.any_cons, List.find?_cons, ← hmatch]
      cases c with
      | true =>
        obtain rfl := Except.ok.inj h
        refine ⟨rfl, fun pattern hfind => ?_⟩
        obtain rfl := Option.some.inj hfind
        exact hnames.mp rfl
      | false => exact ih h

/-- A member of a list is the first one or one of the others. -/
theorem forall_split_cons {α : Type} {x : α} {xs : List α} {P : List α → α → Prop} :
    (∀ before a after, x :: xs = before ++ a :: after → P before a) ↔
      P [] x ∧ ∀ before a after, xs = before ++ a :: after → P (x :: before) a := by
  constructor
  · intro h
    refine ⟨h [] x xs rfl, fun before a after hxs => h (x :: before) a after ?_⟩
    rw [hxs, List.cons_append]
  · rintro ⟨hfirst, hrest⟩ before a after hxs
    cases before with
    | nil =>
      obtain ⟨rfl, -⟩ := List.cons.inj hxs
      exact hfirst
    | cons y before =>
      obtain ⟨rfl, htail⟩ := List.cons.inj hxs
      exact hrest before a after htail

/-- A run ends without a fault where each overlong entry comes after one that names the client. -/
theorem anyChecked_ok_iff : (∃ b, anyChecked addr ip patterns = .ok b) ↔
    ∀ before pattern after, patterns = before ++ pattern :: after → Overlong ip pattern →
      pattern = addr ∨ ∃ earlier ∈ before, Names addr ip earlier := by
  induction patterns with
  | nil =>
    refine iff_of_true ⟨false, rfl⟩ fun before pattern after hnil => ?_
    cases before <;> cases hnil
  | cons first patterns ih =>
    rw [forall_split_cons, anyChecked]
    cases hfirst : entryChecked addr ip first with
    | error fault =>
      obtain ⟨hlong, haddr⟩ := entryChecked_error_iff.mp ⟨fault, hfirst⟩
      refine iff_of_false (fun ⟨b, hb⟩ => nomatch hb) ?_
      rintro ⟨h, -⟩
      rcases h hlong with h | ⟨_, hmem, -⟩
      · exact haddr h
      · cases hmem
    | ok c =>
      obtain ⟨-, hlong, hnames⟩ := entryChecked_ok hfirst
      have hhere : Overlong ip first → first = addr ∨ ∃ earlier ∈ [], Names addr ip earlier := by
        intro h
        rcases hlong with haddr | hnot
        · exact Or.inl haddr
        · exact absurd h hnot
      rw [and_iff_right hhere, Fault.ok_bind]
      cases c with
      | true =>
        refine iff_of_true ⟨true, rfl⟩ fun before pattern after _ _ => Or.inr ?_
        exact ⟨first, List.mem_cons_self, hnames.mp rfl⟩
      | false =>
        have hnot : ¬ Names addr ip first := fun h => nomatch hnames.mpr h
        show (∃ b, anyChecked addr ip patterns = .ok b) ↔ _
        rw [ih]
        refine forall_congr' fun before => forall_congr' fun pattern => forall_congr' fun after =>
          imp_congr_right fun _ => imp_congr_right fun _ => or_congr_right ?_
        rw [List.exists_mem_cons_iff, or_iff_right hnot]

end Run

theorem ipMatchesChecked_ok {patterns : List String} {addr : String} {b : Bool}
    (h : ipMatchesChecked patterns addr = .ok b) : b = ipMatches patterns addr := by
  unfold ipMatchesChecked at h
  unfold ipMatches
  cases hip : clientIp addr with
  | none =>
    rw [hip] at h
    exact (Except.ok.inj h).symm
  | some ip =>
    rw [hip] at h
    exact (anyChecked_ok h).1

/-! ## Which lists are safe -/

/-- An address, a port after it or not, or a network. -/
def Denotes (pattern : String) : Prop := (networkOf pattern).isSome ∨ (clientIp pattern).isSome

/-- A list against an address: nothing faults, and an entry that matches stands for something. -/
structure SafeAt (patterns : List String) (addr : String) : Prop where
  no_fault : ∃ b, ipMatchesChecked patterns addr = .ok b
  matches_denote : ∀ ip, clientIp addr = some ip → ∀ pattern,
    patterns.find? (entryMatches addr ip) = some pattern → Denotes pattern

theorem Names.denotes {addr pattern : String} {ip : IpAddr} (hip : clientIp addr = some ip)
    (h : Names addr ip pattern) : Denotes pattern := by
  rcases h with rfl | rfl | ⟨-, n, -, hn, -⟩
  · refine Or.inr ?_
    rw [hip]
    rfl
  · have hslash := IpAddr.slash_not_mem (IpAddr.parse_display ip)
    refine Or.inl ?_
    rw [(networkOf_address hslash).2, IpAddr.parse_display]
    rfl
  · refine Or.inl ?_
    rw [hn]
    rfl

/-- **Which lists are safe.**  Those where each prefix that is longer than the client's address, in a network
    of its family, comes after an entry that names the client, or is the address as it came in. -/
theorem safeAt_iff (patterns : List String) (addr : String) : SafeAt patterns addr ↔
    ∀ ip, clientIp addr = some ip →
      ∀ before pattern after, patterns = before ++ pattern :: after → Overlong ip pattern →
        pattern = addr ∨ ∃ earlier ∈ before, Names addr ip earlier := by
  constructor
  · rintro ⟨hfault, -⟩ ip hip
    unfold ipMatchesChecked at hfault
    rw [hip] at hfault
    exact anyChecked_ok_iff.mp hfault
  · intro h
    refine ⟨?_, fun ip hip => ?_⟩
    · unfold ipMatchesChecked
      cases hip : clientIp addr with
      | none => exact ⟨false, rfl⟩
      | some ip => exact anyChecked_ok_iff.mpr (h ip hip)
    · obtain ⟨b, hb⟩ := anyChecked_ok_iff.mpr (h ip hip)
      exact fun pattern hfind => ((anyChecked_ok hb).2 pattern hfind).denotes hip

/-- A prefix of 33 bits: the subtraction underflows, and where it wraps, a client of another network
    matches. -/
theorem overlong_prefix_underflows : ¬ SafeAt ["10.0.0.0/33"] "11.1.2.3" ∧
    ipMatchesChecked ["10.0.0.0/33"] "11.1.2.3" = .error .overflow ∧
    ipMatches ["10.0.0.0/33"] "11.1.2.3" = true ∧ ¬ Denotes "10.0.0.0/33" := by
  have hfault : ipMatchesChecked ["10.0.0.0/33"] "11.1.2.3" = .error .overflow := by decide +kernel
  refine ⟨?_, hfault, by decide +kernel, ?_⟩
  · rintro ⟨⟨b, hb⟩, -⟩
    rw [hfault] at hb
    cases hb
  · unfold Denotes
    decide +kernel

end IpRestrictionPlugin

end Featherbit
