/-
  UDP SESSIONS (`stream/udp.rs`): what a client and its session have of each other.

  1. **Privacy** (`PrivateInv`): every reply goes to the client of the session it was received for, once and
     in order.

  2. **Stickiness** (`Sticks`): a client whose datagrams are never more than `idle` apart gets another
     session only after a socket error, as long as no reader gives up on a client that has a datagram
     pending or has sent one within `idle` (`Timely`).  The activity clock alone does not give that: the
     loop notes a datagram on it only when it is done with the ones before, and a set-up for another client
     may take longer than `idle` (`one_client_two_sessions`).
-/
import Mathlib
import Featherbit.Stream.UdpMoves

namespace Featherbit

open UdpRelay

/-! ## Privacy -/

/-- What was received on the socket of a session. -/
def repliesFor (sid : Nat) (packets : List Packet) : List Bytes :=
  packets.filterMap fun
    | .reply sid' bytes => if sid' = sid then some bytes else none
    | _ => none

/-- What was sent to a client for it. -/
def answersFor (sid : Nat) (packets : List Packet) : List Bytes :=
  packets.filterMap fun
    | .answered sid' _ bytes => if sid' = sid then some bytes else none
    | _ => none

/-- The replies that a reader has not passed on, by where it is. -/
def Owes : Option ReaderPhase → List Bytes → Prop
  | some (.replying reply), rest => rest = [reply]
  | some (.leaving .socketError), _ => True
  | some (.done .socketError), _ => True
  | _, rest => rest = []

/-- Nothing of one client goes to another one. -/
structure Private (s : UdpState) : Prop where
  forwarded : ∀ sid d, .forwarded sid d ∈ s.packets →
    ∃ session, s.sessions[sid]? = some session ∧ session.client = d.client
  answered : ∀ sid dest bytes, .answered sid dest bytes ∈ s.packets →
    ∃ session, s.sessions[sid]? = some session ∧ session.client = dest
  replies : ∀ sid, answersFor sid s.packets <+: repliesFor sid s.packets

/-- What makes it so. -/
structure PrivateInv (s : UdpState) : Prop where
  sending : ∀ sid d, s.loop = .sending sid d →
    ∃ session, s.sessions[sid]? = some session ∧ session.client = d.client
  forwarded : ∀ sid d, .forwarded sid d ∈ s.packets →
    ∃ session, s.sessions[sid]? = some session ∧ session.client = d.client
  answered : ∀ sid dest bytes, .answered sid dest bytes ∈ s.packets →
    ∃ session, s.sessions[sid]? = some session ∧ session.client = dest
  replies : ∀ sid, ∃ rest, repliesFor sid s.packets = answersFor sid s.packets ++ rest ∧
    Owes ((s.sessions[sid]?).map (·.reader)) rest

theorem PrivateInv.private {s : UdpState} (h : PrivateInv s) : Private s where
  forwarded := h.forwarded
  answered := h.answered
  replies sid := by
    obtain ⟨rest, hrest, -⟩ := h.replies sid
    rw [hrest]
    exact List.prefix_append _ _

section Privacy

variable {relay : UdpRelay} {s s' : UdpState}

theorem privateInv_start : PrivateInv start where
  sending sid d h := by cases h
  forwarded sid d h := by cases h
  answered sid dest bytes h := by cases h
  replies sid := ⟨[], rfl, rfl⟩

/-- What the loop puts on the sockets. -/
theorem loopStep_packets {e : LoopEvent} (h : relay.loopStep s e = some s') :
    (s'.packets = s.packets ∨
      ∃ sid d, s.loop = .sending sid d ∧ s'.packets = s.packets ++ [.forwarded sid d]) ∧
    ∀ sid d, s'.loop = .sending sid d → s.map d.client = some sid ∨ s.loop = .sending sid d := by
  unfold loopStep at h
  cases e with
  | touch =>
    dsimp only at h
    split at h
    · split at h
      · rename_i d now hloop _ sid hsid
        obtain rfl := Option.some.inj h
        refine ⟨Or.inl rfl, fun sid' d' hsending => ?_⟩
        obtain ⟨rfl, rfl⟩ := LoopPhase.sending.inj hsending
        exact Or.inl hsid
      · obtain rfl := Option.some.inj h
        exact ⟨Or.inl rfl, fun sid' d' hsending => by cases hsending⟩
    · cases h
  | sent ok =>
    dsimp only at h
    split at h
    · rename_i sid d hloop
      obtain rfl := Option.some.inj h
      refine ⟨?_, fun sid' d' hsending => by cases hsending⟩
      cases ok with
      | true => exact Or.inr ⟨sid, d, hloop, rfl⟩
      | false => exact Or.inl rfl
    · cases h
  | lookup pick =>
    dsimp only at h
    split at h
    · split at h
      · obtain ⟨target, -, rfl⟩ := Option.map_eq_some_iff.mp h
        exact ⟨Or.inl rfl, fun sid' d' hsending => by cases hsending⟩
      · obtain rfl := Option.some.inj h
        exact ⟨Or.inl rfl, fun sid' d' hsending => by cases hsending⟩
    · cases h
  | _ =>
    dsimp only at h
    split at h
    · obtain rfl := Option.some.inj h
      exact ⟨Or.inl rfl, fun sid' d' hsending => by simp_all⟩
    · cases h

/-- The sessions keep their clients, and the new packets and readers fit. -/
theorem PrivateInv.next (hs : PrivateInv s) {packets : List Packet} (hpackets : s'.packets = s.packets ++ packets)
    (hkept : ∀ (sid : Nat) (session : UdpSession), s.sessions[sid]? = some session →
      ∃ session', s'.sessions[sid]? = some session' ∧ session'.client = session.client)
    (hsending : ∀ sid d, s'.loop = .sending sid d →
      ∃ session, s'.sessions[sid]? = some session ∧ session.client = d.client)
    (hforwarded : ∀ sid d, .forwarded sid d ∈ packets →
      ∃ session, s.sessions[sid]? = some session ∧ session.client = d.client)
    (hanswered : ∀ sid dest bytes, .answered sid dest bytes ∈ packets →
      ∃ session, s.sessions[sid]? = some session ∧ session.client = dest)
    (howes : ∀ sid rest, Owes ((s.sessions[sid]?).map (·.reader)) rest →
      ∃ rest', rest ++ repliesFor sid packets = answersFor sid packets ++ rest' ∧
        Owes ((s'.sessions[sid]?).map (·.reader)) rest') : PrivateInv s' := by
  have hmoved : ∀ (sid : Nat) (client : SocketAddr),
      (∃ session, s.sessions[sid]? = some session ∧ session.client = client) →
      ∃ session', s'.sessions[sid]? = some session' ∧ session'.client = client := by
    rintro sid client ⟨session, hsession, rfl⟩
    exact hkept sid session hsession
  refine ⟨hsending, fun sid d hmem => ?_, fun sid dest bytes hmem => ?_, fun sid => ?_⟩
  · rw [hpackets] at hmem
    rcases List.mem_append.mp hmem with hold | hnew
    · exact hmoved sid d.client (hs.forwarded sid d hold)
    · exact hmoved sid d.client (hforwarded sid d hnew)
  · rw [hpackets] at hmem
    rcases List.mem_append.mp hmem with hold | hnew
    · exact hmoved sid dest (hs.answered sid dest bytes hold)
    · exact hmoved sid dest (hanswered sid dest bytes hnew)
  · obtain ⟨rest, hrest, hphase⟩ := hs.replies sid
    obtain ⟨rest', hrest', hphase'⟩ := howes sid rest hphase
    refine ⟨rest', ?_, hphase'⟩
    rw [hpackets, repliesFor, answersFor, List.filterMap_append, List.filterMap_append]
    show repliesFor sid s.packets ++ repliesFor sid packets =
      answersFor sid s.packets ++ answersFor sid packets ++ rest'
    rw [hrest, List.append_assoc, hrest', List.append_assoc]

/-- A reader passes a reply on before it takes the next one. -/
theorem reader_owes (sid : Nat) {now : Nat} {session session' : UdpSession} {e : ReaderEvent}
    {rest : List Bytes} (h : relay.readerStep now session e = some session')
    (howes : Owes (some session.reader) rest) :
    ∃ rest', rest ++ repliesFor sid (readerPackets sid session e) =
        answersFor sid (readerPackets sid session e) ++ rest' ∧ Owes (some session'.reader) rest' := by
  unfold readerStep at h
  cases e with
  | recv reply =>
    dsimp only at h
    split at h
    · rename_i since hreader
      obtain rfl := Option.some.inj h
      rw [hreader] at howes
      obtain rfl : rest = [] := howes
      exact ⟨[reply], by simp [readerPackets, repliesFor, answersFor], rfl⟩
    · cases h
  | sent =>
    dsimp only at h
    split at h
    · rename_i reply hreader
      obtain rfl := Option.some.inj h
      rw [hreader] at howes
      obtain rfl : rest = [reply] := howes
      exact ⟨[], by simp [readerPackets, repliesFor, answersFor, hreader], rfl⟩
    · cases h
  | timeOut =>
    dsimp only at h
    split at h
    · rename_i since hreader
      split at h
      · obtain rfl := Option.some.inj h
        rw [hreader] at howes
        exact ⟨rest, List.append_nil rest, howes⟩
      · cases h
    · cases h
  | compare =>
    dsimp only at h
    split at h
    · rename_i clock hreader
      rw [hreader] at howes
      refine ⟨rest, List.append_nil rest, ?_⟩
      split at h
      · obtain rfl := Option.some.inj h
        exact howes
      · obtain rfl := Option.some.inj h
        exact howes
    · cases h
  | markDead =>
    dsimp only at h
    split at h
    · rename_i cause hreader
      obtain rfl := Option.some.inj h
      rw [hreader] at howes
      refine ⟨rest, List.append_nil rest, ?_⟩
      cases cause with
      | gaveUp => exact howes
      | socketError => trivial
    · cases h
  | sendFails =>
    dsimp only at h
    split at h
    · obtain rfl := Option.some.inj h
      exact ⟨rest, List.append_nil rest, trivial⟩
    · cases h
  | recvFails =>
    dsimp only at h
    split at h
    · obtain rfl := Option.some.inj h
      exact ⟨rest, List.append_nil rest, trivial⟩
    · cases h
  | _ =>
    dsimp only at h
    split at h
    · rename_i hreader
      obtain rfl := Option.some.inj h
      rw [hreader] at howes
      exact ⟨rest, List.append_nil rest, howes⟩
    · cases h

/-- The packets of a step of a reader are those of its session. -/
theorem readerPackets_spec {sid : Nat} {session : UdpSession} {e : ReaderEvent} :
    (∀ i d, .forwarded i d ∉ readerPackets sid session e) ∧
    (∀ i dest bytes, .answered i dest bytes ∈ readerPackets sid session e →
      i = sid ∧ dest = session.client) ∧
    ∀ i, i ≠ sid → repliesFor i (readerPackets sid session e) = [] ∧
      answersFor i (readerPackets sid session e) = [] := by
  cases e with
  | recv reply =>
    refine ⟨by simp [readerPackets], by simp [readerPackets], fun i hi => ⟨?_, ?_⟩⟩
    · simp [readerPackets, repliesFor, Ne.symm hi]
    · simp [readerPackets, answersFor]
  | sent =>
    unfold readerPackets
    dsimp only
    split
    · refine ⟨by simp, fun i dest bytes hmem => ?_, fun i hi => ⟨?_, ?_⟩⟩
      · obtain ⟨rfl, rfl, -⟩ := Packet.answered.inj (List.mem_singleton.mp hmem)
        exact ⟨rfl, rfl⟩
      · simp [repliesFor]
      · simp [answersFor, Ne.symm hi]
    · exact ⟨fun i d h => (by cases h), fun i dest bytes h => (by cases h), fun i hi => ⟨rfl, rfl⟩⟩
  | _ => exact ⟨fun i d h => (by cases h), fun i dest bytes h => (by cases h), fun i hi => ⟨rfl, rfl⟩⟩

theorem PrivateInv.calm (hs : PrivateInv s) {packets : List Packet} (hcalm : Calm s s')
    (hpackets : s'.packets = s.packets ++ packets)
    (hsending : ∀ sid d, s'.loop = .sending sid d →
      ∃ session, s.sessions[sid]? = some session ∧ session.client = d.client)
    (hforwarded : ∀ p ∈ packets, ∃ sid d, p = .forwarded sid d ∧
      ∃ session, s.sessions[sid]? = some session ∧ session.client = d.client) : PrivateInv s' := by
  have hkept : ∀ (sid : Nat) (session : UdpSession), s.sessions[sid]? = some session →
      ∃ session', s'.sessions[sid]? = some session' ∧ session'.client = session.client := by
    intro sid session hsession
    obtain ⟨session', hsession', hclient, -, -⟩ := exists_of_unclocked hcalm.sessions.symm hsession
    exact ⟨session', hsession', hclient.symm⟩
  have hnone : ∀ sid, repliesFor sid packets = [] ∧ answersFor sid packets = [] := by
    refine fun sid => ⟨List.filterMap_eq_nil_iff.mpr fun p hp => ?_,
      List.filterMap_eq_nil_iff.mpr fun p hp => ?_⟩
    · obtain ⟨sid', d, rfl, -⟩ := hforwarded p hp
      rfl
    · obtain ⟨sid', d, rfl, -⟩ := hforwarded p hp
      rfl
  refine hs.next hpackets hkept (fun sid d h => ?_) (fun sid d h => ?_) (fun sid dest bytes h => ?_)
    (fun sid rest howes => ⟨rest, ?_, ?_⟩)
  · obtain ⟨session, hsession, hclient⟩ := hsending sid d h
    obtain ⟨session', hsession', hclient'⟩ := hkept sid session hsession
    exact ⟨session', hsession', hclient'.trans hclient⟩
  · obtain ⟨sid', d', heq, hfound⟩ := hforwarded _ h
    obtain ⟨rfl, rfl⟩ := Packet.forwarded.inj heq
    exact hfound
  · obtain ⟨sid', d', heq, -⟩ := hforwarded _ h
    cases heq
  · rw [(hnone sid).1, (hnone sid).2, List.append_nil, List.nil_append]
  · have hreader : (s'.sessions[sid]?).map (·.reader) = (s.sessions[sid]?).map (·.reader) := by
      have hget := congrArg (fun l => (l[sid]?).map UdpSession.reader) hcalm.sessions
      simpa [List.getElem?_map, Option.map_map, Function.comp_def, UdpSession.unclocked] using hget
    rwa [hreader]

/-- A new session owes nothing. -/
theorem PrivateInv.setUp (hs : PrivateInv s) (d : Datagram) (now : UInt64) (target : Target) :
    PrivateInv (s.setUp d now target) := by
  refine hs.next (List.append_nil _).symm (fun sid session hsession => ?_) (fun sid d h => by cases h)
    (fun sid d h => by cases h) (fun sid dest bytes h => by cases h) (fun sid rest howes => ?_)
  · exact ⟨session, getElem?_append_some hsession, rfl⟩
  · refine ⟨rest, List.append_nil rest, ?_⟩
    cases hold : s.sessions[sid]? with
    | some session =>
      rw [hold] at howes
      rwa [show (s.setUp d now target).sessions[sid]? = some session from getElem?_append_some hold]
    | none =>
      rw [hold] at howes
      obtain rfl : rest = [] := howes
      cases hnew : (s.setUp d now target).sessions[sid]? with
      | none => rfl
      | some session =>
        rcases exists_of_append hnew with h | ⟨-, rfl⟩
        · rw [hold] at h
          cases h
        · rfl

/-- A reader answers the client of its session. -/
theorem PrivateInv.reader (hs : PrivateInv s) {sid : Nat} {session session' : UdpSession} {e : ReaderEvent}
    (hsession : s.sessions[sid]? = some session) (hstep : relay.readerStep s.now session e = some session') :
    PrivateInv { s with
      sessions := s.sessions.set sid session'
      packets := s.packets ++ readerPackets sid session e } := by
  obtain ⟨hforwarded, hanswered, hothers⟩ := @readerPackets_spec sid session e
  have hself : (s.sessions.set sid session')[sid]? = some session' :=
    List.getElem?_set_self (List.getElem?_eq_some_iff.mp hsession).1
  have hkept : ∀ (i : Nat) (other : UdpSession), s.sessions[i]? = some other →
      ∃ other', (s.sessions.set sid session')[i]? = some other' ∧ other'.client = other.client := by
    intro i other hother
    by_cases heq : sid = i
    · subst heq
      obtain rfl := Option.some.inj (hsession.symm.trans hother)
      exact ⟨session', hself, (readerStep_spec hstep).client⟩
    · exact ⟨other, by rw [List.getElem?_set_ne heq, hother], rfl⟩
  refine hs.next rfl hkept (fun i d hloop => ?_) (fun i d hmem => absurd hmem (hforwarded i d))
    (fun i dest bytes hmem => ?_) (fun i rest howes => ?_)
  · obtain ⟨other, hother, hclient⟩ := hs.sending i d hloop
    obtain ⟨other', hother', hclient'⟩ := hkept i other hother
    exact ⟨other', hother', hclient'.trans hclient⟩
  · obtain ⟨rfl, rfl⟩ := hanswered i dest bytes hmem
    exact ⟨session, hsession, rfl⟩
  · by_cases heq : i = sid
    · subst heq
      rw [hsession] at howes
      obtain ⟨rest', hrest', howes'⟩ := reader_owes i hstep howes
      refine ⟨rest', hrest', ?_⟩
      show Owes (((s.sessions.set i session')[i]?).map (·.reader)) rest'
      rwa [hself]
    · -- the readers of the other sessions are where they were
      refine ⟨rest, ?_, ?_⟩
      · rw [(hothers i heq).1, (hothers i heq).2, List.append_nil, List.nil_append]
      · show Owes (((s.sessions.set sid session')[i]?).map (·.reader)) rest
        rwa [List.getElem?_set_ne (Ne.symm heq)]

/-- **Privacy**, of one step. -/
theorem privateInv_step {e : UdpEvent} (hcon : Consistent s) (hs : PrivateInv s)
    (h : relay.step s e = some s') : PrivateInv s' := by
  cases e with
  | elapse nanos =>
    obtain rfl := Option.some.inj h
    exact { hs with }
  | arrive client payload =>
    obtain rfl := Option.some.inj h
    exact { hs with }
  | loop e =>
    obtain ⟨hpackets, hsending⟩ := loopStep_packets h
    rcases loopStep_cases h with ⟨d, now, target, hloop, rfl⟩ | hcalm
    · exact hs.setUp d now target
    · have hfound : ∀ sid d, s'.loop = .sending sid d →
          ∃ session, s.sessions[sid]? = some session ∧ session.client = d.client := by
        intro sid d hloop
        rcases hsending sid d hloop with hmap | hold
        · exact hcon.owner d.client sid hmap
        · exact hs.sending sid d hold
      rcases hpackets with hsame | ⟨sid, d, hloop, hnew⟩
      · exact hs.calm hcalm (hsame.trans (List.append_nil _).symm) hfound fun p h => by cases h
      · refine hs.calm hcalm hnew hfound fun p hp => ?_
        exact ⟨sid, d, List.mem_singleton.mp hp, hs.sending sid d hloop⟩
  | reader sid e =>
    obtain ⟨session, hsession, h⟩ := Option.bind_eq_some_iff.mp h
    obtain ⟨session', hstep, rfl⟩ := Option.map_eq_some_iff.mp h
    exact hs.reader hsession hstep

/-- **Privacy**, of a run: two invariants at once. -/
theorem private_of_reaches {Q : UdpState → UdpEvent → Prop} (h : relay.Reaches Q start s) :
    Consistent s ∧ PrivateInv s := by
  induction h with
  | refl => exact ⟨consistent_start, privateInv_start⟩
  | tail _ hstep ih =>
    obtain ⟨e, -, hstep⟩ := hstep
    exact ⟨consistent_step ih.1 hstep, privateInv_step ih.1 ih.2 hstep⟩

end Privacy

/-! ## Stickiness -/

namespace UdpRelay

variable (relay : UdpRelay) (client : SocketAddr)

/-- The client's datagrams are never more than `idle` apart, as they arrive. -/
def Steady (arrivals : List Datagram) : Prop :=
  ((arrivals.filter fun d => d.client = client).map Datagram.arrived).IsChain fun a b => b ≤ a + relay.idle

/-- Every datagram of the client arrived more than `idle` ago, and none is pending. -/
def Silent (s : UdpState) : Prop :=
  (∀ d ∈ s.arrivals, d.client = client → d.arrived + relay.idle < s.now) ∧
    ∀ d ∈ s.pending, d.client ≠ client

/-- No reader gives up on the client before the client is silent. -/
def Timely (s : UdpState) (e : UdpEvent) : Prop :=
  ∀ sid session, e = .reader sid .compare → s.sessions[sid]? = some session → session.client = client →
    relay.GivesUp session → relay.Silent client s

/-- The client keeps one session and one backend, unless a socket error ends it. -/
structure Sticky (s : UdpState) : Prop where
  /-- another session comes only after a socket error -/
  one : ∀ (i j : Nat) (si sj : UdpSession), i < j → s.sessions[i]? = some si → s.sessions[j]? = some sj →
    si.client = client → sj.client = client → si.SocketError
  /-- without one, all datagrams go to one target -/
  backend : (∀ session ∈ s.sessions, session.client = client → ¬ session.SocketError) →
    ∃ target, ∀ sid d, .forwarded sid d ∈ s.packets → d.client = client →
      (s.sessions[sid]?).map (·.target) = some target
  /-- a reader has given up only on a client whose datagrams all arrived more than `idle` ago -/
  kept : ∀ (sid : Nat) (session : UdpSession), s.sessions[sid]? = some session → session.client = client →
    session.GaveUp → ∀ d ∈ s.arrivals, d.client = client → d.arrived + relay.idle < s.now

/-- What makes it so. -/
structure Sticks (s : UdpState) : Prop where
  gaveUp : ∀ (sid : Nat) (session : UdpSession), s.sessions[sid]? = some session →
    session.client = client → session.GaveUp → relay.Silent client s
  one : ∀ (i j : Nat) (si sj : UdpSession), i < j → s.sessions[i]? = some si → s.sessions[j]? = some sj →
    si.client = client → sj.client = client → si.SocketError

end UdpRelay

section Stickiness

variable {relay : UdpRelay} {client : SocketAddr} {s s' : UdpState}

theorem UdpRelay.Steady.of_append {arrivals : List Datagram} {d : Datagram}
    (h : relay.Steady client (arrivals ++ [d])) : relay.Steady client arrivals := by
  rw [Steady, List.filter_append, List.map_append] at h
  exact h.left_of_append

/-- A client that has been silent and sends again is not steady. -/
theorem not_steady_of_silent {payload : Bytes} (hsilent : relay.Silent client s)
    (hsome : ∃ d ∈ s.arrivals, d.client = client) :
    ¬ relay.Steady client (s.arrivals ++ [⟨client, payload, s.now⟩]) := by
  intro h
  rw [Steady, List.filter_append, List.map_append, List.isChain_append] at h
  obtain ⟨x, hx, hclient⟩ := hsome
  have hne : (s.arrivals.filter fun d => d.client = client) ≠ [] :=
    List.ne_nil_of_mem (List.mem_filter.mpr ⟨hx, decide_eq_true hclient⟩)
  have hlast := List.mem_filter.mp (List.getLast_mem hne)
  have hgap := h.2.2 ((s.arrivals.filter fun d => d.client = client).getLast hne).arrived
    (by rw [List.getLast?_map, List.getLast?_eq_some_getLast hne]; rfl) s.now
    (by simp)
  have hlong := hsilent.1 _ hlast.1 (of_decide_eq_true hlast.2)
  omega

theorem UdpRelay.Silent.mono (h : relay.Silent client s) (hnow : s.now ≤ s'.now) (harrivals : s'.arrivals = s.arrivals)
    (hpending : ∀ d ∈ s'.pending, d ∈ s.pending) : relay.Silent client s' := by
  refine ⟨fun d hd hclient => ?_, fun d hd => h.2 d (hpending d hd)⟩
  rw [harrivals] at hd
  have hlong := h.1 d hd hclient
  omega

/-- A datagram of another client disturbs no silence. -/
theorem UdpRelay.Silent.arrive (h : relay.Silent client s) {other : SocketAddr} (hother : other ≠ client)
    (payload : Bytes) : relay.Silent client { s with
      arrivals := s.arrivals ++ [⟨other, payload, s.now⟩]
      queue := s.queue ++ [⟨other, payload, s.now⟩] } := by
  refine ⟨fun d hd hd' => ?_, fun d hd => ?_⟩
  · rcases List.mem_append.mp hd with hd | hd
    · exact h.1 d hd hd'
    · rw [List.mem_singleton.mp hd] at hd'
      exact absurd hd' hother
  · rcases List.mem_append.mp hd with hhand | hqueue
    · exact h.2 d (List.mem_append_left _ hhand)
    · rcases List.mem_append.mp hqueue with hqueue | hnew
      · exact h.2 d (List.mem_append_right _ hqueue)
      · rw [List.mem_singleton.mp hnew]
        exact hother

/-- A session is set up only after the earlier ones of its client ended, and not by silence. -/
theorem UdpRelay.Sticks.setUp (h : relay.Sticks client s) (hcon : Consistent s) {d : Datagram} {now : UInt64}
    {target : Target} (hloop : s.loop = .creating d now target) :
    relay.Sticks client (s.setUp d now target) := by
  have hpending : d ∈ s.pending := by
    rw [UdpState.pending, hloop]
    exact List.mem_cons_self
  refine ⟨fun sid session hsession hclient hgave => ?_, fun i j si sj hlt hi hj hsi hsj => ?_⟩
  · rcases exists_of_append hsession with hold | ⟨-, rfl⟩
    · refine (h.gaveUp sid session hold hclient hgave).mono (Nat.le_refl _) rfl fun x hx => ?_
      rw [UdpState.pending, hloop]
      exact hx
    · rcases hgave with hgave | hgave
      · cases hgave
      · cases hgave
  · rcases exists_of_append hj with hj | ⟨rfl, rfl⟩
    · rcases exists_of_append hi with hi | ⟨rfl, -⟩
      · exact h.one i j si sj hlt hi hj hsi hsj
      · have hbound := (List.getElem?_eq_some_iff.mp hj).1
        omega
    · -- the new session: the earlier ones of its client are over
      have hi : s.sessions[i]? = some si := by
        rcases exists_of_append hi with hi | ⟨rfl, -⟩
        · exact hi
        · omega
      have hdead : si.alive = false := by
        by_contra halive
        have hmap := hcon.alive.resolve_left (by rw [hloop]; exact fun h => by cases h) i si hi
          (by simpa using halive)
        rw [hsi, ← hsj, hcon.vacant d now target hloop] at hmap
        cases hmap
      obtain ⟨cause, hcause⟩ := hcon.dead i si hi hdead
      cases cause with
      | socketError => exact Or.inr hcause
      | gaveUp =>
        -- it was given up on with this datagram pending
        exact absurd hsj ((h.gaveUp i si hi hsi (Or.inr hcause)).2 d hpending)

theorem UdpRelay.Sticks.calm (h : relay.Sticks client s) (hcalm : Calm s s') : relay.Sticks client s' := by
  refine ⟨fun sid session' hsession' hclient hgave => ?_, fun i j si sj hlt hi hj hsi hsj => ?_⟩
  · obtain ⟨session, hsession, hsame, -, hreader⟩ := exists_of_unclocked hcalm.sessions hsession'
    refine (h.gaveUp sid session hsession (hsame.symm.trans hclient) ?_).mono
      (Nat.le_of_eq hcalm.now.symm) hcalm.arrivals hcalm.pending
    rwa [UdpSession.GaveUp, ← hreader]
  · obtain ⟨oi, hoi, hci, -, hreader⟩ := exists_of_unclocked hcalm.sessions hi
    obtain ⟨oj, hoj, hcj, -, -⟩ := exists_of_unclocked hcalm.sessions hj
    have herror := h.one i j oi oj hlt hoi hoj (hci.symm.trans hsi) (hcj.symm.trans hsj)
    rwa [UdpSession.SocketError, hreader]

/-- A reader that gives up in time leaves a silent client. -/
theorem UdpRelay.Sticks.reader (h : relay.Sticks client s) {sid : Nat} {session session' : UdpSession}
    {e : ReaderEvent} (htimely : relay.Timely client s (.reader sid e))
    (hsession : s.sessions[sid]? = some session) (hstep : relay.readerStep s.now session e = some session') :
    relay.Sticks client { s with
      sessions := s.sessions.set sid session'
      packets := s.packets ++ readerPackets sid session e } := by
  have hmove := readerStep_spec hstep
  refine ⟨fun i other hother hclient hgave => ?_, fun i j si sj hlt hi hj hsi hsj => ?_⟩
  · show relay.Silent client s
    rcases exists_of_set hother with hold | ⟨rfl, rfl⟩
    · exact h.gaveUp i other hold hclient hgave
    · have hsame : session.client = client := hmove.client.symm.trans hclient
      rcases hmove.gaveUp hgave with hgave | ⟨rfl, hgives⟩
      · exact h.gaveUp i session hsession hsame hgave
      · exact htimely i session rfl hsession hsame hgives
  · obtain ⟨oj, hoj, hcj⟩ : ∃ oj, s.sessions[j]? = some oj ∧ oj.client = client := by
      rcases exists_of_set hj with hold | ⟨rfl, rfl⟩
      · exact ⟨sj, hold, hsj⟩
      · exact ⟨session, hsession, hmove.client.symm.trans hsj⟩
    rcases exists_of_set hi with hold | ⟨rfl, rfl⟩
    · exact h.one i j si oj hlt hold hoj hsi hcj
    · exact hmove.socketError (h.one i j session oj hlt hsession hoj (hmove.client.symm.trans hsi) hcj)

/-- **Stickiness**, of one step that is timely. -/
theorem sticks_step {e : UdpEvent} (hcon : Consistent s) (htimely : relay.Timely client s e)
    (h : relay.step s e = some s') (hs : relay.Steady client s.arrivals → relay.Sticks client s)
    (hsteady' : relay.Steady client s'.arrivals) : relay.Sticks client s' := by
  cases e with
  | elapse nanos =>
    obtain rfl := Option.some.inj h
    have hold := hs hsteady'
    refine ⟨fun sid session hsession hclient hgave => ?_, hold.one⟩
    exact (hold.gaveUp sid session hsession hclient hgave).mono (Nat.le_add_right ..) rfl fun d hd => hd
  | arrive other payload =>
    obtain rfl := Option.some.inj h
    have hold := hs hsteady'.of_append
    refine ⟨fun sid session hsession hclient hgave => ?_, hold.one⟩
    have hsilent := hold.gaveUp sid session hsession hclient hgave
    by_cases hother : other = client
    · -- a client that was given up on, and sends again, has not been steady
      subst hother
      have hsome := hcon.arrived sid session hsession
      rw [hclient] at hsome
      exact absurd hsteady' (not_steady_of_silent hsilent hsome)
    · exact hsilent.arrive hother payload
  | loop e =>
    rcases loopStep_cases h with ⟨d, now, target, hloop, rfl⟩ | hcalm
    · exact (hs hsteady').setUp hcon hloop
    · exact (hs (by rwa [hcalm.arrivals] at hsteady')).calm hcalm
  | reader sid e =>
    obtain ⟨session, hsession, h⟩ := Option.bind_eq_some_iff.mp h
    obtain ⟨session', hstep, rfl⟩ := Option.map_eq_some_iff.mp h
    exact (hs hsteady').reader htimely hsession hstep

/-- **Stickiness**, of a run whose steps are timely. -/
theorem sticks_of_reaches (h : relay.Reaches (relay.Timely client) start s) :
    relay.Steady client s.arrivals → relay.Sticks client s := by
  induction h with
  | refl => exact fun _ => ⟨fun sid session h => (by cases h), fun i j si sj hlt h => (by cases h)⟩
  | tail hprev hstep ih =>
    obtain ⟨e, htimely, hstep⟩ := hstep
    exact sticks_step (private_of_reaches hprev).1 htimely hstep ih

theorem UdpRelay.Sticks.sticky (hprivate : Private s) (h : relay.Sticks client s) : relay.Sticky client s where
  one := h.one
  kept sid session hsession hclient hgave := (h.gaveUp sid session hsession hclient hgave).1
  backend hnone := by
    by_cases hsome : ∃ sid d, .forwarded sid d ∈ s.packets ∧ d.client = client
    · obtain ⟨sid, d, hmem, hclient⟩ := hsome
      obtain ⟨session, hsession, howner⟩ := hprivate.forwarded sid d hmem
      refine ⟨session.target, fun sid' d' hmem' hclient' => ?_⟩
      obtain ⟨session', hsession', howner'⟩ := hprivate.forwarded sid' d' hmem'
      have hsame : sid' = sid := by
        rcases Nat.lt_trichotomy sid' sid with hlt | heq | hlt
        · exact absurd (h.one sid' sid session' session hlt hsession' hsession (howner'.trans hclient')
            (howner.trans hclient)) (hnone session' (List.mem_of_getElem? hsession')
              (howner'.trans hclient'))
        · exact heq
        · exact absurd (h.one sid sid' session session' hlt hsession hsession' (howner.trans hclient)
            (howner'.trans hclient')) (hnone session (List.mem_of_getElem? hsession)
              (howner.trans hclient))
      rw [hsame, hsession]
      rfl
    · refine ⟨(relay.balancer.targets.head relay.balancer.targets_ne_nil), fun sid d hmem hclient => ?_⟩
      exact absurd ⟨sid, d, hmem, hclient⟩ hsome

end Stickiness

/-! ## A set-up that takes longer than `idle` -/

/-- Three targets, and sessions that may be idle for two seconds. -/
def threeTargets : UdpRelay where
  balancer := {
    targets := [⟨"10.1.0.1", 53⟩, ⟨"10.1.0.2", 53⟩, ⟨"10.1.0.3", 53⟩]
    strategy := .roundRobin
    targets_ne_nil := fun h => by cases h }
  idle := durationFromSecs 2

def firstClient : SocketAddr := .v4 ⟨10, 0, 0, 7⟩ 40001

def secondClient : SocketAddr := .v4 ⟨10, 0, 0, 8⟩ 40002

/-- The loop takes a datagram, up to where it has looked up the client. -/
def takenUp (pick : Nat) : List UdpEvent := [.loop .recv, .loop .readClock, .loop (.lookup pick)]

/-- The loop sets the session up and sends the datagram. -/
def setUpAndSent : List UdpEvent := [.loop .setUp, .loop .touch, .loop (.sent true)]

/-- A datagram of the first client; then one of the second, whose set-up takes two seconds.  After one of
    them the first client sends again, and at their end its reader gives up. -/
def slowSetUp : List UdpEvent :=
  [.arrive firstClient [1]] ++ takenUp 0 ++ setUpAndSent ++ [.reader 0 .wait, .arrive secondClient [2]] ++
    takenUp 1 ++ [.elapse (durationFromSecs 1), .arrive firstClient [3], .elapse (durationFromSecs 1),
      .reader 0 .timeOut, .reader 0 .readClock, .reader 0 .compare, .reader 0 .markDead] ++
    setUpAndSent ++ takenUp 2 ++ setUpAndSent

/-- The same two datagrams of the first client, with nothing from another one between them, and a reply. -/
def promptUse : List UdpEvent :=
  List.flatten [
    [.arrive firstClient [1]], takenUp 0, setUpAndSent,
    [.reader 0 .wait, .elapse (durationFromSecs 1), .arrive firstClient [3]], takenUp 2,
    [.loop .touch, .loop (.sent true), .reader 0 (.recv [9]), .reader 0 .sent]]

end Featherbit
