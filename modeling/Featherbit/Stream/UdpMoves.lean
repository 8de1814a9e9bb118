/-
  WHAT A STEP OF THE UDP PROXY CAN DO (`stream/udp.rs`).

  A reader keeps its client, and only `compare` makes it give up (`readerStep_spec`).  The loop sets up a
  session, or what it does is calm: it takes datagrams in hand, forgets dead sessions, and sends
  (`loopStep_cases`).

  From the two, `Consistent` holds of every state: the sessions that are alive are those in the map, and a
  session is set up only where there is none.
-/
import Mathlib
import Featherbit.Stream.Udp

namespace Featherbit

open UdpRelay

/-! ## What a step can do -/

namespace UdpSession

def GaveUp (session : UdpSession) : Prop :=
  session.reader = .leaving .gaveUp ∨ session.reader = .done .gaveUp

/-- A socket error ends it, or has ended it. -/
def SocketError (session : UdpSession) : Prop :=
  session.reader = .leaving .socketError ∨ session.reader = .done .socketError

/-- All but the clock. -/
def unclocked (session : UdpSession) : UdpSession := { session with lastSeen := 0 }

end UdpSession

/-- The step of this session makes its reader give up. -/
def UdpRelay.GivesUp (relay : UdpRelay) (session : UdpSession) : Prop :=
  ∃ clock, session.reader = .comparing clock ∧ relay.isIdle clock session.lastSeen = true

/-- What a step of a reader leaves as it was. -/
structure ReaderMove (relay : UdpRelay) (e : ReaderEvent) (session session' : UdpSession) : Prop where
  client : session'.client = session.client
  running : ∀ cause, session.reader ≠ .done cause
  alive : session'.alive = session.alive ∨ session'.alive = false ∧ ∃ cause, session'.reader = .done cause
  gaveUp : session'.GaveUp → session.GaveUp ∨ e = .compare ∧ relay.GivesUp session
  socketError : session.SocketError → session'.SocketError

section Moves

variable {relay : UdpRelay} {s s' : UdpState}

theorem readerStep_spec {now : Nat} {session session' : UdpSession} {e : ReaderEvent}
    (h : relay.readerStep now session e = some session') : ReaderMove relay e session session' := by
  unfold readerStep at h
  cases e with
  | timeOut =>
    dsimp only at h
    split at h
    · rename_i since hreader
      split at h
      · rw [← Option.some.inj h]
        constructor <;> simp [hreader, UdpSession.GaveUp, UdpSession.SocketError]
      · cases h
    · cases h
  | compare =>
    dsimp only at h
    split at h
    · rename_i clock hreader
      split at h
      · rename_i hidle
        rw [← Option.some.inj h]
        refine ⟨rfl, by simp [hreader], Or.inl rfl, fun _ => Or.inr ⟨rfl, clock, hreader, hidle⟩, ?_⟩
        simp [hreader, UdpSession.SocketError]
      · rw [← Option.some.inj h]
        constructor <;> simp [hreader, UdpSession.GaveUp, UdpSession.SocketError]
    · cases h
  | markDead =>
    dsimp only at h
    split at h
    · rename_i cause hreader
      rw [← Option.some.inj h]
      constructor <;> simp [hreader, UdpSession.GaveUp, UdpSession.SocketError]
    · cases h
  | _ =>
    dsimp only at h
    split at h
    · rename_i hreader
      rw [← Option.some.inj h]
      constructor <;> simp [hreader, UdpSession.GaveUp, UdpSession.SocketError]
    · cases h

/-- What a step of the loop does that sets up no session. -/
structure Calm (s s' : UdpState) : Prop where
  now : s'.now = s.now
  arrivals : s'.arrivals = s.arrivals
  pending : ∀ d ∈ s'.pending, d ∈ s.pending
  sessions : s'.sessions.map UdpSession.unclocked = s.sessions.map UdpSession.unclocked
  less : ∀ client sid, s'.map client = some sid → s.map client = some sid
  keeps : s'.loop = .stopped ∨ s.loop ≠ .stopped ∧ ∀ client sid session, s.map client = some sid →
    s.sessions[sid]? = some session → session.alive = true → s'.map client = some sid
  vacant : ∀ d now target, s'.loop = .creating d now target → s'.map d.client = none

/-- A session is set up for the client of the datagram in hand. -/
def UdpState.setUp (s : UdpState) (d : Datagram) (now : UInt64) (target : Target) : UdpState :=
  { s with
    sessions := s.sessions ++ [⟨d.client, target, nowMs s.now, true, .starting⟩]
    map := Function.update s.map d.client (some s.sessions.length)
    loop := .touching d now }

/-- A step that takes the loop on, and nothing else but the queue. -/
theorem Calm.of_loop {queue : List Datagram} {phase : LoopPhase} {packets : List Packet}
    (hrunning : s.loop ≠ .stopped) (hpending : ∀ d ∈ phase.inHand ++ queue, d ∈ s.pending)
    (hvacant : ∀ d now target, phase ≠ .creating d now target) :
    Calm s { s with queue := queue, loop := phase, packets := packets } where
  now := rfl
  arrivals := rfl
  pending := hpending
  sessions := rfl
  less _ _ h := h
  keeps := Or.inr ⟨hrunning, fun _ _ _ h _ _ => h⟩
  vacant d now target h := absurd h (hvacant d now target)

theorem unclocked_modify (sessions : List UdpSession) (sid : Nat) (now : UInt64) :
    (sessions.modify sid fun session => { session with lastSeen := now }).map UdpSession.unclocked =
      sessions.map UdpSession.unclocked := by
  refine List.ext_getElem? fun i => ?_
  rw [List.getElem?_map, List.getElem?_map, List.getElem?_modify]
  cases sessions[i]? with
  | none => rfl
  | some session =>
    by_cases hi : sid = i
    · simp [hi, UdpSession.unclocked]
    · simp [hi]

/-- The lookup forgets no session that is alive, and goes on to a set-up only where there is none. -/
theorem calm_lookup {d : Datagram} {now : UInt64} {pick : Nat} (hloop : s.loop = .read d now)
    (h : relay.loopStep s (.lookup pick) = some s') : Calm s s' := by
  unfold loopStep at h
  rw [hloop] at h
  dsimp only at h
  generalize hmap : (if (s.sessionOf d.client).any (!·.alive) = true then
    Function.update s.map d.client none else s.map) = map at h
  have hrunning : s.loop ≠ .stopped := by
    rw [hloop]
    exact fun h => by cases h
  have hless : ∀ client sid, map client = some sid → s.map client = some sid := by
    intro client sid hsid
    rw [← hmap] at hsid
    split at hsid
    · by_cases hclient : client = d.client
      · rw [hclient, Function.update_self] at hsid
        cases hsid
      · rwa [Function.update_of_ne hclient] at hsid
    · exact hsid
  have hkeeps : ∀ client sid session, s.map client = some sid → s.sessions[sid]? = some session →
      session.alive = true → map client = some sid := by
    intro client sid session hsid hsession halive
    rw [← hmap]
    split
    · rename_i hdead
      by_cases hclient : client = d.client
      · -- the session that is dropped is not alive
        rw [hclient] at hsid
        rw [UdpState.sessionOf, hsid, Option.bind_some, hsession, Option.any_some, halive] at hdead
        cases hdead
      · rwa [Function.update_of_ne hclient]
    · exact hsid
  have hpending : ∀ x ∈ [d] ++ s.queue, x ∈ s.pending := by
    intro x hx
    rwa [UdpState.pending, hloop]
  split at h
  · rename_i hnone
    obtain ⟨target, -, rfl⟩ := Option.map_eq_some_iff.mp h
    exact {
      now := rfl
      arrivals := rfl
      pending := hpending
      sessions := rfl
      less := hless
      keeps := Or.inr ⟨hrunning, hkeeps⟩
      vacant := fun d' now' target' hcreating => by
        obtain ⟨rfl, -, -⟩ := LoopPhase.creating.inj hcreating
        exact hnone }
  · obtain rfl := Option.some.inj h
    exact {
      now := rfl
      arrivals := rfl
      pending := hpending
      sessions := rfl
      less := hless
      keeps := Or.inr ⟨hrunning, hkeeps⟩
      vacant := fun d' now' target' hcreating => by cases hcreating }

/-- **The loop.**  It sets up a session, or what it does is calm. -/
theorem loopStep_cases {e : LoopEvent} (h : relay.loopStep s e = some s') :
    (∃ d now target, s.loop = .creating d now target ∧ s' = s.setUp d now target) ∨ Calm s s' := by
  have hrunning : ∀ phase, s.loop = phase → phase ≠ .stopped → s.loop ≠ .stopped := by
    rintro phase rfl hphase
    exact hphase
  have hpending : ∀ phase, s.loop = phase → ∀ d ∈ phase.inHand ++ s.queue, d ∈ s.pending := by
    rintro phase rfl d hd
    exact hd
  cases e with
  | shutdown =>
    unfold loopStep at h
    dsimp only at h
    split at h
    · rename_i hloop
      obtain rfl := Option.some.inj h
      exact Or.inr ⟨rfl, rfl, hpending .selecting hloop, rfl, fun client sid h => (by cases h), Or.inl rfl,
        fun d now target h => (by cases h)⟩
    · cases h
  | prune =>
    unfold loopStep at h
    dsimp only at h
    split at h
    · rename_i hloop
      obtain rfl := Option.some.inj h
      refine Or.inr ⟨rfl, rfl, fun d hd => hd, rfl, fun client sid hsid => ?_,
        Or.inr ⟨hrunning _ hloop (fun h => by cases h), fun client sid session hmap hsession halive => ?_⟩,
        fun d now target h => ?_⟩
      · exact (Option.filter_eq_some_iff.mp hsid).1
      · refine Option.filter_eq_some_iff.mpr ⟨hmap, ?_⟩
        rw [hsession]
        exact halive
      · rw [hloop] at h
        cases h
    · cases h
  | recvFails =>
    unfold loopStep at h
    dsimp only at h
    split at h
    · rename_i hloop
      obtain rfl := Option.some.inj h
      refine Or.inr (Calm.of_loop (hrunning _ hloop (fun h => by cases h)) (fun d hd => hd) ?_)
      rw [hloop]
      exact fun d now target h => by cases h
    · cases h
  | recv =>
    unfold loopStep at h
    dsimp only at h
    split at h
    · rename_i d queue hloop hqueue
      obtain rfl := Option.some.inj h
      refine Or.inr (Calm.of_loop (hrunning _ hloop (fun h => by cases h)) ?_
        (fun d now target h => by cases h))
      rw [UdpState.pending, hloop, hqueue]
      exact fun d hd => hd
    · cases h
  | readClock =>
    unfold loopStep at h
    dsimp only at h
    split at h
    · rename_i d hloop
      obtain rfl := Option.some.inj h
      exact Or.inr (Calm.of_loop (hrunning _ hloop (fun h => by cases h)) (hpending (.got d) hloop)
        (fun d now target h => by cases h))
    · cases h
  | lookup pick =>
    cases hloop : s.loop with
    | read d now => exact Or.inr (calm_lookup hloop h)
    | _ =>
      unfold loopStep at h
      rw [hloop] at h
      cases h
  | setUpFails =>
    unfold loopStep at h
    dsimp only at h
    split at h
    · rename_i d now target hloop
      obtain rfl := Option.some.inj h
      exact Or.inr (Calm.of_loop (hrunning _ hloop (fun h => by cases h))
        (fun x hx => hpending _ hloop x (List.mem_cons_of_mem d hx)) (fun d now target h => by cases h))
    · cases h
  | setUp =>
    unfold loopStep at h
    dsimp only at h
    split at h
    · rename_i d now target hloop
      exact Or.inl ⟨d, now, target, hloop, (Option.some.inj h).symm⟩
    · cases h
  | touch =>
    unfold loopStep at h
    dsimp only at h
    split at h
    · rename_i d now hloop
      have hrest : ∀ x ∈ [] ++ s.queue, x ∈ s.pending :=
        fun x hx => hpending _ hloop x (List.mem_cons_of_mem d hx)
      split at h
      · obtain rfl := Option.some.inj h
        exact Or.inr ⟨rfl, rfl, hrest, unclocked_modify .., fun client sid h => h,
          Or.inr ⟨hrunning _ hloop (fun h => by cases h), fun client sid session h _ _ => h⟩,
          fun d now target h => (by cases h)⟩
      · obtain rfl := Option.some.inj h
        exact Or.inr (Calm.of_loop (hrunning _ hloop (fun h => by cases h)) hrest
          (fun d now target h => by cases h))
    · cases h
  | sent ok =>
    unfold loopStep at h
    dsimp only at h
    split at h
    · rename_i sid d hloop
      obtain rfl := Option.some.inj h
      exact Or.inr (Calm.of_loop (hrunning _ hloop (fun h => by cases h)) (hpending (.sending sid d) hloop)
        (fun d now target h => by cases h))
    · cases h

theorem exists_of_unclocked {sessions sessions' : List UdpSession}
    (h : sessions'.map UdpSession.unclocked = sessions.map UdpSession.unclocked) {sid : Nat}
    {session' : UdpSession} (hsession : sessions'[sid]? = some session') :
    ∃ session, sessions[sid]? = some session ∧ session'.client = session.client ∧
      session'.alive = session.alive ∧ session'.reader = session.reader := by
  have hget := congrArg (fun l => l[sid]?) h
  simp only [List.getElem?_map, hsession, Option.map_some] at hget
  obtain ⟨session, hfound, heq⟩ := Option.map_eq_some_iff.mp hget.symm
  have hcore := UdpSession.mk.inj heq
  exact ⟨session, hfound, hcore.1.symm, hcore.2.2.2.1.symm, hcore.2.2.2.2.symm⟩

theorem exists_of_set {sessions : List UdpSession} {sid i : Nat} {session' other : UdpSession}
    (h : (sessions.set sid session')[i]? = some other) :
    sessions[i]? = some other ∨ i = sid ∧ other = session' := by
  rw [List.getElem?_set] at h
  split at h
  · rename_i heq
    split at h
    · exact Or.inr ⟨heq.symm, (Option.some.inj h).symm⟩
    · cases h
  · exact Or.inl h

theorem getElem?_append_some {sessions : List UdpSession} {session fresh : UdpSession} {i : Nat}
    (h : sessions[i]? = some session) : (sessions ++ [fresh])[i]? = some session := by
  rw [List.getElem?_append_left (List.getElem?_eq_some_iff.mp h).1, h]

theorem exists_of_append {sessions : List UdpSession} {fresh other : UdpSession} {i : Nat}
    (h : (sessions ++ [fresh])[i]? = some other) :
    sessions[i]? = some other ∨ i = sessions.length ∧ other = fresh := by
  rcases Nat.lt_or_ge i sessions.length with hlt | hge
  · rw [List.getElem?_append_left hlt] at h
    exact Or.inl h
  · rw [List.getElem?_append_right hge] at h
    rw [List.getElem?_singleton] at h
    split at h
    · rename_i hzero
      exact Or.inr ⟨by omega, (Option.some.inj h).symm⟩
    · cases h

end Moves

/-! ## The map and the sessions -/

/-- What holds of every state. -/
structure Consistent (s : UdpState) : Prop where
  owner : ∀ client sid, s.map client = some sid →
    ∃ session, s.sessions[sid]? = some session ∧ session.client = client
  alive : s.loop = .stopped ∨ ∀ (sid : Nat) (session : UdpSession), s.sessions[sid]? = some session → session.alive = true →
    s.map session.client = some sid
  vacant : ∀ d now target, s.loop = .creating d now target → s.map d.client = none
  dead : ∀ (sid : Nat) (session : UdpSession), s.sessions[sid]? = some session → session.alive = false →
    ∃ cause, session.reader = .done cause
  pending : ∀ d ∈ s.pending, d ∈ s.arrivals
  arrived : ∀ (sid : Nat) (session : UdpSession), s.sessions[sid]? = some session → ∃ d ∈ s.arrivals, d.client = session.client

section Consistency

variable {relay : UdpRelay} {s s' : UdpState}

theorem consistent_start : Consistent start where
  owner client sid h := by cases h
  alive := Or.inr fun sid session h => by cases h
  vacant d now target h := by cases h
  dead sid session h := by cases h
  pending d h := by cases h
  arrived sid session h := by cases h

theorem Consistent.calm (hs : Consistent s) (h : Calm s s') : Consistent s' where
  owner client sid hsid := by
    obtain ⟨session, hsession, hclient⟩ := hs.owner client sid (h.less client sid hsid)
    obtain ⟨session', hsession', hclient', -, -⟩ := exists_of_unclocked h.sessions.symm hsession
    exact ⟨session', hsession', hclient'.symm.trans hclient⟩
  alive := by
    rcases h.keeps with hstopped | ⟨hrunning, hkeeps⟩
    · exact Or.inl hstopped
    · refine Or.inr fun sid session' hsession' halive => ?_
      obtain ⟨session, hsession, hclient, halive', -⟩ := exists_of_unclocked h.sessions hsession'
      rw [halive'] at halive
      rw [hclient]
      exact hkeeps _ _ session (hs.alive.resolve_left hrunning sid session hsession halive) hsession halive
  vacant := h.vacant
  dead sid session' hsession' hdead := by
    obtain ⟨session, hsession, -, halive, hreader⟩ := exists_of_unclocked h.sessions hsession'
    rw [hreader]
    exact hs.dead sid session hsession (halive.symm.trans hdead)
  pending d hd := by
    rw [h.arrivals]
    exact hs.pending d (h.pending d hd)
  arrived sid session' hsession' := by
    obtain ⟨session, hsession, hclient, -, -⟩ := exists_of_unclocked h.sessions hsession'
    rw [h.arrivals, hclient]
    exact hs.arrived sid session hsession

theorem Consistent.setUp (hs : Consistent s) {d : Datagram} {now : UInt64} {target : Target}
    (hloop : s.loop = .creating d now target) : Consistent (s.setUp d now target) where
  owner client sid hsid := by
    show ∃ session, (s.sessions ++ [_])[sid]? = some session ∧ session.client = client
    rw [show (s.setUp d now target).map = Function.update s.map d.client (some s.sessions.length)
      from rfl] at hsid
    by_cases hclient : client = d.client
    · rw [hclient, Function.update_self] at hsid
      obtain rfl := Option.some.inj hsid
      exact ⟨_, List.getElem?_concat_length, hclient.symm⟩
    · rw [Function.update_of_ne hclient] at hsid
      obtain ⟨session, hsession, hclient⟩ := hs.owner client sid hsid
      exact ⟨session, getElem?_append_some hsession, hclient⟩
  alive := by
    refine Or.inr fun sid session hsession halive => ?_
    show Function.update s.map d.client (some s.sessions.length) session.client = some sid
    rcases exists_of_append hsession with hold | ⟨rfl, rfl⟩
    · have hmap := hs.alive.resolve_left (by rw [hloop]; exact fun h => by cases h) sid session hold halive
      rw [Function.update_of_ne, hmap]
      intro hclient
      rw [hclient, hs.vacant d now target hloop] at hmap
      cases hmap
    · exact Function.update_self ..
  vacant d' now' target' h := by cases h
  dead sid session hsession hdead := by
    rcases exists_of_append hsession with hold | ⟨rfl, rfl⟩
    · exact hs.dead sid session hold hdead
    · cases hdead
  pending x hx := hs.pending x (by rwa [UdpState.pending, hloop])
  arrived sid session hsession := by
    rcases exists_of_append hsession with hold | ⟨rfl, rfl⟩
    · exact hs.arrived sid session hold
    · exact ⟨d, hs.pending d (by rw [UdpState.pending, hloop]; exact List.mem_cons_self), rfl⟩

theorem Consistent.reader (hs : Consistent s) {sid : Nat} {e : ReaderEvent} {session session' : UdpSession}
    (hsession : s.sessions[sid]? = some session)
    (hstep : relay.readerStep s.now session e = some session') (packets : List Packet) :
    Consistent { s with sessions := s.sessions.set sid session', packets := packets } where
  owner client i hi := by
    obtain ⟨other, hother, hclient⟩ := hs.owner client i hi
    by_cases heq : sid = i
    · subst heq
      obtain rfl := Option.some.inj (hsession.symm.trans hother)
      refine ⟨session', ?_, (readerStep_spec hstep).client.trans hclient⟩
      exact List.getElem?_set_self (List.getElem?_eq_some_iff.mp hsession).1
    · exact ⟨other, by rw [List.getElem?_set_ne heq, hother], hclient⟩
  alive := by
    refine hs.alive.imp_right fun halive i other hother hyes => ?_
    rcases exists_of_set hother with hold | ⟨rfl, rfl⟩
    · exact halive i other hold hyes
    · have hmove := readerStep_spec hstep
      rw [hmove.client]
      refine halive i session hsession ?_
      rcases hmove.alive with hsame | ⟨hno, -⟩
      · exact hsame.symm.trans hyes
      · rw [hno] at hyes
        cases hyes
  vacant := hs.vacant
  dead i other hother hdead := by
    rcases exists_of_set hother with hold | ⟨rfl, rfl⟩
    · exact hs.dead i other hold hdead
    · have hmove := readerStep_spec hstep
      rcases hmove.alive with hsame | ⟨-, hdone⟩
      · obtain ⟨cause, hcause⟩ := hs.dead i session hsession (hsame.symm.trans hdead)
        exact absurd hcause (hmove.running cause)
      · exact hdone
  pending := hs.pending
  arrived i other hother := by
    rcases exists_of_set hother with hold | ⟨rfl, rfl⟩
    · exact hs.arrived i other hold
    · rw [(readerStep_spec hstep).client]
      exact hs.arrived i session hsession

theorem consistent_step {e : UdpEvent} (hs : Consistent s) (h : relay.step s e = some s') :
    Consistent s' := by
  cases e with
  | elapse nanos =>
    obtain rfl := Option.some.inj h
    exact { hs with }
  | arrive client payload =>
    obtain rfl := Option.some.inj h
    refine { hs with pending := fun d hd => ?_, arrived := fun sid session hsession => ?_ }
    · rcases List.mem_append.mp hd with hhand | hqueue
      · exact List.mem_append_left _ (hs.pending d (List.mem_append_left _ hhand))
      · rcases List.mem_append.mp hqueue with hqueue | hnew
        · exact List.mem_append_left _ (hs.pending d (List.mem_append_right _ hqueue))
        · exact List.mem_append_right _ hnew
    · obtain ⟨d, hd, hclient⟩ := hs.arrived sid session hsession
      exact ⟨d, List.mem_append_left _ hd, hclient⟩
  | loop e =>
    rcases loopStep_cases h with ⟨d, now, target, hloop, rfl⟩ | hcalm
    · exact hs.setUp hloop
    · exact hs.calm hcalm
  | reader sid e =>
    obtain ⟨session, hsession, h⟩ := Option.bind_eq_some_iff.mp h
    obtain ⟨session', hstep, rfl⟩ := Option.map_eq_some_iff.mp h
    exact hs.reader hsession hstep _

end Consistency

end Featherbit
