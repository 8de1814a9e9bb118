/-
  THE UDP STREAM PROXY (`stream/udp.rs`): a receive loop and a reader task for each session.

  The tasks run at the same time, and what they share (a session's activity clock and its flag `alive`) is
  read and written one access at a time.  A step is what a task does up to its next such access or to its
  next `await`; the steps of all tasks interleave in any order, and time passes between them.

  A session stands here for what the loop keeps of it and what its reader was given.  Which target the
  balancer picks is left open.  What has arrived and what was sent is kept as a history.
-/
import Mathlib
import Featherbit.Rust.SocketAddr
import Featherbit.Traffic.Balancer

namespace Featherbit

/-- A datagram on the listener socket, and the time it arrived there. -/
structure Datagram where
  client : SocketAddr
  payload : Bytes
  arrived : Nat
deriving DecidableEq

/-- Why a reader left its loop. -/
inductive LeaveCause where
  | gaveUp
  | socketError
deriving DecidableEq

/-- Where a reader is. -/
inductive ReaderPhase where
  /-- at the head of its loop -/
  | starting
  /-- in `timeout(idle, upstream.recv(&mut buf))`, since then -/
  | waiting (since : Nat)
  /-- in `listener.send_to(&buf[..n], client)` -/
  | replying (reply : Bytes)
  /-- the reply is out -/
  | replied
  /-- about to store the clock it read -/
  | stamping (now : UInt64)
  /-- the wait ran out -/
  | elapsed
  /-- about to load `last_seen`, with the clock it read -/
  | comparing (now : UInt64)
  /-- out of the loop, the flag not yet written -/
  | leaving (cause : LeaveCause)
  | done (cause : LeaveCause)
deriving DecidableEq

/-- A session and its reader. -/
structure UdpSession where
  client : SocketAddr
  target : Target
  lastSeen : UInt64
  alive : Bool
  reader : ReaderPhase
deriving DecidableEq

/-- Where the receive loop is. -/
inductive LoopPhase where
  | selecting
  /-- `recv_from` has returned -/
  | got (d : Datagram)
  | read (d : Datagram) (now : UInt64)
  /-- in `create_session`, waiting for its socket -/
  | creating (d : Datagram) (now : UInt64) (target : Target)
  /-- about to store the clock it read -/
  | touching (d : Datagram) (now : UInt64)
  /-- in `session.upstream.send(&buf[..n])` -/
  | sending (sid : Nat) (d : Datagram)
  | stopped
deriving DecidableEq

/-- The datagram the loop has taken and not yet noted on an activity clock. -/
def LoopPhase.inHand : LoopPhase → List Datagram
  | got d | read d _ | creating d _ _ | touching d _ => [d]
  | selecting | sending _ _ | stopped => []

/-- What went over the sockets on behalf of a session. -/
inductive Packet where
  /-- sent on its socket -/
  | forwarded (sid : Nat) (d : Datagram)
  /-- received on its socket -/
  | reply (sid : Nat) (bytes : Bytes)
  /-- sent on the listener socket -/
  | answered (sid : Nat) (dest : SocketAddr) (bytes : Bytes)
deriving DecidableEq

structure UdpState where
  /-- nanoseconds since `epoch` -/
  now : Nat
  /-- the receive buffer of the listener socket -/
  queue : List Datagram
  loop : LoopPhase
  /-- the map `sessions`, by the number of the session -/
  map : SocketAddr → Option Nat
  /-- every session that was set up, in order -/
  sessions : List UdpSession
  arrivals : List Datagram
  packets : List Packet

/-- The datagrams that have arrived and are not yet noted on an activity clock. -/
def UdpState.pending (s : UdpState) : List Datagram := s.loop.inHand ++ s.queue

/-- `sessions.get(&client)`. -/
def UdpState.sessionOf (s : UdpState) (client : SocketAddr) : Option UdpSession :=
  (s.map client).bind (s.sessions[·]?)

inductive LoopEvent where
  | shutdown
  | prune
  | recvFails
  | recv
  | readClock
  /-- looks the client up; `pick` is what the balancer selects if there is no session -/
  | lookup (pick : Nat)
  | setUpFails
  | setUp
  | touch
  | sent (ok : Bool)
deriving DecidableEq

inductive ReaderEvent where
  | wait
  | recv (reply : Bytes)
  | sent
  | sendFails
  | stamp
  | store
  | recvFails
  | timeOut
  | readClock
  | compare
  | markDead
deriving DecidableEq

inductive UdpEvent where
  | elapse (nanos : Nat)
  | arrive (client : SocketAddr) (payload : Bytes)
  | loop (e : LoopEvent)
  | reader (sid : Nat) (e : ReaderEvent)
deriving DecidableEq

/-- `now_ms`, of the nanoseconds since `epoch`. -/
def nowMs (now : Nat) : UInt64 := UInt64.ofNat (now / 1000000)

structure UdpRelay where
  balancer : Balancer
  idle : Nat

namespace UdpRelay

variable (relay : UdpRelay)

def idleMs : UInt64 := UInt64.ofNat (relay.idle / 1000000)

/-- The check after a wait that ran out. -/
def isIdle (now lastSeen : UInt64) : Bool := decide (relay.idleMs.toNat ≤ now.toNat - lastSeen.toNat)

def start : UdpState where
  now := 0
  queue := []
  loop := .selecting
  map := fun _ => none
  sessions := []
  arrivals := []
  packets := []

/-- A step of the receive loop. -/
def loopStep (s : UdpState) : LoopEvent → Option UdpState
  | .shutdown =>
    match s.loop with
    | .selecting => some { s with loop := .stopped, map := fun _ => none }
    | _ => none
  | .prune =>
    match s.loop with
    | .selecting => some { s with
        map := fun client => (s.map client).filter fun sid => (s.sessions[sid]?).any (·.alive) }
    | _ => none
  | .recvFails =>
    match s.loop with
    | .selecting => some s
    | _ => none
  | .recv =>
    match s.loop, s.queue with
    | .selecting, d :: queue => some { s with loop := .got d, queue := queue }
    | _, _ => none
  | .readClock =>
    match s.loop with
    | .got d => some { s with loop := .read d (nowMs s.now) }
    | _ => none
  | .lookup pick =>
    match s.loop with
    | .read d now =>
      -- drop a dead session so it gets recreated below
      let map :=
        if (s.sessionOf d.client).any (!·.alive) then Function.update s.map d.client none else s.map
      match map d.client with
      | none => (relay.balancer.targets[pick]?).map fun target =>
          { s with map := map, loop := .creating d now target }
      | some _ => some { s with map := map, loop := .touching d now }
    | _ => none
  | .setUpFails =>
    match s.loop with
    | .creating _ _ _ => some { s with loop := .selecting }
    | _ => none
  | .setUp =>
    match s.loop with
    | .creating d now target => some { s with
        sessions := s.sessions ++ [⟨d.client, target, nowMs s.now, true, .starting⟩]
        map := Function.update s.map d.client (some s.sessions.length)
        loop := .touching d now }
    | _ => none
  | .touch =>
    match s.loop with
    | .touching d now =>
      match s.map d.client with
      | some sid => some { s with
          sessions := s.sessions.modify sid fun session => { session with lastSeen := now }
          loop := .sending sid d }
      | none => some { s with loop := .selecting }
    | _ => none
  | .sent ok =>
    match s.loop with
    | .sending sid d => some { s with
        packets := if ok then s.packets ++ [.forwarded sid d] else s.packets
        loop := .selecting }
    | _ => none

/-- A step of a reader, at this time. -/
def readerStep (now : Nat) (session : UdpSession) : ReaderEvent → Option UdpSession
  | .wait =>
    match session.reader with
    | .starting => some { session with reader := .waiting now }
    | _ => none
  | .recv reply =>
    match session.reader with
    | .waiting _ => some { session with reader := .replying reply }
    | _ => none
  | .sent =>
    match session.reader with
    | .replying _ => some { session with reader := .replied }
    | _ => none
  | .sendFails =>
    match session.reader with
    | .replying _ => some { session with reader := .leaving .socketError }
    | _ => none
  | .stamp =>
    match session.reader with
    | .replied => some { session with reader := .stamping (nowMs now) }
    | _ => none
  | .store =>
    match session.reader with
    | .stamping stamp => some { session with lastSeen := stamp, reader := .starting }
    | _ => none
  | .recvFails =>
    match session.reader with
    | .waiting _ => some { session with reader := .leaving .socketError }
    | _ => none
  | .timeOut =>
    match session.reader with
    | .waiting since => if since + relay.idle ≤ now then some { session with reader := .elapsed } else none
    | _ => none
  | .readClock =>
    match session.reader with
    | .elapsed => some { session with reader := .comparing (nowMs now) }
    | _ => none
  | .compare =>
    match session.reader with
    | .comparing clock =>
      if relay.isIdle clock session.lastSeen then some { session with reader := .leaving .gaveUp }
      else some { session with reader := .starting }
    | _ => none
  | .markDead =>
    match session.reader with
    | .leaving cause => some { session with alive := false, reader := .done cause }
    | _ => none

/-- What a step of a reader puts on the sockets. -/
def readerPackets (sid : Nat) (session : UdpSession) : ReaderEvent → List Packet
  | .recv reply => [.reply sid reply]
  | .sent =>
    match session.reader with
    | .replying reply => [.answered sid session.client reply]
    | _ => []
  | _ => []

/-- One step; nothing where the event cannot be. -/
def step (s : UdpState) : UdpEvent → Option UdpState
  | .elapse nanos => some { s with now := s.now + nanos }
  | .arrive client payload =>
    let d : Datagram := ⟨client, payload, s.now⟩
    some { s with queue := s.queue ++ [d], arrivals := s.arrivals ++ [d] }
  | .loop e => relay.loopStep s e
  | .reader sid e =>
    (s.sessions[sid]?).bind fun session =>
      (relay.readerStep s.now session e).map fun session' =>
        { s with
          sessions := s.sessions.set sid session'
          packets := s.packets ++ readerPackets sid session e }

/-- The state after some steps. -/
def run : List UdpEvent → UdpState → Option UdpState
  | [], s => some s
  | e :: events, s => (step relay s e).bind (run events)

/-- The states that are reached by steps that all meet `Q`, a condition on the state before the step and the
    step. -/
def Reaches (Q : UdpState → UdpEvent → Prop) : UdpState → UdpState → Prop :=
  Relation.ReflTransGen fun s s' => ∃ e, Q s e ∧ relay.step s e = some s'

variable {relay}

theorem reaches_of_run {Q : UdpState → UdpEvent → Prop} :
    ∀ {events : List UdpEvent} {s s' : UdpState}, (∀ e ∈ events, ∀ t, Q t e) →
      relay.run events s = some s' → relay.Reaches Q s s' := by
  intro events
  induction events with
  | nil =>
    intro s s' hmeets h
    obtain rfl := Option.some.inj h
    exact .refl
  | cons e events ih =>
    intro s s' hmeets h
    obtain ⟨t, ht, hrest⟩ := Option.bind_eq_some_iff.mp h
    exact .head ⟨e, hmeets e List.mem_cons_self s, ht⟩
      (ih (fun e' he' => hmeets e' (List.mem_cons_of_mem e he')) hrest)

end UdpRelay

end Featherbit
