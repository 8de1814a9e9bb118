/-
  THE BATCHING SINK of the logger plugins (`batch/mod.rs`).

  Entries go through a bounded channel to a background task, which collects them in a buffer and
  hands the buffer to a flusher: when it is full, when its oldest entry is old, when no entry has
  come for a while, and when the channel is closed.  `step` is what the task and its surroundings
  do next; while the flusher works, or a retry waits, entries keep queueing.

  Instants end somewhere (`instantMax`): a deadline past that makes the task panic.
-/
import Featherbit.Json
import Featherbit.Rust.Time

namespace Featherbit

/-- Tuning knobs of a sink; durations are in nanoseconds. -/
structure BatchConfig where
  batchMaxSize : Nat
  inactiveTimeout : Nat
  bufferDuration : Nat
  maxRetryCount : UInt32
  retryDelay : Nat
  maxPendingEntries : Nat

namespace BatchConfig

/-- A non-negative integer; `null` counts as absent. -/
def intKey [JsonText] (config : HashMap Json) (key : String) : Except String (Option UInt64) :=
  match config[key]? with
  | none | some .null => .ok none
  | some v =>
    match v.asU64 with
    | some n => .ok (some n)
    | none => .error ("batch config key `" ++ key ++ "` must be a non-negative integer, got " ++
        JsonText.toText v)

/-- `BatchConfig::from_config`, with the values of `BatchConfig::default` for absent keys. -/
def fromConfig [JsonText] (config : HashMap Json) : Except String BatchConfig := do
  let batchMaxSize ← intKey config "batch_max_size"
  let inactiveTimeout ← intKey config "inactive_timeout"
  let bufferDuration ← intKey config "buffer_duration"
  let maxRetryCount ← intKey config "max_retry_count"
  let retryDelay ← intKey config "retry_delay"
  let maxPendingEntries ← intKey config "max_pending_entries"
  return {
    batchMaxSize := (batchMaxSize.map UInt64.toNat).getD 1000
    inactiveTimeout := durationFromSecs ((inactiveTimeout.map UInt64.toNat).getD 5)
    bufferDuration := durationFromSecs ((bufferDuration.map UInt64.toNat).getD 60)
    maxRetryCount := (maxRetryCount.map UInt64.toUInt32).getD 0
    retryDelay := durationFromSecs ((retryDelay.map UInt64.toNat).getD 1)
    maxPendingEntries := (maxPendingEntries.map UInt64.toNat).getD 10000 }

/-- `batch_max_size.max(1)`. -/
def batchMax (cfg : BatchConfig) : Nat := max cfg.batchMaxSize 1

/-- The capacity of the channel. -/
def capacity (cfg : BatchConfig) : Nat := max cfg.maxPendingEntries 1

end BatchConfig

/-- What a flusher reports of a batch it could not deliver. -/
structure FlushError where
  message : String
  /-- the first entry that failed; the ones before it are delivered -/
  firstFail : Option Nat

/-- `flush_with_retry` in front of a call of the flusher. -/
structure Flushing where
  entries : List Json
  failures : UInt32

/-- What it makes of the flusher's answer: another call, or nothing when it returns. -/
def Flushing.next (flush : Flushing) (maxRetryCount : UInt32) :
    Except FlushError Unit → Option Flushing
  | .ok () => none
  | .error err =>
    let entries := flush.entries.drop (err.firstFail.getD 0)
    if entries = [] then none
    else if flush.failures + 1 > maxRetryCount then none
    else some { entries := entries, failures := flush.failures + 1 }

/-- Where the background task is. -/
inductive BatchPhase where
  /-- at the head of the loop, waiting for an entry or a deadline -/
  | waiting
  /-- the flusher works; after it the task goes on, or ends -/
  | flushing (flush : Flushing) (last : Bool)
  /-- the delay before a retry -/
  | retrying (flush : Flushing) (wakeAt : Nat) (last : Bool)
  | exited
  | panicked

/-- The sink: its channel, its task, and what the flusher was given so far. -/
structure BatchState where
  queue : List Json
  /-- the last handle is dropped -/
  closed : Bool
  now : Nat
  buffer : List Json
  firstEntryAt : Nat
  lastEntryAt : Nat
  phase : BatchPhase
  calls : List (List Json)
  /-- every entry the channel accepted -/
  accepted : List Json

namespace BatchState

/-- A sink that was just spawned. -/
def start : BatchState where
  queue := []
  closed := false
  now := 0
  buffer := []
  firstEntryAt := 0
  lastEntryAt := 0
  phase := .waiting
  calls := []
  accepted := []

/-- Whether the task still holds the receiver. -/
def alive (s : BatchState) : Bool :=
  match s.phase with
  | .exited | .panicked => false
  | .waiting | .flushing .. | .retrying .. => true

/-- `flush_with_retry` up to its first call; after it the task ends if this is the `last` one. -/
def flushWithRetry (s : BatchState) (last : Bool) : BatchState :=
  if s.buffer = [] then { s with phase := if last then .exited else .waiting }
  else { s with
    buffer := []
    phase := .flushing { entries := s.buffer, failures := 0 } last
    calls := s.calls ++ [s.buffer] }

end BatchState

/-- What can happen to a sink. -/
inductive BatchEvent where
  | push (entry : Json)
  /-- the last handle is dropped -/
  | close
  | tick
  /-- `rx.recv()` is ready -/
  | recv
  /-- the deadline has passed -/
  | timer
  | flushed (result : Except FlushError Unit)
  /-- the delay before a retry is over -/
  | wake

section Step

variable (cfg : BatchConfig) (instantMax : Nat)

/-- `instant + duration`, `none` when it panics. -/
def addToInstant (instant duration : Nat) : Option Nat :=
  if instant + duration ≤ instantMax then some (instant + duration) else none

namespace BatchState

variable (s : BatchState)

/-- When the buffer is flushed at the latest. -/
def deadline : Option Nat := do
  let oldest ← addToInstant instantMax s.firstEntryAt cfg.bufferDuration
  let newest ← addToInstant instantMax s.lastEntryAt cfg.inactiveTimeout
  return min oldest newest

/-- The end of a turn of the loop. -/
def sizeTrigger : BatchState :=
  if s.buffer.length ≥ cfg.batchMax then s.flushWithRetry false else s

/-- `try_send`: an entry that finds the channel full, or the task gone, is dropped. -/
def push (entry : Json) : BatchState :=
  if s.queue.length < cfg.capacity ∧ s.alive = true then
    { s with queue := s.queue ++ [entry], accepted := s.accepted ++ [entry] }
  else s

/-- The loop receives, with nothing in the buffer. -/
def recvFirst : Option BatchState :=
  match s.queue with
  | entry :: queue => some (sizeTrigger cfg { s with
      queue := queue
      buffer := [entry]
      firstEntryAt := s.now
      lastEntryAt := s.now })
  | [] => if s.closed then some { s with phase := .exited } else none

/-- The loop receives, with a deadline ahead. -/
def recvMore : Option BatchState :=
  match s.queue with
  | entry :: queue => some (sizeTrigger cfg { s with
      queue := queue
      buffer := s.buffer ++ [entry]
      lastEntryAt := s.now })
  | [] => if s.closed then some (s.flushWithRetry true) else none

/-- What an event does; `none` when it cannot happen. -/
def step : BatchEvent → Option BatchState
  | .push entry => if s.closed then none else some (s.push cfg entry)
  | .close => if s.closed then none else some { s with closed := true }
  | .tick => some { s with now := s.now + 1 }
  | .recv =>
    match s.phase with
    | .waiting =>
      if s.buffer = [] then s.recvFirst cfg
      else
        match s.deadline cfg instantMax with
        | none => some { s with phase := .panicked }
        | some _ => s.recvMore cfg
    | _ => none
  | .timer =>
    match s.phase with
    | .waiting =>
      if s.buffer = [] then none
      else
        match s.deadline cfg instantMax with
        | none => some { s with phase := .panicked }
        | some deadline => if deadline ≤ s.now then some (s.flushWithRetry false) else none
    | _ => none
  | .flushed result =>
    match s.phase with
    | .flushing flush last =>
      match flush.next cfg.maxRetryCount result with
      -- back at the end of the loop's turn, where an empty buffer triggers nothing
      | none => some { s with phase := if last then .exited else .waiting }
      | some flush => some { s with phase := .retrying flush (s.now + cfg.retryDelay) last }
    | _ => none
  | .wake =>
    match s.phase with
    | .retrying flush wakeAt last =>
      if wakeAt ≤ s.now then
        some { s with phase := .flushing flush last, calls := s.calls ++ [flush.entries] }
      else none
    | _ => none

/-- A run of events. -/
def run : List BatchEvent → BatchState → Option BatchState
  | [], s => some s
  | e :: es, s => (s.step cfg instantMax e).bind (run es)

end BatchState

/-- What an event can do to a sink, with what it takes for it to do that. -/
inductive BatchMove (s : BatchState) : BatchEvent → BatchState → Prop where
  | accept {entry : Json} (hopen : s.closed ≠ true) :
      BatchMove s (.push entry) { s with queue := s.queue ++ [entry], accepted := s.accepted ++ [entry] }
  | drop {entry : Json} : BatchMove s (.push entry) s
  | close (hopen : s.closed ≠ true) : BatchMove s .close { s with closed := true }
  | tick : BatchMove s .tick { s with now := s.now + 1 }
  | first {entry : Json} {queue : List Json} (hphase : s.phase = .waiting) (hempty : s.buffer = [])
      (hqueue : s.queue = entry :: queue) :
      BatchMove s .recv (BatchState.sizeTrigger cfg { s with
        queue := queue
        buffer := [entry]
        firstEntryAt := s.now
        lastEntryAt := s.now })
  | more {entry : Json} {queue : List Json} (hphase : s.phase = .waiting) (hbuffer : s.buffer ≠ [])
      (hqueue : s.queue = entry :: queue) :
      BatchMove s .recv (BatchState.sizeTrigger cfg { s with
        queue := queue
        buffer := s.buffer ++ [entry]
        lastEntryAt := s.now })
  | exit (hphase : s.phase = .waiting) (hempty : s.buffer = []) (hqueue : s.queue = [])
      (hclosed : s.closed = true) : BatchMove s .recv { s with phase := .exited }
  | lastFlush (hphase : s.phase = .waiting) (hbuffer : s.buffer ≠ []) (hqueue : s.queue = [])
      (hclosed : s.closed = true) : BatchMove s .recv (s.flushWithRetry true)
  | due (hphase : s.phase = .waiting) (hbuffer : s.buffer ≠ []) :
      BatchMove s .timer (s.flushWithRetry false)
  | panic {e : BatchEvent} (hphase : s.phase = .waiting) (hbuffer : s.buffer ≠ [])
      (hdeadline : s.deadline cfg instantMax = none) : BatchMove s e { s with phase := .panicked }
  | settle {result : Except FlushError Unit} {flush : Flushing} {last : Bool}
      (hphase : s.phase = .flushing flush last)
      (hnext : flush.next cfg.maxRetryCount result = none) :
      BatchMove s (.flushed result) { s with phase := if last then .exited else .waiting }
  | retry {result : Except FlushError Unit} {flush next : Flushing} {last : Bool}
      (hphase : s.phase = .flushing flush last)
      (hnext : flush.next cfg.maxRetryCount result = some next) :
      BatchMove s (.flushed result)
        { s with phase := .retrying next (s.now + cfg.retryDelay) last }
  | wake {flush : Flushing} {wakeAt : Nat} {last : Bool} (hphase : s.phase = .retrying flush wakeAt last) :
      BatchMove s .wake
        { s with phase := .flushing flush last, calls := s.calls ++ [flush.entries] }

variable {cfg instantMax}

/-- A step is one of these moves. -/
theorem batchMove_of_step {s s' : BatchState} {e : BatchEvent}
    (h : s.step cfg instantMax e = some s') : BatchMove cfg instantMax s e s' := by
  cases e with
  | push entry =>
    rw [BatchState.step] at h
    split at h
    · cases h
    · rename_i hopen
      obtain rfl := Option.some.inj h
      unfold BatchState.push
      split
      · exact .accept hopen
      · exact .drop
  | close =>
    rw [BatchState.step] at h
    split at h
    · cases h
    · rename_i hopen
      obtain rfl := Option.some.inj h
      exact .close hopen
  | tick =>
    obtain rfl := Option.some.inj h
    exact .tick
  | recv =>
    cases hphase : s.phase with
    | waiting =>
      simp only [BatchState.step, hphase] at h
      by_cases hempty : s.buffer = []
      · -- nothing collected: the loop waits for the first entry, or for the channel's end
        rw [if_pos hempty, BatchState.recvFirst] at h
        cases hqueue : s.queue with
        | nil =>
          rw [hqueue] at h
          dsimp only at h
          split at h
          · rename_i hclosed
            obtain rfl := Option.some.inj h
            rw [← hqueue]
            exact .exit hphase hempty hqueue hclosed
          · cases h
        | cons entry queue =>
          rw [hqueue] at h
          obtain rfl := Option.some.inj h
          exact .first hphase hempty hqueue
      · -- a buffer is being collected: computing its deadline can overflow the clock
        rw [if_neg hempty] at h
        split at h
        · rename_i hdeadline
          obtain rfl := Option.some.inj h
          exact .panic hphase hempty hdeadline
        · rw [BatchState.recvMore] at h
          cases hqueue : s.queue with
          | nil =>
            rw [hqueue] at h
            dsimp only at h
            split at h
            · rename_i hclosed
              obtain rfl := Option.some.inj h
              exact .lastFlush hphase hempty hqueue hclosed
            · cases h
          | cons entry queue =>
            rw [hqueue] at h
            obtain rfl := Option.some.inj h
            exact .more hphase hempty hqueue
    | flushing | retrying | exited | panicked =>
      rw [BatchState.step, hphase] at h
      cases h
  | timer =>
    cases hphase : s.phase with
    | waiting =>
      simp only [BatchState.step, hphase] at h
      split at h
      · cases h
      · rename_i hbuffer
        split at h
        · rename_i hdeadline
          obtain rfl := Option.some.inj h
          exact .panic hphase hbuffer hdeadline
        · split at h
          · obtain rfl := Option.some.inj h
            exact .due hphase hbuffer
          · cases h
    | flushing | retrying | exited | panicked =>
      rw [BatchState.step, hphase] at h
      cases h
  | flushed result =>
    cases hphase : s.phase with
    | flushing flush last =>
      simp only [BatchState.step, hphase] at h
      split at h
      · rename_i hnext
        obtain rfl := Option.some.inj h
        exact .settle hphase hnext
      · rename_i next hnext
        obtain rfl := Option.some.inj h
        exact .retry hphase hnext
    | waiting | retrying | exited | panicked =>
      rw [BatchState.step, hphase] at h
      cases h
  | wake =>
    cases hphase : s.phase with
    | retrying flush wakeAt last =>
      simp only [BatchState.step, hphase] at h
      split at h
      · obtain rfl := Option.some.inj h
        exact .wake hphase
      · cases h
    | waiting | flushing | exited | panicked =>
      rw [BatchState.step, hphase] at h
      cases h

end Step

end Featherbit
