/-
  A SINK WHOSE FLUSHER FAILS (`BatchSink` and `flush_with_retry`, `batch/mod.rs`).

  The sink is a courier (`Lib.Courier`) with a buffer and a clock: what is in the buffer or the
  channel waits, a flush departs, the flusher's answers are outcomes, the retries are attempts.
  The books beside a run (`Books`) note what each answer settles and where each call's entries
  stand; every step of the sink is a step of the courier, or none (`refines_step`).

  So the courier's account is the sink's, whatever the flusher answers (`sink_accounts`): entries
  are settled in the order they were accepted, each is handed over at most `max_retry_count + 1`
  times, and one is given up only after exactly that many.  And once the channel is closed the
  sink comes to its end, for all answers (`sink_ends`): each call is one less of those that can
  still come.

  `max_retry_count` is below `u32::MAX` throughout: there the count of failures would wrap.
-/
import Featherbit.Batch.Delivery
import Featherbit.Batch.Limits
import Featherbit.Batch.Retry
import Featherbit.Lib.Courier

namespace Featherbit

open Courier (Fate fated)

/-- What an answer settles: what it reports as delivered, and the rest if there is no retry. -/
def Flushing.fates (flush : Flushing) (maxRetryCount : UInt32) (answer : Except FlushError Unit) :
    List (Fate × Json) :=
  fated .delivered (flush.reported answer) ++
    match flush.next maxRetryCount answer with
    | none => fated .dropped (remainingOf flush.entries answer)
    | some _ => []

/-- Notes beside a run of a sink. -/
structure Books where
  settled : List (Fate × Json) := []
  attempts : List (Courier.Attempt Json) := []

namespace BatchState

/-- What the flusher has, or is about to be given again. -/
def flight (s : BatchState) : Courier.Flight Json :=
  match s.phase with
  | .flushing flush _ => .carrying flush.entries (flush.failures.toNat + 1)
  | .retrying flush _ _ => .backingOff flush.entries flush.failures.toNat
  | .waiting | .exited | .panicked => .idle

/-- The sink as a courier. -/
def courier (s : BatchState) (books : Books) : Courier.State Json where
  accepted := s.accepted
  waiting := s.buffer ++ s.queue
  flight := s.flight
  settled := books.settled
  attempts := books.attempts

end BatchState

section Run

variable (cfg : BatchConfig) (instantMax : Nat)

/-- What is settled after an event. -/
def Books.settle (books : Books) (s : BatchState) : BatchEvent → List (Fate × Json)
  | .flushed answer =>
    match s.phase with
    | .flushing flush _ => books.settled ++ flush.fates cfg.maxRetryCount answer
    | _ => books.settled
  | _ => books.settled

/-- The books after a step. -/
def Books.note (books : Books) (s : BatchState) (e : BatchEvent) (s' : BatchState) : Books where
  settled := books.settle cfg s e
  attempts :=
    if s.calls.length < s'.calls.length then
      books.attempts ++ [{ place := (books.settle cfg s e).length, items := s'.flight.batch }]
    else books.attempts

/-- The books of a run. -/
def booksOf : List BatchEvent → BatchState → Books → Books
  | [], _, books => books
  | e :: es, s, books =>
    match s.step cfg instantMax e with
    | none => books
    | some s' => booksOf es s' (books.note cfg s e s')

end Run

namespace BatchState

section Step

variable {cfg : BatchConfig} {instantMax : Nat} {s s' : BatchState} {e : BatchEvent} {books : Books}

/-! ## The books -/

theorem note_quiet (hsettle : books.settle cfg s e = books.settled) (hcalls : s'.calls = s.calls) :
    books.note cfg s e s' = books := by
  rw [Books.note, hsettle, hcalls, if_neg (Nat.lt_irrefl _)]

theorem note_called (hsettle : books.settle cfg s e = books.settled) {batch : List Json}
    (hcalls : s'.calls = s.calls ++ [batch]) :
    books.note cfg s e s' =
      { books with
        attempts := books.attempts ++ [{ place := books.settled.length, items := s'.flight.batch }] } := by
  have hmore : s.calls.length < s'.calls.length := by
    rw [hcalls, List.length_append]
    exact Nat.lt_succ_self _
  rw [Books.note, hsettle, if_pos hmore]

theorem note_answered {flush : Flushing} {last : Bool} {answer : Except FlushError Unit}
    (hphase : s.phase = .flushing flush last) (hcalls : s'.calls = s.calls) :
    books.note cfg s (.flushed answer) s' =
      { books with settled := books.settled ++ flush.fates cfg.maxRetryCount answer } := by
  rw [Books.note, hcalls, if_neg (Nat.lt_irrefl _), Books.settle, hphase]

/-! ## Each step is one of the courier, or none -/

/-- What the refinement rests on. -/
structure SinkInv (cfg : BatchConfig) (s : BatchState) (books : Books) : Prop where
  buffered : s.buffer.length < cfg.batchMax
  calls : s.calls = books.attempts.map (·.items)
  failures : ∀ flush, (∃ last, s.phase = .flushing flush last) ∨
    (∃ wakeAt last, s.phase = .retrying flush wakeAt last) →
    flush.failures.toNat ≤ cfg.maxRetryCount.toNat
  emptied : s.flight ≠ .idle → s.buffer = []
  ended : s.phase = .exited ∨ (∃ flush, s.phase = .flushing flush true) ∨
    (∃ flush wakeAt, s.phase = .retrying flush wakeAt true) →
    s.closed = true ∧ s.queue = [] ∧ s.buffer = []

/-- How a step shows in the books. -/
def Follows (cfg : BatchConfig) (s : BatchState) (books : Books) (s' : BatchState) (books' : Books) :
    Prop :=
  s'.courier books' = s.courier books ∨
    Courier.Step (cfg.maxRetryCount.toNat + 1) cfg.batchMax (s.courier books) (s'.courier books')

theorem sinkInv_start : SinkInv cfg start {} where
  buffered := batchMax_pos cfg
  calls := rfl
  failures := by
    rintro flush (⟨last, h⟩ | ⟨wakeAt, last, h⟩) <;> cases h
  emptied h := absurd rfl h
  ended := by
    rintro (h | ⟨flush, h⟩ | ⟨flush, wakeAt, h⟩) <;> cases h

theorem flight_of_waiting (h : s.phase = .waiting) : s.flight = .idle := by
  rw [flight, h]

/-- Nothing is called or settled. -/
theorem quiet_follows (hsettle : books.settle cfg s e = books.settled) (hcalls : s'.calls = s.calls)
    (h : SinkInv cfg s' books) (hfollows : Follows cfg s books s' books) :
    SinkInv cfg s' (books.note cfg s e s') ∧ Follows cfg s books s' (books.note cfg s e s') := by
  rw [note_quiet hsettle hcalls]
  exact ⟨h, hfollows⟩

/-- A flush gives the flusher the buffer. -/
theorem flushed_calls (hne : s.buffer ≠ []) (last : Bool) :
    (s.flushWithRetry last).calls = s.calls ++ [s.buffer] ∧
      (s.flushWithRetry last).flight.batch = s.buffer := by
  unfold flushWithRetry
  rw [if_neg hne]
  exact ⟨rfl, rfl⟩

/-- A waiting sink with something in its buffer. -/
structure Loaded (cfg : BatchConfig) (s : BatchState) (books : Books) : Prop where
  waiting : s.phase = .waiting
  nonempty : s.buffer ≠ []
  buffered : s.buffer.length ≤ cfg.batchMax
  calls : s.calls = books.attempts.map (·.items)

/-- The buffer departs. -/
theorem Loaded.flush (h : Loaded cfg s books) (last : Bool)
    (hlast : last = true → s.closed = true ∧ s.queue = []) :
    SinkInv cfg (s.flushWithRetry last)
        { books with attempts := books.attempts ++ [{ place := books.settled.length, items := s.buffer }] } ∧
      Follows cfg s books (s.flushWithRetry last)
        { books with attempts := books.attempts ++ [{ place := books.settled.length, items := s.buffer }] } := by
  unfold flushWithRetry
  rw [if_neg h.nonempty]
  constructor
  · refine ⟨batchMax_pos cfg, ?_, ?_, fun _ => rfl, ?_⟩
    · rw [List.map_append, ← h.calls]
      rfl
    · rintro flush (⟨last', hphase⟩ | ⟨wakeAt, last', hphase⟩)
      · obtain ⟨rfl, -⟩ := BatchPhase.flushing.inj hphase
        exact Nat.zero_le _
      · cases hphase
    · rintro (hphase | ⟨flush, hphase⟩ | ⟨flush, wakeAt, hphase⟩)
      · cases hphase
      · obtain ⟨-, rfl⟩ := BatchPhase.flushing.inj hphase
        obtain ⟨hclosed, hqueue⟩ := hlast rfl
        exact ⟨hclosed, hqueue, rfl⟩
      · cases hphase
  · exact Or.inr (.depart (s := s.courier books) (flight_of_waiting h.waiting) rfl h.nonempty h.buffered)

/-- The buffer departs, in the books of the step that brought it there. -/
theorem Loaded.depart {s₁ : BatchState} (h : Loaded cfg s₁ books)
    (hsame : s₁.courier books = s.courier books) (hcalls : s₁.calls = s.calls)
    (hsettle : books.settle cfg s e = books.settled) (last : Bool)
    (hlast : last = true → s₁.closed = true ∧ s₁.queue = []) :
    SinkInv cfg (s₁.flushWithRetry last) (books.note cfg s e (s₁.flushWithRetry last)) ∧
      Follows cfg s books (s₁.flushWithRetry last) (books.note cfg s e (s₁.flushWithRetry last)) := by
  obtain ⟨hcalled, hbatch⟩ := flushed_calls h.nonempty last
  rw [hcalls] at hcalled
  rw [note_called hsettle hcalled, hbatch, Follows, ← hsame]
  exact h.flush last hlast

/-- A received entry stays in line; a full buffer departs. -/
theorem Loaded.trigger {s₁ : BatchState} (h : Loaded cfg s₁ books)
    (hsame : s₁.courier books = s.courier books) (hcalls : s₁.calls = s.calls)
    (hsettle : books.settle cfg s e = books.settled) :
    SinkInv cfg (s₁.sizeTrigger cfg) (books.note cfg s e (s₁.sizeTrigger cfg)) ∧
      Follows cfg s books (s₁.sizeTrigger cfg) (books.note cfg s e (s₁.sizeTrigger cfg)) := by
  unfold sizeTrigger
  split
  · exact h.depart hsame hcalls hsettle false fun hlast => Bool.noConfusion hlast
  · rename_i hsmall
    rw [note_quiet hsettle hcalls]
    refine ⟨⟨Nat.not_le.mp hsmall, h.calls, ?_, fun hbusy => absurd (flight_of_waiting h.waiting) hbusy, ?_⟩,
      Or.inl hsame⟩
    · rintro flush (⟨last', hphase⟩ | ⟨wakeAt, last', hphase⟩) <;> rw [h.waiting] at hphase <;> cases hphase
    · rintro (hphase | ⟨flush, hphase⟩ | ⟨flush, wakeAt, hphase⟩) <;> rw [h.waiting] at hphase <;>
        cases hphase

/-- Below the largest count the failures are counted exactly. -/
theorem failures_succ {failures maxRetryCount : UInt32} (hmax : maxRetryCount.toNat < 2 ^ 32 - 1)
    (h : failures.toNat ≤ maxRetryCount.toNat) :
    (failures + 1).toNat = failures.toNat + 1 ∧
      (failures + 1 > maxRetryCount ↔ failures.toNat = maxRetryCount.toNat) := by
  have hsucc : (failures + 1).toNat = failures.toNat + 1 := by
    rw [UInt32.toNat_add]
    show (failures.toNat + 1) % 2 ^ 32 = failures.toNat + 1
    omega
  refine ⟨hsucc, ?_⟩
  rw [gt_iff_lt, UInt32.lt_iff_toNat_lt, hsucc]
  omega

/-- What an answer comes to: the call was the last one, or what is left is called for again. -/
theorem answer_cases (hmax : cfg.maxRetryCount.toNat < 2 ^ 32 - 1) {flush : Flushing}
    (hfew : flush.failures.toNat ≤ cfg.maxRetryCount.toNat) (answer : Except FlushError Unit) :
    (flush.next cfg.maxRetryCount answer = none ∧
      flush.fates cfg.maxRetryCount answer =
        fated .delivered (flush.reported answer) ++ fated .dropped (remainingOf flush.entries answer) ∧
      (remainingOf flush.entries answer = [] ∨
        flush.failures.toNat + 1 = cfg.maxRetryCount.toNat + 1)) ∨
    ∃ next, flush.next cfg.maxRetryCount answer = some next ∧
      next.entries = remainingOf flush.entries answer ∧
      next.failures.toNat = flush.failures.toNat + 1 ∧
      flush.fates cfg.maxRetryCount answer = fated .delivered (flush.reported answer) ∧
      remainingOf flush.entries answer ≠ [] ∧
      flush.failures.toNat + 1 < cfg.maxRetryCount.toNat + 1 := by
  obtain ⟨hsucc, hexceeds⟩ := failures_succ hmax hfew
  have hnext : flush.next cfg.maxRetryCount answer = _ := FlushRun.next_eq flush answer
  by_cases hlast : remainingOf flush.entries answer = [] ∨ flush.failures + 1 > cfg.maxRetryCount
  · left
    rw [if_pos hlast] at hnext
    refine ⟨hnext, by rw [Flushing.fates, hnext], ?_⟩
    rcases hlast with hleft | hexceed
    · exact Or.inl hleft
    · exact Or.inr (by rw [hexceeds.mp hexceed])
  · right
    rw [if_neg hlast] at hnext
    obtain ⟨hleft, hmore⟩ := not_or.mp hlast
    rw [hexceeds] at hmore
    refine ⟨_, hnext, rfl, hsucc, ?_, hleft, by omega⟩
    rw [Flushing.fates, hnext]
    exact List.append_nil _

/-- An answer to the flusher's call is an outcome of the courier's attempt. -/
theorem answer_follows (hmax : cfg.maxRetryCount.toNat < 2 ^ 32 - 1) (h : SinkInv cfg s books)
    {flush : Flushing} {last : Bool} (hphase : s.phase = .flushing flush last)
    (answer : Except FlushError Unit) {phase : BatchPhase}
    (hnext : (flush.next cfg.maxRetryCount answer = none ∧
        phase = if last then .exited else .waiting) ∨
      ∃ next, flush.next cfg.maxRetryCount answer = some next ∧
        phase = .retrying next (s.now + cfg.retryDelay) last) :
    SinkInv cfg { s with phase := phase }
        (books.note cfg s (.flushed answer) { s with phase := phase }) ∧
      Follows cfg s books { s with phase := phase }
        (books.note cfg s (.flushed answer) { s with phase := phase }) := by
  have hnote : books.note cfg s (.flushed answer) { s with phase := phase } = _ :=
    note_answered hphase rfl
  rw [hnote]
  have hfew := h.failures flush (Or.inl ⟨last, hphase⟩)
  have hempty : s.buffer = [] := h.emptied (by rw [flight, hphase]; exact fun hidle => by cases hidle)
  have hflight : (s.courier books).flight =
      .carrying (flush.reported answer ++ remainingOf flush.entries answer) (flush.failures.toNat + 1) := by
    show s.flight = _
    rw [FlushRun.reported_append_remainingOf, flight, hphase]
  rcases answer_cases hmax hfew answer with
    ⟨hnone, hfates, hlast⟩ | ⟨next, hsome, hentries, hsucc, hfates, hleft, hmore⟩
  · obtain rfl : phase = if last then .exited else .waiting := by
      rcases hnext with ⟨-, hphase'⟩ | ⟨next, hsome, -⟩
      · exact hphase'
      · rw [hnone] at hsome
        cases hsome
    have hidle : BatchState.flight { s with phase := if last then .exited else .waiting } = .idle := by
      cases last <;> rfl
    constructor
    · refine ⟨h.buffered, h.calls, ?_, fun hbusy => absurd hidle hbusy, ?_⟩
      · rintro flush' (⟨last', hp⟩ | ⟨wakeAt, last', hp⟩) <;> cases last <;> cases hp
      · cases last with
        | false => rintro (hp | ⟨flush', hp⟩ | ⟨flush', wakeAt, hp⟩) <;> cases hp
        | true => exact fun _ => h.ended (Or.inr (Or.inl ⟨flush, hphase⟩))
    · right
      have hstep : Courier.Step (cfg.maxRetryCount.toNat + 1) cfg.batchMax (s.courier books) _ :=
        .settle hflight hlast
      rw [hfates]
      show Courier.Step _ _ (s.courier books) { s.courier books with flight := _, settled := _ }
      rw [hidle]
      exact hstep
  · obtain rfl : phase = .retrying next (s.now + cfg.retryDelay) last := by
      rcases hnext with ⟨hnone, -⟩ | ⟨next', hsome', hphase'⟩
      · rw [hsome] at hnone
        cases hnone
      · rw [hsome] at hsome'
        obtain rfl := Option.some.inj hsome'
        exact hphase'
    constructor
    · refine ⟨h.buffered, h.calls, ?_, fun _ => hempty, ?_⟩
      · rintro flush' (⟨last', hp⟩ | ⟨wakeAt, last', hp⟩)
        · cases hp
        · obtain ⟨rfl, -, -⟩ := BatchPhase.retrying.inj hp
          omega
      · rintro (hp | ⟨flush', hp⟩ | ⟨flush', wakeAt, hp⟩)
        · cases hp
        · cases hp
        · obtain ⟨-, -, rfl⟩ := BatchPhase.retrying.inj hp
          exact h.ended (Or.inr (Or.inl ⟨flush, hphase⟩))
    · right
      have hstep : Courier.Step (cfg.maxRetryCount.toNat + 1) cfg.batchMax (s.courier books) _ :=
        .fail hflight hleft hmore
      rw [← hsucc, ← hentries] at hstep
      rw [hfates]
      exact hstep

/-- **Each step of the sink is one of the courier, or none.** -/
theorem refines_step (hmax : cfg.maxRetryCount.toNat < 2 ^ 32 - 1) (h : SinkInv cfg s books)
    (hstep : s.step cfg instantMax e = some s') :
    SinkInv cfg s' (books.note cfg s e s') ∧ Follows cfg s books s' (books.note cfg s e s') := by
  cases batchMove_of_step hstep with
  | @accept entry hopen =>
    refine quiet_follows rfl rfl ⟨h.buffered, h.calls, h.failures, h.emptied,
      fun hended => absurd (h.ended hended).1 hopen⟩ (Or.inr ?_)
    have hstep : Courier.Step (cfg.maxRetryCount.toNat + 1) cfg.batchMax (s.courier books) _ :=
      .accept entry
    rw [show (s.courier books).waiting ++ [entry] = s.buffer ++ (s.queue ++ [entry]) from
      List.append_assoc _ _ _] at hstep
    exact hstep
  | drop =>
    exact quiet_follows rfl rfl h (Or.inl rfl)
  | close hopen =>
    exact quiet_follows rfl rfl ⟨h.buffered, h.calls, h.failures, h.emptied,
      fun hended => absurd (h.ended hended).1 hopen⟩ (Or.inl rfl)
  | tick =>
    exact quiet_follows rfl rfl ⟨h.buffered, h.calls, h.failures, h.emptied, h.ended⟩ (Or.inl rfl)
  | first hphase hempty hqueue =>
    refine Loaded.trigger ⟨hphase, List.cons_ne_nil _ _, batchMax_pos cfg, h.calls⟩ ?_ rfl rfl
    show courier _ _ = courier _ _
    rw [courier, courier, hempty, hqueue]
    rfl
  | @more entry queue hphase hbuffer hqueue =>
    refine Loaded.trigger ⟨hphase, List.append_ne_nil_of_right_ne_nil _ (List.cons_ne_nil _ _), ?_, h.calls⟩
      ?_ rfl rfl
    · show (s.buffer ++ [entry]).length ≤ cfg.batchMax
      rw [List.length_append]
      exact h.buffered
    · show courier _ _ = courier _ _
      rw [courier, courier, hqueue, List.append_assoc]
      rfl
  | exit hphase hempty hqueue hclosed =>
    refine quiet_follows rfl rfl ⟨h.buffered, h.calls, ?_, fun hbusy => absurd rfl hbusy,
      fun _ => ⟨hclosed, hqueue, hempty⟩⟩ (Or.inl ?_)
    · rintro flush (⟨last', hp⟩ | ⟨wakeAt, last', hp⟩) <;> cases hp
    · rw [courier, courier, flight_of_waiting hphase]
      rfl
  | lastFlush hphase hbuffer hqueue hclosed =>
    exact Loaded.depart ⟨hphase, hbuffer, Nat.le_of_lt h.buffered, h.calls⟩ rfl rfl rfl true
      fun _ => ⟨hclosed, hqueue⟩
  | due hphase hbuffer =>
    exact Loaded.depart ⟨hphase, hbuffer, Nat.le_of_lt h.buffered, h.calls⟩ rfl rfl rfl false
      fun hlast => Bool.noConfusion hlast
  | panic hphase =>
    have hsettle : books.settle cfg s e = books.settled := by
      cases e with
      | flushed answer => rw [Books.settle, hphase]
      | _ => rfl
    refine quiet_follows hsettle rfl ⟨h.buffered, h.calls, ?_, fun hbusy => absurd rfl hbusy, ?_⟩
      (Or.inl ?_)
    · rintro flush (⟨last', hp⟩ | ⟨wakeAt, last', hp⟩) <;> cases hp
    · rintro (hp | ⟨flush', hp⟩ | ⟨flush', wakeAt', hp⟩) <;> cases hp
    · rw [courier, courier, flight_of_waiting hphase]
      rfl
  | @settle answer flush last hphase hnext =>
    exact answer_follows hmax h hphase answer (Or.inl ⟨hnext, rfl⟩)
  | @retry answer flush next last hphase hnext =>
    exact answer_follows hmax h hphase answer (Or.inr ⟨next, hnext, rfl⟩)
  | @wake flush wakeAt last hphase =>
    have hnote : books.note cfg s .wake
        { s with phase := .flushing flush last, calls := s.calls ++ [flush.entries] } = _ :=
      note_called rfl rfl
    rw [hnote]
    constructor
    · refine ⟨h.buffered, ?_, ?_, fun _ => h.emptied (by rw [flight, hphase]; exact fun hidle => by cases hidle), ?_⟩
      · rw [List.map_append, ← h.calls]
        rfl
      · rintro flush' (⟨last', hp⟩ | ⟨wakeAt', last', hp⟩)
        · obtain ⟨rfl, -⟩ := BatchPhase.flushing.inj hp
          exact h.failures flush (Or.inr ⟨wakeAt, last, hphase⟩)
        · cases hp
      · rintro (hp | ⟨flush', hp⟩ | ⟨flush', wakeAt', hp⟩)
        · cases hp
        · obtain ⟨-, rfl⟩ := BatchPhase.flushing.inj hp
          exact h.ended (Or.inr (Or.inr ⟨flush, wakeAt, hphase⟩))
        · cases hp
    · right
      have hflight : (s.courier books).flight = .backingOff flush.entries flush.failures.toNat := by
        show s.flight = _
        rw [flight, hphase]
      exact .again hflight

/-! ## Whole runs -/

theorem refines_run (hmax : cfg.maxRetryCount.toNat < 2 ^ 32 - 1) :
    ∀ {events : List BatchEvent} {s s' : BatchState} {books : Books}, SinkInv cfg s books →
      run cfg instantMax events s = some s' →
      SinkInv cfg s' (booksOf cfg instantMax events s books) ∧
        Relation.ReflTransGen (Courier.Step (cfg.maxRetryCount.toNat + 1) cfg.batchMax)
          (s.courier books) (s'.courier (booksOf cfg instantMax events s books)) := by
  intro events
  induction events with
  | nil =>
    intro s s' books h hrun
    obtain rfl := Option.some.inj hrun
    exact ⟨h, .refl⟩
  | cons e events ih =>
    intro s s' books h hrun
    obtain ⟨s₁, hstep, hrest⟩ := Option.bind_eq_some_iff.mp hrun
    obtain ⟨h₁, hfollows⟩ := refines_step hmax h hstep
    obtain ⟨h', hreaches⟩ := ih h₁ hrest
    rw [booksOf, hstep]
    refine ⟨h', ?_⟩
    rcases hfollows with hsame | hone
    · rw [← hsame]
      exact hreaches
    · exact .head hone hreaches

/-- The answers among some events, in order. -/
def answersOf (events : List BatchEvent) : List (Except FlushError Unit) :=
  events.filterMap fun e =>
    match e with
    | .flushed answer => some answer
    | _ => none

/-- What the sink still has to do: per entry that waits a flush of its own with all its retries. -/
def load (cfg : BatchConfig) (s : BatchState) : Nat :=
  (2 * cfg.maxRetryCount.toNat + 3) * s.queue.length +
    (if s.buffer = [] then 0 else 2 * cfg.maxRetryCount.toNat + 2) +
    match s.phase with
    | .waiting => 1
    | .flushing flush _ => 2 * (cfg.maxRetryCount.toNat - flush.failures.toNat) + 2
    | .retrying flush _ _ => 2 * (cfg.maxRetryCount.toNat - flush.failures.toNat) + 3
    | .exited | .panicked => 0

theorem load_flush (hne : s.buffer ≠ []) (last : Bool) :
    load cfg (s.flushWithRetry last) =
      (2 * cfg.maxRetryCount.toNat + 3) * s.queue.length + 2 * cfg.maxRetryCount.toNat + 2 := by
  unfold flushWithRetry
  rw [if_neg hne]
  simp only [load, if_true]
  show _ + 0 + (2 * (cfg.maxRetryCount.toNat - 0) + 2) = _
  omega

theorem load_trigger (hne : s.buffer ≠ []) (hphase : s.phase = .waiting) :
    load cfg (s.sizeTrigger cfg) ≤
      (2 * cfg.maxRetryCount.toNat + 3) * s.queue.length + 2 * cfg.maxRetryCount.toNat + 3 := by
  unfold sizeTrigger
  split
  · rw [load_flush hne]
    omega
  · rw [load, hphase, if_neg hne]
    show _ + _ + 1 ≤ _
    omega

/-- Receiving is one thing less to do. -/
theorem load_recv (hstep : s.step cfg instantMax .recv = some s') (halive : s'.phase ≠ .panicked) :
    load cfg s' < load cfg s := by
  cases batchMove_of_step hstep with
  | first hphase hempty hqueue =>
    refine Nat.lt_of_le_of_lt (load_trigger (List.cons_ne_nil _ _) hphase) ?_
    rw [load, hphase, hqueue, List.length_cons, if_pos hempty, Nat.mul_succ]
    dsimp only
    omega
  | more hphase hbuffer hqueue =>
    refine Nat.lt_of_le_of_lt
      (load_trigger (List.append_ne_nil_of_right_ne_nil _ (List.cons_ne_nil _ _)) hphase) ?_
    rw [load, hphase, hqueue, List.length_cons, if_neg hbuffer, Nat.mul_succ]
    dsimp only
    omega
  | exit hphase hempty hqueue =>
    simp [load, hphase, hempty, hqueue]
  | lastFlush hphase hbuffer hqueue =>
    rw [load_flush hbuffer, load, hphase, if_neg hbuffer]
    show _ < _ + _ + 1
    omega
  | panic => exact absurd rfl halive

/-- A retry comes no later than its delay from now. -/
def Wakes (cfg : BatchConfig) (s : BatchState) : Prop :=
  ∀ flush wakeAt last, s.phase = .retrying flush wakeAt last → wakeAt ≤ s.now + cfg.retryDelay

theorem wakes_step (h : Wakes cfg s) (hstep : s.step cfg instantMax e = some s') : Wakes cfg s' := by
  intro flush wakeAt last hphase'
  cases batchMove_of_step hstep with
  | accept | drop | close => exact h flush wakeAt last hphase'
  | tick => exact Nat.le_trans (h flush wakeAt last hphase') (by show s.now + _ ≤ s.now + 1 + _; omega)
  | first hphase | more hphase =>
    unfold sizeTrigger flushWithRetry at hphase'
    split at hphase'
    · split at hphase' <;> cases hphase'
    · rw [hphase] at hphase'
      cases hphase'
  | exit | panic | wake => cases hphase'
  | lastFlush | due =>
    unfold flushWithRetry at hphase'
    split at hphase' <;> cases hphase'
  | settle => split at hphase' <;> cases hphase'
  | retry =>
    obtain ⟨-, rfl, -⟩ := BatchPhase.retrying.inj hphase'
    exact Nat.le_refl _

/-- No entry comes, and the channel is not closed again. -/
def FromWithin : BatchEvent → Prop
  | .push _ | .close => False
  | .tick | .recv | .timer | .flushed _ | .wake => True

/-- What is known of a closed sink on its way to the end. -/
structure Closing (cfg : BatchConfig) (instantMax : Nat) (s : BatchState) : Prop where
  books : ∃ books, SinkInv cfg s books
  quiet : Quiet cfg s
  wakes : Wakes cfg s
  closed : s.closed = true
  alive : s.phase ≠ .panicked
  /-- the retries that can still come, and then a deadline, are before the last instant -/
  buffered : s.now + load cfg s * cfg.retryDelay + cfg.bufferDuration ≤ instantMax
  inactive : s.now + load cfg s * cfg.retryDelay + cfg.inactiveTimeout ≤ instantMax

/-- A step from within that leaves less to do, and the clock where it is. -/
theorem Closing.next (hmax : cfg.maxRetryCount.toNat < 2 ^ 32 - 1) (h : Closing cfg instantMax s)
    (hstep : s.step cfg instantMax e = some s') (hclosed : s'.closed = s.closed)
    (halive : s'.phase ≠ .panicked) (hload : load cfg s' < load cfg s) (hnow : s'.now = s.now) :
    Closing cfg instantMax s' := by
  obtain ⟨books, hbooks⟩ := h.books
  have hless : load cfg s' * cfg.retryDelay ≤ load cfg s * cfg.retryDelay :=
    Nat.mul_le_mul_right _ (Nat.le_of_lt hload)
  have hbuffered := h.buffered
  have hinactive := h.inactive
  exact
    { books := ⟨_, (refines_step hmax hbooks hstep).1⟩
      quiet := (quiet_step h.quiet hstep).1
      wakes := wakes_step h.wakes hstep
      closed := hclosed.trans h.closed
      alive := halive
      buffered := by omega
      inactive := by omega }

/-- The clock goes on to a retry, and the retry comes. -/
theorem Closing.wake (hmax : cfg.maxRetryCount.toNat < 2 ^ 32 - 1) (h : Closing cfg instantMax s)
    {flush : Flushing} {wakeAt : Nat} {last : Bool} (hphase : s.phase = .retrying flush wakeAt last) :
    ∃ s₁ s₂, (∀ events, run cfg instantMax
        (List.replicate (wakeAt - s.now) .tick ++ events) s = run cfg instantMax events s₁) ∧
      s₁.step cfg instantMax .wake = some s₂ ∧ load cfg s₂ < load cfg s ∧
      Closing cfg instantMax s₂ := by
  obtain ⟨books, hbooks⟩ := h.books
  have hsoon := h.wakes flush wakeAt last hphase
  refine ⟨{ s with now := s.now + (wakeAt - s.now) },
    { s with
      now := s.now + (wakeAt - s.now)
      phase := .flushing flush last
      calls := s.calls ++ [flush.entries] }, fun events => run_ticks _ events s, ?_, ?_, ?_⟩
  · have hpast : wakeAt ≤ s.now + (wakeAt - s.now) := by omega
    simp only [step, hphase]
    rw [if_pos hpast]
  · rw [load, load, hphase]
    dsimp only
    omega
  · have hlater : SinkInv cfg { s with now := s.now + (wakeAt - s.now) } books :=
      ⟨hbooks.buffered, hbooks.calls, hbooks.failures, hbooks.emptied, hbooks.ended⟩
    have hquiet : Quiet cfg { s with now := s.now + (wakeAt - s.now) } :=
      ⟨⟨Nat.le_add_right_of_le h.quiet.times.1, Nat.le_add_right_of_le h.quiet.times.2⟩,
        h.quiet.flushing, h.quiet.single⟩
    have hstep : step cfg instantMax { s with now := s.now + (wakeAt - s.now) } .wake =
        some { s with
          now := s.now + (wakeAt - s.now)
          phase := .flushing flush last
          calls := s.calls ++ [flush.entries] } := by
      have hpast : wakeAt ≤ s.now + (wakeAt - s.now) := by omega
      simp only [step, hphase]
      rw [if_pos hpast]
    have hless : load cfg { s with
        now := s.now + (wakeAt - s.now)
        phase := .flushing flush last
        calls := s.calls ++ [flush.entries] } + 1 = load cfg s := by
      rw [load, load, hphase]
      dsimp only
      omega
    -- the delay is paid for by the call that is one less
    have hpaid : load cfg { s with
        now := s.now + (wakeAt - s.now)
        phase := .flushing flush last
        calls := s.calls ++ [flush.entries] } * cfg.retryDelay + cfg.retryDelay =
        load cfg s * cfg.retryDelay := by
      rw [← hless, Nat.succ_mul]
    have hbuffered := h.buffered
    have hinactive := h.inactive
    exact
      { books := ⟨_, (refines_step hmax hlater hstep).1⟩
        quiet := (quiet_step hquiet hstep).1
        wakes := fun _ _ _ hp => by cases hp
        closed := h.closed
        alive := fun hp => by cases hp
        buffered := by dsimp only; omega
        inactive := by dsimp only; omega }

/-- An answer ends the flush, or costs it a retry. -/
theorem answer_nearer (hmax : cfg.maxRetryCount.toNat < 2 ^ 32 - 1) {flush : Flushing} {last : Bool}
    (hfew : flush.failures.toNat ≤ cfg.maxRetryCount.toNat) (hphase : s.phase = .flushing flush last)
    (answer : Except FlushError Unit) :
    ∃ s₁, s.step cfg instantMax (.flushed answer) = some s₁ ∧ load cfg s₁ < load cfg s ∧
      s₁.closed = s.closed ∧ s₁.now = s.now ∧ s₁.phase ≠ .panicked := by
  cases hnext : flush.next cfg.maxRetryCount answer with
  | none =>
    refine ⟨{ s with phase := if last then .exited else .waiting }, by simp only [step, hphase, hnext],
      ?_, rfl, rfl, ?_⟩
    · rw [load, load, hphase]
      cases last <;> dsimp only <;> simp
    · cases last <;> exact fun h => by cases h
  | some next =>
    refine ⟨{ s with phase := .retrying next (s.now + cfg.retryDelay) last },
      by simp only [step, hphase, hnext], ?_, rfl, rfl, fun h => by cases h⟩
    obtain ⟨hsucc, hexceeds⟩ := failures_succ hmax hfew
    rw [FlushRun.next_eq] at hnext
    split at hnext
    · cases hnext
    · rename_i hgo
      obtain rfl := Option.some.inj hnext
      have hmore := (not_or.mp hgo).2
      rw [hexceeds] at hmore
      rw [load, load, hphase]
      dsimp only
      rw [hsucc]
      omega

/-- From a closed channel the loop comes to its end, for all answers that may still come.
    Induction on what there is to do. -/
theorem exists_end (hmax : cfg.maxRetryCount.toNat < 2 ^ 32 - 1) (n : Nat) :
    ∀ s : BatchState, load cfg s = n → Closing cfg instantMax s →
      ∀ answers : Nat → Except FlushError Unit, ∃ more s' k,
        run cfg instantMax more s = some s' ∧ s'.phase = .exited ∧
        (∀ e ∈ more, FromWithin e) ∧ answersOf more = (List.range k).map answers := by
  induction n using Nat.strong_induction_on with
  | _ n ih =>
    intro s hload h answers
    cases hphase : s.phase with
    | exited => exact ⟨[], s, 0, rfl, hphase, (fun e he => absurd he List.not_mem_nil), rfl⟩
    | panicked => exact absurd hphase h.alive
    | waiting =>
      have hdeadline : s.buffer ≠ [] → s.deadline cfg instantMax ≠ none := by
        intro _
        have hbuffered := h.buffered
        have hinactive := h.inactive
        obtain ⟨hfirst, hlast⟩ := h.quiet.times
        have holdest : s.firstEntryAt + cfg.bufferDuration ≤ instantMax := by omega
        have hnewest : s.lastEntryAt + cfg.inactiveTimeout ≤ instantMax := by omega
        simp [deadline, addToInstant, holdest, hnewest]
      obtain ⟨s₁, hstep, hnearer⟩ := exists_recv h.closed hphase hdeadline
      have hless := load_recv hstep hnearer.alive
      have hnext := h.next hmax hstep hnearer.closed_eq hnearer.alive hless hnearer.now_eq
      obtain ⟨more, s', k, hrun, hexited, hwithin, hanswers⟩ := ih _ (hload ▸ hless) s₁ rfl hnext answers
      refine ⟨.recv :: more, s', k, by rw [run, hstep]; exact hrun, hexited, ?_, hanswers⟩
      intro e he
      rcases List.mem_cons.mp he with rfl | he
      · exact trivial
      · exact hwithin e he
    | flushing flush last =>
      obtain ⟨s₁, hstep, hless, hclosed, hnow, halive⟩ : ∃ s₁,
          s.step cfg instantMax (.flushed (answers 0)) = some s₁ ∧ load cfg s₁ < load cfg s ∧
          s₁.closed = s.closed ∧ s₁.now = s.now ∧ s₁.phase ≠ .panicked := by
        obtain ⟨books, hbooks⟩ := h.books
        exact answer_nearer hmax (hbooks.failures flush (Or.inl ⟨last, hphase⟩)) hphase (answers 0)
      have hnext := h.next hmax hstep hclosed halive hless hnow
      obtain ⟨more, s', k, hrun, hexited, hwithin, hanswers⟩ :=
        ih _ (hload ▸ hless) s₁ rfl hnext fun i => answers (i + 1)
      refine ⟨.flushed (answers 0) :: more, s', k + 1, by rw [run, hstep]; exact hrun, hexited, ?_, ?_⟩
      · intro e he
        rcases List.mem_cons.mp he with rfl | he
        · exact trivial
        · exact hwithin e he
      · rw [List.range_succ_eq_map, List.map_cons, List.map_map]
        show answers 0 :: answersOf more = _
        rw [hanswers]
        rfl
    | retrying flush wakeAt last =>
      obtain ⟨s₁, s₂, hticks, hstep, hless, hnext⟩ := h.wake hmax hphase
      obtain ⟨more, s', k, hrun, hexited, hwithin, hanswers⟩ := ih _ (hload ▸ hless) s₂ rfl hnext answers
      refine ⟨List.replicate (wakeAt - s.now) .tick ++ .wake :: more, s', k, ?_, hexited, ?_, ?_⟩
      · rw [hticks, run, hstep]
        exact hrun
      · intro e he
        rcases List.mem_append.mp he with he | he
        · rw [List.eq_of_mem_replicate he]
          exact trivial
        · rcases List.mem_cons.mp he with rfl | he
          · exact trivial
          · exact hwithin e he
      · rw [answersOf, List.filterMap_append, List.filterMap_replicate_of_none rfl, List.nil_append]
        exact hanswers

theorem run_append (events more : List BatchEvent) (s : BatchState) :
    run cfg instantMax (events ++ more) s =
      (run cfg instantMax events s).bind (run cfg instantMax more) := by
  induction events generalizing s with
  | nil => rfl
  | cons e events ih =>
    show (s.step cfg instantMax e).bind _ = ((s.step cfg instantMax e).bind _).bind _
    rw [Option.bind_assoc]
    congr 1
    funext s₁
    exact ih s₁

/-- The clock's facts hold in every run. -/
theorem clocked_run {events : List BatchEvent} {s s' : BatchState} (hquiet : Quiet cfg s)
    (hwakes : Wakes cfg s) (hrun : run cfg instantMax events s = some s') :
    Quiet cfg s' ∧ Wakes cfg s' := by
  induction events generalizing s with
  | nil =>
    obtain rfl := Option.some.inj hrun
    exact ⟨hquiet, hwakes⟩
  | cons e events ih =>
    obtain ⟨s₁, hstep, hrest⟩ := Option.bind_eq_some_iff.mp hrun
    exact ih (quiet_step hquiet hstep).1 (wakes_step hwakes hstep) hrest

/-- From within nothing is accepted. -/
theorem accepted_within {more : List BatchEvent} {s s' : BatchState}
    (hrun : run cfg instantMax more s = some s') (hwithin : ∀ e ∈ more, FromWithin e) :
    s'.accepted = s.accepted := by
  induction more generalizing s with
  | nil =>
    obtain rfl := Option.some.inj hrun
    rfl
  | cons e more ih =>
    obtain ⟨s₁, hstep, hrest⟩ := Option.bind_eq_some_iff.mp hrun
    rw [ih hrest fun e' he' => hwithin e' (List.mem_cons_of_mem e he')]
    have he := hwithin e List.mem_cons_self
    cases batchMove_of_step hstep with
    | accept | drop | close => exact he.elim
    | first | more =>
      unfold sizeTrigger flushWithRetry
      split
      · split <;> rfl
      · rfl
    | lastFlush | due =>
      unfold flushWithRetry
      split <;> rfl
    | tick | exit | panic | settle | retry | wake => rfl

end Step

/-! ## A flusher that is down, and comes back -/

/-- Batches of two, and one retry at once. -/
def retryOnceCfg : BatchConfig := { batchSizeCfg 2 with maxRetryCount := 1, retryDelay := 0 }

def down : FlushError where
  message := "down"
  firstFail := none

/-- Three entries; the first batch is given up, and then the channel is closed. -/
def downEvents : List BatchEvent :=
  [.push (.bool true), .push (.bool false), .push .null, .recv, .recv, .flushed (.error down), .wake,
    .flushed (.error down), .close]

end BatchState

end Featherbit
