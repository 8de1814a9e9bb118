/-
  WHAT THE LOG SHIPPERS SEND, over whole runs of their sinks.

  A flusher sends some messages for a batch and answers the sink, as the network lets it
  (`BatchFlusher`); in a run (`Ships`) it is these answers the sink gets, and what was sent by then
  is on the wire.  Two ways to send a batch are told apart by what a flusher may answer after what it
  sent:

  1. **Item by item** (`SendsItems`; `udp-logger`, `datadog`).  `first_fail` is where the flush
     stopped, so nothing before it is sent again: `udp-logger` sends each delivered entry once, in the
     order of acceptance, and no other (`datagrams_once`).  `datadog` may send an entry in several
     datagrams, and breaks off within it: these are the ones that are sent again (`metrics_sent`).

  2. **In one piece** (`SendsWhole`; the loggers over HTTP and TCP).  They report no `first_fail`, so
     a batch that failed is sent again as a whole, also what had arrived of it: a delivered entry
     arrives at least once.  What arrives reads as the entries of an attempt: a request's body as all
     of them (`requests_read`), the whole lines of a connection as the first of them
     (`lines_read`).
-/
import Featherbit.Batch.Failures
import Featherbit.Json.Text
import Featherbit.Lib.Split
import Featherbit.Outbound
import Featherbit.Plugins.Datadog
import Featherbit.Rust.Utf8Prefix

namespace Featherbit

open Courier (Fate fated delivered OnWire Pieces Transmits BrokenOff)

/-- `BatchFlusher`: what a flush sends, and its answer.  It is told how many flushes were before it,
    for the cursor of the endpoints; `ν` is what the network does. -/
structure BatchFlusher (ν β : Type) where
  flush : Nat → ν → List Json → List β × Except FlushError Unit

section Runs

variable {ν β : Type} (flusher : BatchFlusher ν β) (cfg : BatchConfig) (instantMax : Nat)

/-- The runs of a sink with a flusher, with their books and what is on the wire. -/
inductive Ships : BatchState → Books → List β → Prop where
  | start : Ships .start {} []
  | step {s s' : BatchState} {books : Books} {wire : List β} {e : BatchEvent}
      (h : Ships s books wire) (he : ∀ answer, e ≠ .flushed answer)
      (hstep : s.step cfg instantMax e = some s') : Ships s' (books.note cfg s e s') wire
  | flush {s s' : BatchState} {books : Books} {wire sent : List β} {flushing : Flushing} {last : Bool}
      {answer : Except FlushError Unit} (h : Ships s books wire) (net : ν)
      (hphase : s.phase = .flushing flushing last)
      (hflush : flusher.flush (s.calls.length - 1) net flushing.entries = (sent, answer))
      (hstep : s.step cfg instantMax (.flushed answer) = some s') :
      Ships s' (books.note cfg s (.flushed answer) s') (wire ++ sent)

/-- What is sent entry by entry: as packets, up to the entry that `first_fail` names. -/
structure SendsItems (packets : Json → List β) : Prop where
  ok : ∀ nth net entries sent, flusher.flush nth net entries = (sent, .ok ()) →
    sent = entries.flatMap packets
  error : ∀ nth net entries sent e, entries ≠ [] → flusher.flush nth net entries = (sent, .error e) →
    ∃ done left, entries = done ++ left ∧ left ≠ [] ∧ e.firstFail.getD 0 = done.length ∧
      Transmits packets done left sent

/-- What is sent as one message: on an error perhaps all the same, or a part of it. -/
structure SendsWhole (whole : Nat → List Json → β) (partOf : β → β → Prop) : Prop where
  ok : ∀ nth net entries sent, flusher.flush nth net entries = (sent, .ok ()) → sent = [whole nth entries]
  error : ∀ nth net entries sent e, flusher.flush nth net entries = (sent, .error e) →
    e.firstFail = none ∧ ∃ post : Option β, sent = post.toList ∧
      ∀ m, post = some m → partOf m (whole nth entries)

end Runs

/-! ## The sink's books along a run -/

namespace BatchState

section Step

variable {cfg : BatchConfig} {instantMax : Nat} {s s' : BatchState} {e : BatchEvent} {books : Books}

/-- What an event that is no answer does to what is under way. -/
inductive Rests (s s' : BatchState) : Prop where
  | same (hflight : s'.flight = s.flight) (hcalls : s'.calls = s.calls)
  | call {batch : List Json} (hflight : s'.flight.batch = batch)
      (hcalls : s'.calls = s.calls ++ [batch])
      (htimes : (s.flight = .idle ∧ s'.flight = .carrying batch 1) ∨
        ∃ times, s.flight = .backingOff batch times ∧ s'.flight = .carrying batch (times + 1))

theorem rests_flush (hphase : s.phase = .waiting) {s₁ : BatchState} (hcalls : s₁.calls = s.calls)
    (hne : s₁.buffer ≠ []) (last : Bool) : Rests s (s₁.flushWithRetry last) := by
  obtain ⟨hcalled, hbatch⟩ := flushed_calls hne last
  rw [hcalls] at hcalled
  refine .call hbatch hcalled (Or.inl ⟨flight_of_waiting hphase, ?_⟩)
  unfold flushWithRetry
  rw [if_neg hne]
  rfl

theorem rests_trigger (hphase : s.phase = .waiting) {s₁ : BatchState} (hphase₁ : s₁.phase = .waiting)
    (hcalls : s₁.calls = s.calls) (hne : s₁.buffer ≠ []) : Rests s (s₁.sizeTrigger cfg) := by
  unfold sizeTrigger
  split
  · exact rests_flush hphase hcalls hne false
  · exact .same ((flight_of_waiting hphase₁).trans (flight_of_waiting hphase).symm) hcalls

theorem rests_of_step (he : ∀ answer, e ≠ .flushed answer) (hstep : s.step cfg instantMax e = some s') :
    Rests s s' := by
  cases batchMove_of_step hstep with
  | accept | drop | close | tick => exact .same rfl rfl
  | first hphase => exact rests_trigger hphase hphase rfl (List.cons_ne_nil _ _)
  | more hphase =>
    exact rests_trigger hphase hphase rfl (List.append_ne_nil_of_right_ne_nil _ (List.cons_ne_nil _ _))
  | exit hphase => exact .same (flight_of_waiting hphase).symm rfl
  | lastFlush hphase hbuffer => exact rests_flush hphase rfl hbuffer true
  | due hphase hbuffer => exact rests_flush hphase rfl hbuffer false
  | panic hphase => exact .same (flight_of_waiting hphase).symm rfl
  | settle | retry => exact absurd rfl (he _)
  | @wake flush wakeAt last hphase =>
    refine @Rests.call _ _ flush.entries rfl rfl (Or.inr ⟨flush.failures.toNat, ?_, rfl⟩)
    rw [flight, hphase]

theorem settle_of_ne (he : ∀ answer, e ≠ .flushed answer) : books.settle cfg s e = books.settled := by
  cases e with
  | flushed answer => exact absurd rfl (he answer)
  | push | close | tick | recv | timer | wake => rfl

/-- What an answer does. -/
theorem answered_of_step (hmax : cfg.maxRetryCount.toNat < 2 ^ 32 - 1) (h : SinkInv cfg s books)
    {flush : Flushing} {last : Bool} (hphase : s.phase = .flushing flush last)
    {answer : Except FlushError Unit} (hstep : s.step cfg instantMax (.flushed answer) = some s') :
    (books.note cfg s (.flushed answer) s').attempts = books.attempts ∧
      ((s'.flight = .idle ∧
          (books.note cfg s (.flushed answer) s').settled = books.settled ++
            (fated .delivered (flush.reported answer) ++
              fated .dropped (remainingOf flush.entries answer)) ∧
          (remainingOf flush.entries answer = [] ∨
            flush.failures.toNat + 1 = cfg.maxRetryCount.toNat + 1)) ∨
        (s'.flight = .backingOff (remainingOf flush.entries answer) (flush.failures.toNat + 1) ∧
          (books.note cfg s (.flushed answer) s').settled =
            books.settled ++ fated .delivered (flush.reported answer) ∧
          remainingOf flush.entries answer ≠ [])) := by
  have hfew := h.failures flush (Or.inl ⟨last, hphase⟩)
  simp only [step, hphase] at hstep
  rcases answer_cases hmax hfew answer with
    ⟨hnone, hfates, hlast⟩ | ⟨next, hsome, hentries, hsucc, hfates, hleft, -⟩
  · rw [hnone] at hstep
    obtain rfl := Option.some.inj hstep
    have hnote : books.note cfg s (.flushed answer)
        { s with phase := if last then .exited else .waiting } = _ := note_answered hphase rfl
    rw [hnote, hfates]
    refine ⟨rfl, Or.inl ⟨?_, rfl, hlast⟩⟩
    cases last <;> rfl
  · rw [hsome] at hstep
    obtain rfl := Option.some.inj hstep
    have hnote : books.note cfg s (.flushed answer)
        { s with phase := .retrying next (s.now + cfg.retryDelay) last } = _ := note_answered hphase rfl
    rw [hnote, hfates]
    refine ⟨rfl, Or.inr ⟨?_, rfl, hleft⟩⟩
    show Courier.Flight.backingOff next.entries next.failures.toNat = _
    rw [hentries, hsucc]

end Step

end BatchState

namespace Ships

open BatchState

variable {ν β : Type} {flusher : BatchFlusher ν β} {cfg : BatchConfig} {instantMax : Nat}
  {s : BatchState} {books : Books} {wire : List β}

/-- What happens between two answers. -/
theorem steps {s' : BatchState} (h : Ships flusher cfg instantMax s books wire) (events : List BatchEvent)
    (he : ∀ answer, .flushed answer ∉ events) (hrun : run cfg instantMax events s = some s') :
    Ships flusher cfg instantMax s' (booksOf cfg instantMax events s books) wire := by
  induction events generalizing s books with
  | nil =>
    obtain rfl := Option.some.inj hrun
    exact h
  | cons e events ih =>
    obtain ⟨s₁, hstep, hrest⟩ := Option.bind_eq_some_iff.mp hrun
    rw [booksOf, hstep]
    refine ih (h.step ?_ hstep) (fun answer hmem => he answer (List.mem_cons_of_mem e hmem)) hrest
    rintro answer rfl
    exact he answer List.mem_cons_self

theorem reaches (hmax : cfg.maxRetryCount.toNat < 2 ^ 32 - 1)
    (h : Ships flusher cfg instantMax s books wire) :
    SinkInv cfg s books ∧ Relation.ReflTransGen (Courier.Step (cfg.maxRetryCount.toNat + 1) cfg.batchMax)
      Courier.start (s.courier books) := by
  have hnext : ∀ {s s' : BatchState} {books : Books} {e : BatchEvent},
      s.step cfg instantMax e = some s' → (SinkInv cfg s books ∧ Relation.ReflTransGen
        (Courier.Step (cfg.maxRetryCount.toNat + 1) cfg.batchMax) Courier.start (s.courier books)) →
      SinkInv cfg s' (books.note cfg s e s') ∧ Relation.ReflTransGen
        (Courier.Step (cfg.maxRetryCount.toNat + 1) cfg.batchMax) Courier.start
        (s'.courier (books.note cfg s e s')) := by
    rintro s s' books e hstep ⟨hinv, hreaches⟩
    obtain ⟨hinv', hfollows⟩ := refines_step hmax hinv hstep
    refine ⟨hinv', ?_⟩
    rcases hfollows with hsame | hone
    · rw [hsame]
      exact hreaches
    · exact hreaches.tail hone
  induction h with
  | start => exact ⟨sinkInv_start, .refl⟩
  | step _ _ hstep ih => exact hnext hstep ih
  | flush _ _ _ _ hstep ih => exact hnext hstep ih

/-- The courier's books are in order. -/
theorem inv (hmax : cfg.maxRetryCount.toNat < 2 ^ 32 - 1) (h : Ships flusher cfg instantMax s books wire) :
    Courier.Inv (cfg.maxRetryCount.toNat + 1) cfg.batchMax (s.courier books) :=
  Courier.inv_of_reaches (Nat.succ_pos _) (h.reaches hmax).2

/-- What is under way in a call. -/
theorem calling (hmax : cfg.maxRetryCount.toNat < 2 ^ 32 - 1) (h : Ships flusher cfg instantMax s books wire)
    {flush : Flushing} {last : Bool} (hphase : s.phase = .flushing flush last) :
    s.flight = .carrying flush.entries (flush.failures.toNat + 1) ∧ flush.entries ≠ [] ∧
      flush.failures.toNat + 1 ≤ cfg.maxRetryCount.toNat + 1 := by
  have hflight : s.flight = .carrying flush.entries (flush.failures.toNat + 1) := by
    rw [flight, hphase]
  have hinv := h.inv hmax
  have hcarrying : (s.courier books).flight = .carrying flush.entries (flush.failures.toNat + 1) := hflight
  refine ⟨hflight, ?_, ?_⟩
  · have hne := (hinv.nonempty (by rw [hcarrying]; exact fun h => by cases h)).1
    rw [hcarrying] at hne
    exact hne
  · have hfew := hinv.few.1
    rw [hcarrying] at hfew
    exact hfew

/-- A call is in the books as it begins. -/
theorem note_of_rests (cfg : BatchConfig) (books : Books) {s' : BatchState} {e : BatchEvent} (he : ∀ answer, e ≠ .flushed answer)
    (hrests : Rests s s') :
    (s'.flight = s.flight ∧ books.note cfg s e s' = books) ∨
      ∃ batch times, s'.flight = .carrying batch (times + 1) ∧
        ((s.flight = .idle ∧ times = 0) ∨ s.flight = .backingOff batch times) ∧
        books.note cfg s e s' =
          { books with attempts := books.attempts ++ [{ place := books.settled.length, items := batch }] } := by
  have hsettle : books.settle cfg s e = books.settled := settle_of_ne he
  cases hrests with
  | same hflight hcalls => exact Or.inl ⟨hflight, note_quiet hsettle hcalls⟩
  | @call batch hbatch hcalls htimes =>
    right
    have hnote := note_called hsettle hcalls
    rw [hbatch] at hnote
    rcases htimes with ⟨hidle, hcarrying⟩ | ⟨times, hbacking, hcarrying⟩
    · exact ⟨batch, 0, hcarrying, Or.inl ⟨hidle, rfl⟩, hnote⟩
    · exact ⟨batch, times, hcarrying, Or.inr hbacking, hnote⟩

/-- **Item by item**: what is on the wire is told by what is settled and what is under way. -/
theorem onWire {packets : Json → List β} (hsends : SendsItems flusher packets)
    (hmax : cfg.maxRetryCount.toNat < 2 ^ 32 - 1) (h : Ships flusher cfg instantMax s books wire) :
    OnWire packets (cfg.maxRetryCount.toNat + 1) books.settled s.flight wire := by
  induction h with
  | start => exact Courier.onWire_start
  | @step s s' books wire e h he hstep ih =>
    rcases note_of_rests cfg books he (rests_of_step he hstep) with
      ⟨hflight, hnote⟩ | ⟨batch, times, hcarrying, hbefore, hnote⟩
    · rw [hnote, hflight]
      exact ih
    · rw [hnote, hcarrying]
      rcases hbefore with ⟨hidle, rfl⟩ | hbacking
      · rw [hidle] at ih
        exact ih.depart batch
      · rw [hbacking] at ih
        exact ih.again
  | @flush s s' books wire sent flushing last answer h net hphase hflush hstep ih =>
    obtain ⟨hflight, hne, hfew⟩ := h.calling hmax hphase
    obtain ⟨-, hanswered⟩ := answered_of_step hmax (h.reaches hmax).1 hphase hstep
    rw [hflight] at ih
    cases answer with
    | ok =>
      rw [hsends.ok _ _ _ _ hflush]
      rcases hanswered with ⟨hidle, hsettled, -⟩ | ⟨-, -, hleft⟩
      · rw [hidle, hsettled]
        have hwhole := ih.whole (Nat.succ_pos _) hfew
        rwa [show fated Fate.dropped (remainingOf flushing.entries (.ok ())) = [] from rfl, List.append_nil]
      · exact absurd rfl hleft
    | error e =>
      obtain ⟨done, left, hentries, hleft, hfirst, htransmits⟩ := hsends.error _ _ _ _ _ hne hflush
      have hreported : flushing.reported (.error e) = done := by
        rw [Flushing.reported, hentries, hfirst, List.take_left]
      have hremaining : remainingOf flushing.entries (.error e) = left := by
        rw [remainingOf, hentries, hfirst, List.drop_left]
      rw [hreported, hremaining] at hanswered
      rw [hentries] at ih
      have hbroke := ih.brokeOff (Nat.succ_pos _) hfew hleft htransmits
      rcases hanswered with ⟨hidle, hsettled, -⟩ | ⟨hbacking, hsettled, -⟩
      · rw [hidle, hsettled, ← List.append_assoc]
        exact hbroke.drop hfew
      · rw [hbacking, hsettled]
        exact hbroke

/-- **In one piece**: each attempt that is over has its place, with what was sent of it. -/
theorem pieces {whole : Nat → List Json → β} {partOf : β → β → Prop} (hrefl : ∀ m, partOf m m)
    (hsends : SendsWhole flusher whole partOf) (hmax : cfg.maxRetryCount.toNat < 2 ^ 32 - 1)
    (h : Ships flusher cfg instantMax s books wire) :
    ∃ posts : List (Option β), wire = posts.reduceOption ∧
      Pieces whole partOf books.attempts books.settled s.flight posts := by
  induction h with
  | start => exact ⟨[], rfl, Courier.pieces_start⟩
  | @step s s' books wire e h he hstep ih =>
    obtain ⟨posts, hwire, hpieces⟩ := ih
    refine ⟨posts, hwire, ?_⟩
    rcases note_of_rests cfg books he (rests_of_step he hstep) with
      ⟨hflight, hnote⟩ | ⟨batch, times, hcarrying, hbefore, hnote⟩
    · rw [hnote, hflight]
      exact hpieces
    · rw [hnote, hcarrying]
      refine hpieces.carry ?_ batch (times + 1)
      intro batch' times' hcarrying'
      rcases hbefore with ⟨hidle, -⟩ | hbacking
      · rw [hidle] at hcarrying'
        cases hcarrying'
      · rw [hbacking] at hcarrying'
        cases hcarrying'
  | @flush s s' books wire sent flushing last answer h net hphase hflush hstep ih =>
    obtain ⟨posts, rfl, hpieces⟩ := ih
    obtain ⟨hflight, -, -⟩ := h.calling hmax hphase
    obtain ⟨hattempts, hanswered⟩ := answered_of_step hmax (h.reaches hmax).1 hphase hstep
    rw [hflight] at hpieces
    -- the calls are the attempts, and this one is not over
    have hnth : s.calls.length - 1 = posts.length := by
      rw [(h.reaches hmax).1.calls, List.length_map, (hpieces.carried _ _ rfl).1]
      exact Nat.add_sub_cancel _ _
    rw [hnth] at hflush
    rw [hattempts]
    cases answer with
    | ok =>
      refine ⟨posts ++ [some (whole posts.length flushing.entries)], ?_, ?_⟩
      · rw [hsends.ok _ _ _ _ hflush, List.reduceOption_append]
        rfl
      · rcases hanswered with ⟨hidle, hsettled, -⟩ | ⟨-, -, hleft⟩
        · rw [hidle, hsettled, show fated Fate.dropped (remainingOf flushing.entries (.ok ())) = [] from rfl,
            List.append_nil]
          exact hpieces.arrive hrefl
        · exact absurd rfl hleft
    | error e =>
      obtain ⟨hfirst, post, rfl, hpost⟩ := hsends.error _ _ _ _ _ hflush
      have hreported : flushing.reported (.error e) = [] := by
        rw [Flushing.reported, hfirst]
        rfl
      have hnone : ∀ {flight : Courier.Flight Json}, flight = .idle ∨
          (∃ batch times, flight = .backingOff batch times) → ∀ batch times, flight ≠ .carrying batch times := by
        rintro flight (rfl | ⟨batch, times, rfl⟩) batch' times' hcarrying <;> cases hcarrying
      refine ⟨posts ++ [post], by rw [List.reduceOption_append]; cases post <;> rfl, ?_⟩
      rw [hreported] at hanswered
      rcases hanswered with ⟨hidle, hsettled, -⟩ | ⟨hbacking, hsettled, -⟩
      · have hfail : Pieces whole partOf books.attempts books.settled .idle (posts ++ [post]) :=
          hpieces.fail hpost (hnone (Or.inl rfl))
        rw [hidle, hsettled]
        exact hfail.drop (hnone (Or.inl rfl)) _
      · rw [hbacking, hsettled, fated, List.map_nil, List.append_nil]
        exact hpieces.fail hpost (hnone (Or.inr ⟨_, _, rfl⟩))

end Ships

/-- What arrived over a run, attempt by attempt: `part` is what holds of a message and the entries of
    its attempt, `all` of one that got through. -/
structure Arrivals {β : Type} (cfg : BatchConfig) (s : BatchState) (books : Books) (posts : List (Option β))
    (part all : Nat → List Json → β → Prop) : Prop where
  length_le : posts.length ≤ books.attempts.length
  sent : ∀ k m, posts[k]? = some (some m) → ∃ a, books.attempts[k]? = some a ∧ part k a.items m
  /-- an attempt is of accepted entries in a row -/
  slices : ∀ a ∈ books.attempts, a.items = (s.accepted.drop a.place).take a.items.length
  /-- a delivered entry was part of an attempt that got through -/
  atLeastOnce : ∀ i entry, books.settled[i]? = some (.delivered, entry) →
    ∃ k a m, books.attempts[k]? = some a ∧ a.Covers i ∧ posts[k]? = some (some m) ∧ all k a.items m
  /-- and of no more attempts than there may be -/
  notMore : ∀ i fate entry, books.settled[i]? = some (fate, entry) →
    (books.attempts.countP fun a => a.Covers i) ≤ cfg.maxRetryCount.toNat + 1

theorem Ships.arrived {ν β : Type} {flusher : BatchFlusher ν β} {cfg : BatchConfig} {instantMax : Nat}
    {s : BatchState} {books : Books} {wire : List β} {whole : Nat → List Json → β} {partOf : β → β → Prop}
    (hrefl : ∀ m, partOf m m) (hsends : SendsWhole flusher whole partOf)
    (hmax : cfg.maxRetryCount.toNat < 2 ^ 32 - 1) (h : Ships flusher cfg instantMax s books wire)
    {part all : Nat → List Json → β → Prop}
    (hpart : ∀ k items m, items ≠ [] → (∀ entry ∈ items, entry ∈ s.accepted) →
      partOf m (whole k items) → part k items m)
    (hall : ∀ k items, items ≠ [] → (∀ entry ∈ items, entry ∈ s.accepted) →
      all k items (whole k items)) :
    ∃ posts, wire = posts.reduceOption ∧ Arrivals cfg s books posts part all := by
  have hinv := h.inv hmax
  have hslice : ∀ a ∈ books.attempts, a.items ≠ [] ∧
      a.items = (s.accepted.drop a.place).take a.items.length := by
    intro a ha
    obtain ⟨hne, -, -, hslice⟩ := hinv.attempted a ha
    exact ⟨hne, hslice⟩
  have hmem : ∀ a ∈ books.attempts, ∀ entry ∈ a.items, entry ∈ s.accepted := by
    intro a ha entry hentry
    rw [(hslice a ha).2] at hentry
    exact List.mem_of_mem_drop (List.mem_of_mem_take hentry)
  obtain ⟨posts, hwire, hpieces⟩ := h.pieces hrefl hsends hmax
  refine ⟨posts, hwire, hpieces.length_le, fun k m hk => ?_, fun a ha => (hslice a ha).2,
    fun i entry hi => ?_, fun i fate entry hi => (hinv.settled i fate entry hi).2.1⟩
  · obtain ⟨a, ha, hm⟩ := hpieces.sent k m hk
    have hattempt := List.mem_of_getElem? ha
    exact ⟨a, ha, hpart k a.items m (hslice a hattempt).1 (hmem a hattempt) hm⟩
  · obtain ⟨k, a, ha, hcovers, hk⟩ := hpieces.arrived i entry hi
    have hattempt := List.mem_of_getElem? ha
    exact ⟨k, a, _, ha, hcovers, hk, hall k a.items (hslice a hattempt).1 (hmem a hattempt)⟩

/-! ## `udp-logger`: a datagram an entry -/

/-- What becomes of a datagram. -/
inductive SendOutcome where
  | sent
  | failed (e : String)
  | timedOut

/-- What the network does in a flush. -/
structure UdpNet where
  bind : Except String Unit
  /-- what becomes of the datagrams, in order -/
  send : Nat → SendOutcome

structure UdpFlusher where
  host : String
  port : UInt16

section Udp

variable [JsonText]

/-- `serde_json::to_vec`. -/
def entryToDatagram (entry : Json) : Bytes := asBytes (JsonText.toText entry)

/-- The loop of `send_all`, from an entry on. -/
def sendFrom (addr : String) (send : Nat → SendOutcome) :
    Nat → List Json → List Bytes × Except (Nat × String) Unit
  | _, [] => ([], .ok ())
  | i, entry :: entries =>
    match send i with
    | .sent =>
      let (sent, result) := sendFrom addr send (i + 1) entries
      (entryToDatagram entry :: sent, result)
    | .failed e => ([], .error (i, "failed to send to UDP server " ++ addr ++ ": " ++ e))
    | .timedOut => ([], .error (i, "timed out sending to UDP server " ++ addr))

namespace UdpFlusher

variable (flusher : UdpFlusher)

/-- What is sent, and how many entries were or the first that was not. -/
def sendAll (net : UdpNet) (entries : List Json) : List Bytes × Except (Nat × String) Nat :=
  match net.bind with
  | .error e => ([], .error (0, "failed to bind UDP socket: " ++ e))
  | .ok () =>
    let (sent, result) :=
      sendFrom (flusher.host ++ ":" ++ showNat flusher.port.toNat) net.send 0 entries
    (sent, result.map fun _ => entries.length)

def flush (net : UdpNet) (entries : List Json) : List Bytes × Except FlushError Unit :=
  match flusher.sendAll net entries with
  | (sent, .ok _) => (sent, .ok ())
  | (sent, .error (i, message)) => (sent, .error { message := message, firstFail := some i })

def batchFlusher : BatchFlusher UdpNet Bytes where
  flush _ := flusher.flush

end UdpFlusher

/-- The entries before the one that fails are sent, and nothing else is. -/
theorem sendFrom_spec (addr : String) (send : Nat → SendOutcome) : ∀ (i : Nat) (entries : List Json),
    ∃ done left, entries = done ++ left ∧ (sendFrom addr send i entries).1 = done.map entryToDatagram ∧
      ((left = [] ∧ (sendFrom addr send i entries).2 = .ok ()) ∨
        (left ≠ [] ∧ ∃ message, (sendFrom addr send i entries).2 = .error (i + done.length, message))) := by
  intro i entries
  induction entries generalizing i with
  | nil => exact ⟨[], [], rfl, rfl, Or.inl ⟨rfl, rfl⟩⟩
  | cons entry entries ih =>
    rw [sendFrom]
    cases send i with
    | sent =>
      obtain ⟨done, left, rfl, hsent, hresult⟩ := ih (i + 1)
      refine ⟨entry :: done, left, rfl, congrArg (entryToDatagram entry :: ·) hsent, ?_⟩
      rw [List.length_cons, Nat.add_comm done.length 1, ← Nat.add_assoc]
      exact hresult
    | failed e => exact ⟨[], _, rfl, rfl, Or.inr ⟨List.cons_ne_nil _ _, _, rfl⟩⟩
    | timedOut => exact ⟨[], _, rfl, rfl, Or.inr ⟨List.cons_ne_nil _ _, _, rfl⟩⟩

/-- The flush stops at an entry, or not before the end. -/
theorem UdpFlusher.flush_spec (flusher : UdpFlusher) (net : UdpNet) (entries : List Json) :
    ∃ done left, entries = done ++ left ∧ (flusher.flush net entries).1 = done.map entryToDatagram ∧
      ((left = [] ∧ (flusher.flush net entries).2 = .ok ()) ∨
        ((left = [] → entries = []) ∧ ∃ message,
          (flusher.flush net entries).2 = .error { message := message, firstFail := some done.length })) := by
  unfold flush sendAll
  cases net.bind with
  | error e => exact ⟨[], entries, rfl, rfl, Or.inr ⟨id, _, rfl⟩⟩
  | ok =>
    obtain ⟨done, left, rfl, hsent, hresult⟩ :=
      sendFrom_spec (flusher.host ++ ":" ++ showNat flusher.port.toNat) net.send 0 entries
    refine ⟨done, left, rfl, ?_⟩
    rcases hresult with ⟨hleft, hok⟩ | ⟨hleft, message, herror⟩
    · simp only [hok]
      exact ⟨hsent, Or.inl ⟨hleft, rfl⟩⟩
    · simp only [herror, Nat.zero_add]
      exact ⟨hsent, Or.inr ⟨fun hnil => absurd hnil hleft, message, rfl⟩⟩

theorem udp_sendsItems (flusher : UdpFlusher) :
    SendsItems flusher.batchFlusher fun entry => [entryToDatagram entry] where
  ok nth net entries sent hflush := by
    obtain ⟨done, left, rfl, hsent, hanswer⟩ := flusher.flush_spec net entries
    rw [show flusher.flush net (done ++ left) = (sent, .ok ()) from hflush] at hsent hanswer
    rcases hanswer with ⟨rfl, -⟩ | ⟨-, message, herror⟩
    · rw [List.append_nil, ← List.map_eq_flatMap]
      exact hsent
    · cases herror
  error nth net entries sent e hne hflush := by
    obtain ⟨done, left, rfl, hsent, hanswer⟩ := flusher.flush_spec net entries
    rw [show flusher.flush net (done ++ left) = (sent, .error e) from hflush] at hsent hanswer
    rcases hanswer with ⟨-, hok⟩ | ⟨hleft, message, herror⟩
    · cases hok
    · obtain rfl := Except.error.inj herror
      refine ⟨done, left, rfl, fun hnil => hne (hleft hnil), rfl, [], ?_, ?_⟩
      · rw [List.append_nil, ← List.map_eq_flatMap]
        exact hsent
      · exact fun entry _ => ⟨List.nil_prefix, (List.cons_ne_nil _ _).symm⟩

end Udp

/-- The second datagram of a batch is refused at first. -/
def refusedOnce : Nat → UdpNet
  | 0 => { bind := .ok (), send := fun i => if i = 1 then .failed "refused" else .sent }
  | _ => { bind := .ok (), send := fun _ => .sent }

def udpExample : UdpFlusher where
  host := "127.0.0.1"
  port := 5140

/-- What the network does in a flush. -/
structure DatadogNet where
  bind : Except String Unit
  connect : Except String Unit
  /-- what becomes of the datagrams, in order -/
  send : Nat → Except String Unit

/-- One datagram a text, from the `n`-th of the flush on, up to the first that fails. -/
def sendTexts (send : Nat → Except String Unit) : Nat → List String → List Bytes × Except String Unit
  | _, [] => ([], .ok ())
  | n, text :: texts =>
    match send n with
    | .error e => ([], .error e)
    | .ok () =>
      let (sent, result) := sendTexts send (n + 1) texts
      (asBytes text :: sent, result)

namespace DatadogFlusher

variable (flusher : DatadogFlusher)

/-- `build_metric_lines`, as it is configured. -/
def lines (entry : Json) : List String :=
  Datadog.buildMetricLines entry flusher.metricNamespace flusher.constantTags flusher.includePath
    flusher.includeMethod

/-- The datagrams of an entry. -/
def packets (entry : Json) : List Bytes := (Datadog.datagrams (flusher.lines entry)).map asBytes

/-- All lines of an entry. -/
def payload (entry : Json) : Bytes := asBytes ("\n".intercalate (flusher.lines entry))

/-- The loop of `flush`, from the `i`-th entry and the `n`-th datagram on. -/
def flushFrom (send : Nat → Except String Unit) :
    Nat → Nat → List Json → List Bytes × Except FlushError Unit
  | _, _, [] => ([], .ok ())
  | i, n, entry :: entries =>
    let texts := Datadog.datagrams (flusher.lines entry)
    match sendTexts send n texts with
    | (sent, .error e) =>
      (sent, .error {
        message := "failed to send metrics to " ++ flusher.addr ++ ": " ++ e
        firstFail := some i })
    | (sent, .ok ()) =>
      let (more, result) := flushFrom send (i + 1) (n + texts.length) entries
      (sent ++ more, result)

def flush (net : DatadogNet) (entries : List Json) : List Bytes × Except FlushError Unit :=
  match net.bind with
  | .error e => ([], .error { message := "udp bind failed: " ++ e, firstFail := none })
  | .ok () =>
    match net.connect with
    | .error e =>
      ([], .error {
        message := "udp connect to " ++ flusher.addr ++ " failed: " ++ e
        firstFail := none })
    | .ok () => flusher.flushFrom net.send 0 0 entries

def batchFlusher : BatchFlusher DatadogNet Bytes where
  flush _ := flusher.flush

end DatadogFlusher

/-- All texts are sent, or the ones in front of the first that fails. -/
theorem sendTexts_spec (send : Nat → Except String Unit) : ∀ (n : Nat) (texts : List String),
    (sendTexts send n texts).2 = .ok () ∧ (sendTexts send n texts).1 = texts.map asBytes ∨
      (∃ e, (sendTexts send n texts).2 = .error e) ∧ (sendTexts send n texts).1 <+: texts.map asBytes ∧
        (sendTexts send n texts).1 ≠ texts.map asBytes := by
  intro n texts
  induction texts generalizing n with
  | nil => exact Or.inl ⟨rfl, rfl⟩
  | cons text texts ih =>
    rw [sendTexts]
    cases send n with
    | error e => exact Or.inr ⟨⟨e, rfl⟩, List.nil_prefix, (List.cons_ne_nil _ _).symm⟩
    | ok =>
      rcases ih (n + 1) with ⟨hok, hsent⟩ | ⟨herror, hpart, hne⟩
      · exact Or.inl ⟨hok, congrArg (asBytes text :: ·) hsent⟩
      · exact Or.inr ⟨herror, List.cons_prefix_cons.mpr ⟨rfl, hpart⟩,
          fun heq => hne (List.cons.inj heq).2⟩

namespace DatadogFlusher

variable (flusher : DatadogFlusher)

theorem flushFrom_spec (send : Nat → Except String Unit) : ∀ (i n : Nat) (entries : List Json),
    ((flusher.flushFrom send i n entries).2 = .ok () ∧
        (flusher.flushFrom send i n entries).1 = entries.flatMap flusher.packets) ∨
      ∃ done left message, entries = done ++ left ∧ left ≠ [] ∧
        (flusher.flushFrom send i n entries).2 =
          .error { message := message, firstFail := some (i + done.length) } ∧
        Transmits flusher.packets done left (flusher.flushFrom send i n entries).1 := by
  intro i n entries
  induction entries generalizing i n with
  | nil => exact Or.inl ⟨rfl, rfl⟩
  | cons entry entries ih =>
    rw [flushFrom]
    dsimp only
    rcases hsent : sendTexts send n (Datadog.datagrams (flusher.lines entry)) with ⟨sent, result⟩
    have hspec := sendTexts_spec send n (Datadog.datagrams (flusher.lines entry))
    rw [hsent] at hspec
    rcases hspec with ⟨hok, hwhole⟩ | ⟨⟨e, herror⟩, hpart, hne⟩
    · obtain rfl : result = .ok () := hok
      obtain rfl : sent = flusher.packets entry := hwhole
      rcases ih (i + 1) (n + (Datadog.datagrams (flusher.lines entry)).length) with
        ⟨hok', hrest⟩ | ⟨done, left, message, rfl, hleft, herror', part, hrest, hbroken⟩
      · refine Or.inl ⟨hok', ?_⟩
        rw [List.flatMap_cons]
        exact congrArg (flusher.packets entry ++ ·) hrest
      · refine Or.inr ⟨entry :: done, left, message, rfl, hleft, ?_, part, ?_, hbroken⟩
        · rw [List.length_cons, Nat.add_comm done.length 1, ← Nat.add_assoc]
          exact herror'
        · rw [List.flatMap_cons, List.append_assoc]
          exact congrArg (flusher.packets entry ++ ·) hrest
    · obtain rfl : result = .error e := herror
      refine Or.inr ⟨[], _, _, rfl, List.cons_ne_nil _ _, rfl, sent, rfl, fun entry' hentry => ?_⟩
      obtain rfl := Option.some.inj hentry
      exact ⟨hpart, hne⟩

theorem sendsItems : SendsItems flusher.batchFlusher flusher.packets where
  ok nth net entries sent hflush := by
    have hflush' : flusher.flush net entries = (sent, .ok ()) := hflush
    unfold flush at hflush'
    split at hflush'
    · cases hflush'
    · split at hflush'
      · cases hflush'
      · rcases flusher.flushFrom_spec net.send 0 0 entries with ⟨-, hsent⟩ | ⟨done, left, message, -, -, herror, -⟩
        · rw [hflush'] at hsent
          exact hsent
        · rw [hflush'] at herror
          cases herror
  error nth net entries sent e hne hflush := by
    have hflush' : flusher.flush net entries = (sent, .error e) := hflush
    have hnothing : ∀ {message : String}, ([], .error { message := message, firstFail := none }) =
        (sent, Except.error (α := Unit) e) → ∃ done left, entries = done ++ left ∧ left ≠ [] ∧
          e.firstFail.getD 0 = done.length ∧ Transmits flusher.packets done left sent := by
      intro message hfail
      obtain ⟨rfl, herror⟩ := Prod.mk.inj hfail
      obtain rfl := Except.error.inj herror
      refine ⟨[], entries, rfl, hne, rfl, [], rfl, fun entry _ => ⟨List.nil_prefix, fun hnil => ?_⟩⟩
      -- an entry has a line at least
      revert hnil
      unfold packets Datadog.datagrams lines Datadog.buildMetricLines
      dsimp only
      split <;> simp
    unfold flush at hflush'
    split at hflush'
    · exact hnothing hflush'
    · split at hflush'
      · exact hnothing hflush'
      · rcases flusher.flushFrom_spec net.send 0 0 entries with ⟨hok, -⟩ |
          ⟨done, left, message, hentries, hleft, herror, htransmits⟩
        · rw [hflush'] at hok
          cases hok
        · rw [hflush'] at herror htransmits
          obtain rfl := Except.error.inj herror
          exact ⟨done, left, hentries, hleft, Nat.zero_add _, htransmits⟩

/-- The lines of an entry fit into one datagram. -/
def Fits (entry : Json) : Prop := (flusher.payload entry).length ≤ Datadog.maxDatagramSize

variable {flusher}

theorem Fits.packets_eq {entry : Json} (h : flusher.Fits entry) :
    flusher.packets entry = [flusher.payload entry] := by
  have hfits : (asBytes ("\n".intercalate (flusher.lines entry))).length ≤ Datadog.maxDatagramSize := h
  unfold packets Datadog.datagrams
  dsimp only
  rw [if_pos hfits]
  rfl

/-- Only a single line can be larger than a datagram may be. -/
theorem mem_packets {entry : Json} {datagram : Bytes} (h : datagram ∈ flusher.packets entry) :
    datagram.length ≤ Datadog.maxDatagramSize ∨ ∃ line ∈ flusher.lines entry, datagram = asBytes line := by
  unfold packets Datadog.datagrams at h
  dsimp only at h
  split at h
  · rename_i hfits
    obtain rfl := List.mem_singleton.mp h
    exact Or.inl hfits
  · obtain ⟨line, hline, rfl⟩ := List.mem_map.mp h
    exact Or.inr ⟨line, hline, rfl⟩

end DatadogFlusher

def datadogAgent : DatadogFlusher where
  addr := "127.0.0.1:8125"
  metricNamespace := "featherbit"
  constantTags := []
  includePath := false
  includeMethod := false

/-- The agent's address does not resolve at first. -/
def unresolvedOnce : Nat → DatadogNet
  | 0 => { bind := .ok (), connect := .error "unresolved", send := fun _ => .ok () }
  | _ => { bind := .ok (), connect := .ok (), send := fun _ => .ok () }

/-- JSON text that is one line, and is read back. -/
class JsonLineCodec extends JsonCodec, JsonLine

section Readers

variable [JsonCodec]

/-- An entry, read back. -/
def readBack (entry : Json) : Option Json := some (entry.mapFloats JsonCodec.reread)

/-- A value a line. -/
def readLines (text : String) : List (Option Json) :=
  (splitChar '\n' text).map fun line => JsonCodec.parse (asBytes line)

/-- One array. -/
def readArray (text : String) : List (Option Json) :=
  match JsonCodec.parse (asBytes text) with
  | some (.array items) => items.map some
  | _ => []

/-- The action in front of a document. -/
def indexAction (index : String) : Json := .object [("index", .object [("_index", .string index)])]

/-- Documents, each behind the action that puts it into the index. -/
def readActions (index : String) : List String → List (Option Json)
  | action :: document :: lines =>
    (if JsonCodec.parse (asBytes action) = some (indexAction index) then JsonCodec.parse (asBytes document)
      else none) :: readActions index lines
  | _ => []

/-- The whole lines of a bulk request. -/
def readBulk (index : String) (text : String) : List (Option Json) :=
  readActions index ((Split.endedParts '\n' text.toList).map String.ofList)

/-- Rows behind a statement. -/
def readRows (statement : String) (text : String) : List (Option Json) :=
  match stripPrefix statement text with
  | some rows => readLines rows
  | none => []

/-- The whole lines of a connection, which may be cut off anywhere. -/
def readStream (stream : Bytes) : List (Option Json) :=
  (Split.endedParts 10 stream).map JsonCodec.parse

end Readers

/-- What holds of an entry that can be read back, also inside an array. -/
def Readable (entry : Json) : Prop := entry.Canonical ∧ entry.depth < 127

section ReadBack

variable [JsonLineCodec] {entries : List Json}

theorem parse_toText_readable {entry : Json} (h : Readable entry) :
    JsonCodec.parse (asBytes (JsonText.toText entry)) = readBack entry :=
  JsonCodec.parse_toText entry h.1 (Nat.lt_succ_of_lt h.2)

/-- An array of entries is a value that is read back. -/
theorem readable_items (h : ∀ entry ∈ entries, Readable entry) :
    Json.CanonicalItems entries ∧ Json.depthItems entries ≤ 126 ∧
      Json.mapFloatsItems JsonCodec.reread entries = entries.map (Json.mapFloats JsonCodec.reread) := by
  induction entries with
  | nil => exact ⟨trivial, Nat.zero_le _, rfl⟩
  | cons entry entries ih =>
    obtain ⟨hcanonical, hdepth, hmap⟩ := ih fun e he => h e (List.mem_cons_of_mem entry he)
    obtain ⟨hentry, hlow⟩ := h entry List.mem_cons_self
    refine ⟨⟨hentry, hcanonical⟩, ?_, ?_⟩
    · rw [Json.depthItems]
      omega
    · rw [Json.mapFloatsItems, hmap, List.map_cons]

theorem readArray_toText (h : ∀ entry ∈ entries, Readable entry) :
    readArray (JsonText.toText (.array entries)) = entries.map readBack := by
  obtain ⟨hcanonical, hdepth, hmap⟩ := readable_items h
  have hparse := JsonCodec.parse_toText (.array entries) hcanonical (by
    rw [Json.depth]
    omega)
  unfold readArray
  rw [hparse, Json.mapFloats]
  dsimp only
  rw [hmap, List.map_map]
  rfl

theorem readLines_intercalate (hne : entries ≠ []) (h : ∀ entry ∈ entries, Readable entry) :
    readLines ("\n".intercalate (entries.map JsonText.toText)) = entries.map readBack := by
  have hlines : ∀ line ∈ entries.map JsonText.toText, '\n' ∉ line.toList := by
    intro line hline
    obtain ⟨entry, -, rfl⟩ := List.mem_map.mp hline
    exact JsonLine.lineFeed_not_mem entry
  have hsplit := splitChar_intercalate (fun hnil => hne (List.map_eq_nil_iff.mp hnil)) hlines
  have hsep : String.singleton '\n' = "\n" := rfl
  rw [hsep] at hsplit
  unfold readLines
  rw [hsplit, List.map_map]
  exact List.map_congr_left fun entry hentry => parse_toText_readable (h entry hentry)

theorem readRows_append (statement : String) (hne : entries ≠ []) (h : ∀ entry ∈ entries, Readable entry) :
    readRows statement (statement ++ "\n".intercalate (entries.map JsonText.toText)) =
      entries.map readBack := by
  unfold readRows
  rw [stripPrefix_append]
  exact readLines_intercalate hne h

theorem parse_indexAction (index : String) :
    JsonCodec.parse (asBytes (JsonText.toText (indexAction index))) = some (indexAction index) := by
  refine (JsonCodec.parse_toText (indexAction index) ?_ ?_).trans rfl
  · simp [indexAction, Json.Canonical, Json.CanonicalFields]
  · simp [indexAction, Json.depth, Json.depthFields]

/-- The lines of a bulk request. -/
theorem readBulk_join (index : String) (h : ∀ entry ∈ entries, Readable entry) :
    readBulk index (String.join (entries.map fun entry =>
      JsonText.toText (indexAction index) ++ "\n" ++ JsonText.toText entry ++ "\n")) =
      entries.map readBack := by
  have hlines : (String.join (entries.map fun entry =>
      JsonText.toText (indexAction index) ++ "\n" ++ JsonText.toText entry ++ "\n")).toList =
      ((entries.flatMap fun entry => [JsonText.toText (indexAction index), JsonText.toText entry]).map
        String.toList).flatMap (· ++ ['\n']) := by
    rw [String.toList_join]
    clear h
    induction entries with
    | nil => rfl
    | cons entry entries ih =>
      rw [List.map_cons, List.flatMap_cons, ih]
      simp
  have hparts : ∀ part ∈ (entries.flatMap fun entry =>
      [JsonText.toText (indexAction index), JsonText.toText entry]).map String.toList, '\n' ∉ part := by
    intro part hpart
    obtain ⟨line, hline, rfl⟩ := List.mem_map.mp hpart
    obtain ⟨entry, -, hline⟩ := List.mem_flatMap.mp hline
    rcases List.mem_cons.mp hline with rfl | hline
    · exact JsonLine.lineFeed_not_mem _
    · obtain rfl := List.mem_singleton.mp hline
      exact JsonLine.lineFeed_not_mem _
  unfold readBulk
  rw [hlines, Split.endedParts_flatMap hparts, List.map_map]
  have hid : String.ofList ∘ String.toList = id := funext fun _ => String.ofList_toList
  rw [hid, List.map_id]
  clear hlines hparts
  induction entries with
  | nil => rfl
  | cons entry entries ih =>
    rw [List.flatMap_cons, List.cons_append, List.cons_append, List.nil_append, readActions,
      if_pos (parse_indexAction index), parse_toText_readable (h entry List.mem_cons_self),
      ih fun e he => h e (List.mem_cons_of_mem entry he), List.map_cons]

end ReadBack

/-! ## The loggers over HTTP: a request a batch -/

/-- What the network does in a flush. -/
structure HttpNet where
  reply : Except OutboundError OutboundResponse
  /-- a request without a response may have arrived all the same -/
  arrived : Bool

/-- How a logger posts a batch, and what it makes of the reply. -/
structure HttpFlusher where
  request : Nat → List Json → OutboundRequest
  accepts : UInt16 → Bool
  rejected : OutboundResponse → String
  failed : OutboundError → String

def HttpFlusher.batchFlusher (flusher : HttpFlusher) : BatchFlusher HttpNet OutboundRequest where
  flush nth net entries :=
    let req := flusher.request nth entries
    match net.reply with
    | .ok resp =>
      ([req], if flusher.accepts resp.status then .ok ()
        else .error { message := flusher.rejected resp, firstFail := none })
    | .error e =>
      (if net.arrived then [req] else [], .error { message := flusher.failed e, firstFail := none })

theorem HttpFlusher.sendsWhole (flusher : HttpFlusher) :
    SendsWhole flusher.batchFlusher flusher.request Eq where
  ok nth net entries sent hflush := by
    simp only [batchFlusher] at hflush
    split at hflush
    · exact (Prod.mk.inj hflush).1.symm
    · cases (Prod.mk.inj hflush).2
  error nth net entries sent e hflush := by
    simp only [batchFlusher] at hflush
    split at hflush
    · obtain ⟨rfl, herror⟩ := Prod.mk.inj hflush
      split at herror
      · cases herror
      · obtain rfl := Except.error.inj herror
        exact ⟨rfl, some _, rfl, fun m hm => (Option.some.inj hm).symm⟩
    · obtain ⟨rfl, herror⟩ := Prod.mk.inj hflush
      obtain rfl := Except.error.inj herror
      refine ⟨rfl, if net.arrived then some (flusher.request nth entries) else none, ?_, fun m hm => ?_⟩
      · split <;> rfl
      · split at hm
        · exact (Option.some.inj hm).symm
        · cases hm

/-- The addresses of an endpoint's replicas. -/
structure Endpoints where
  urls : List String
  nonempty : urls ≠ []

namespace Endpoints

/-- `cursor.fetch_add(1) % endpoints.len()`, in the flush after `nth` others. -/
def pick (endpoints : Endpoints) (nth : Nat) : String :=
  endpoints.urls.get ⟨nth % 2 ^ 64 % endpoints.urls.length,
    Nat.mod_lt _ (List.length_pos_iff.mpr endpoints.nonempty)⟩

/-- `collect_endpoints`: a single address, and a list of them. -/
def collect (node : String) (trim : String → String) (config : HashMap Json) : Except String Endpoints :=
  let urls := ((configStr config "endpoint_addr").toList ++
    (((config["endpoint_addrs"]?).bind Json.asArray).getD []).filterMap Json.asStr).map trim
  if h : urls = [] then .error (node ++ " requires 'endpoint_addr' or 'endpoint_addrs'")
  else .ok { urls := urls, nonempty := h }

end Endpoints

/-! ### `http-logger` -/

inductive ConcatMethod where
  | json
  | newLine
deriving DecidableEq

structure HttpLoggerFlusher where
  uri : String
  method : String
  headers : List (String × String)
  concat : ConcatMethod
  sslVerify : Bool
  timeout : Nat

section Members

variable [JsonText]

/-- The body, and its type. -/
def buildHttpBody (entries : List Json) : ConcatMethod → String × String
  | .json => (JsonText.toText (.array entries), "application/json")
  | .newLine => ("\n".intercalate (entries.map JsonText.toText), "text/plain")

def HttpLoggerFlusher.http [DurationText] (flusher : HttpLoggerFlusher) : HttpFlusher where
  request _ entries :=
    let (body, contentType) := buildHttpBody entries flusher.concat
    { method := flusher.method
      url := flusher.uri
      headers := flusher.headers ++ [("Content-Type", contentType)]
      body := asBytes body
      timeout := flusher.timeout
      sslVerify := flusher.sslVerify }
  accepts status := status < 400
  rejected resp := "http-logger endpoint returned status " ++ showNat resp.status.toNat
  failed e := e.text

/-! ### `loggly` -/

structure LogglyFlusher where
  url : String
  tagsHeader : String
  sslVerify : Bool
  timeout : Nat

namespace LogglyFlusher

def buildBulkBody (entries : List Json) : String := "\n".intercalate (entries.map JsonText.toText)

def http [DurationText] (flusher : LogglyFlusher) : HttpFlusher where
  request _ entries := {
    method := "POST"
    url := flusher.url
    headers := [("Content-Type", "application/json"), ("X-LOGGLY-TAG", flusher.tagsHeader)]
    body := asBytes (buildBulkBody entries)
    timeout := flusher.timeout
    sslVerify := flusher.sslVerify }
  accepts status := status == 200
  rejected resp := "loggly returned status " ++ showNat resp.status.toNat
  failed e := e.text

end LogglyFlusher

/-! ### `elasticsearch-logger` -/

structure EsFlusher where
  endpoints : Endpoints
  index : String
  authorization : Option String
  sslVerify : Bool
  timeout : Nat

namespace EsFlusher

/-- The action and the entry, for each. -/
def buildBulkBody (index : String) (entries : List Json) : String :=
  String.join (entries.map fun entry =>
    JsonText.toText (indexAction index) ++ "\n" ++ JsonText.toText entry ++ "\n")

def http [DurationText] (flusher : EsFlusher) : HttpFlusher where
  request nth entries := {
    method := "POST"
    url := flusher.endpoints.pick nth ++ "/_bulk"
    headers := [("Content-Type", "application/x-ndjson"), ("Accept", "application/vnd.elasticsearch+json")] ++
      (flusher.authorization.map fun auth => ("Authorization", auth)).toList
    body := asBytes (buildBulkBody flusher.index entries)
    timeout := flusher.timeout
    sslVerify := flusher.sslVerify }
  accepts status := status == 200
  rejected resp := "elasticsearch returned status " ++ showNat resp.status.toNat ++ ": " ++
    fromUtf8Lossy resp.body
  failed e := "elasticsearch callout failed: " ++ e.text

/-- Without the slashes at the end. -/
def collectEndpoints : HashMap Json → Except String Endpoints :=
  Endpoints.collect "elasticsearch-logger" (trimEndMatches '/')

end EsFlusher

/-! ### `clickhouse-logger` -/

structure ClickhouseFlusher where
  endpoints : Endpoints
  database : String
  logtable : String
  user : String
  password : String
  sslVerify : Bool
  timeout : Nat

namespace ClickhouseFlusher

/-- What stands in front of the rows. -/
def insertStatement (logtable : String) : String := "INSERT INTO " ++ logtable ++ " FORMAT JSONEachRow "

def buildInsertBody (logtable : String) (entries : List Json) : String :=
  insertStatement logtable ++ "\n".intercalate (entries.map JsonText.toText)

def http [DurationText] (flusher : ClickhouseFlusher) : HttpFlusher where
  request nth entries := {
    method := "POST"
    url := flusher.endpoints.pick nth
    headers := [("Content-Type", "application/json"), ("X-ClickHouse-User", flusher.user),
      ("X-ClickHouse-Key", flusher.password), ("X-ClickHouse-Database", flusher.database)]
    body := asBytes (buildInsertBody flusher.logtable entries)
    timeout := flusher.timeout
    sslVerify := flusher.sslVerify }
  accepts status := status < 400
  rejected resp := "clickhouse returned status " ++ showNat resp.status.toNat ++ ": " ++
    fromUtf8Lossy resp.body
  failed e := "clickhouse callout failed: " ++ e.text

def collectEndpoints : HashMap Json → Except String Endpoints :=
  Endpoints.collect "clickhouse-logger" id

end ClickhouseFlusher

end Members

/-- The loggers that post their batches. -/
inductive HttpLogger where
  | http (flusher : HttpLoggerFlusher)
  | loggly (flusher : LogglyFlusher)
  | elasticsearch (flusher : EsFlusher)
  | clickhouse (flusher : ClickhouseFlusher)

namespace HttpLogger

def flusher [JsonText] [DurationText] : HttpLogger → HttpFlusher
  | http flusher => flusher.http
  | loggly flusher => flusher.http
  | elasticsearch flusher => flusher.http
  | clickhouse flusher => flusher.http

/-- How the endpoint reads a body. -/
def read [JsonCodec] (text : String) : HttpLogger → List (Option Json)
  | http flusher =>
    match flusher.concat with
    | .json => readArray text
    | .newLine => readLines text
  | loggly _ => readLines text
  | elasticsearch flusher => readBulk flusher.index text
  | clickhouse flusher => readRows (ClickhouseFlusher.insertStatement flusher.logtable) text

/-- **A body reads as its entries.** -/
theorem read_body [JsonLineCodec] [DurationText] (logger : HttpLogger) (nth : Nat) {entries : List Json}
    (hne : entries ≠ []) (h : ∀ entry ∈ entries, Readable entry) :
    ∃ text, (logger.flusher.request nth entries).body = asBytes text ∧
      logger.read text = entries.map readBack := by
  cases logger with
  | http flusher =>
    refine ⟨(buildHttpBody entries flusher.concat).1, rfl, ?_⟩
    rw [read]
    cases flusher.concat with
    | json => exact readArray_toText h
    | newLine => exact readLines_intercalate hne h
  | loggly flusher => exact ⟨_, rfl, readLines_intercalate hne h⟩
  | elasticsearch flusher => exact ⟨_, rfl, readBulk_join flusher.index h⟩
  | clickhouse flusher => exact ⟨_, rfl, readRows_append _ hne h⟩

end HttpLogger

/-- Compact JSON, computed. -/
abbrev compactLineCodec : JsonLineCodec where
  toJsonCodec := compactJson
  lineFeed_not_mem := compactLine.lineFeed_not_mem

def esExample : EsFlusher where
  endpoints := { urls := ["http://es1:9200", "http://es2:9200"], nonempty := List.cons_ne_nil _ _ }
  index := "logs"
  authorization := none
  sslVerify := true
  timeout := durationFromSecs 10

/-- The first request arrives, and its response does not come back. -/
def unansweredOnce : Nat → HttpNet
  | 0 => { reply := .error (.timeout (durationFromSecs 10)), arrived := true }
  | _ => { reply := .ok { status := 200, headers := ∅, body := [] }, arrived := true }

/-- What the network does in a flush; of a write that fails some bytes are written. -/
inductive TcpNet where
  | connectTimedOut
  | connectFailed (e : String)
  | writeTimedOut (written : Nat)
  | writeFailed (written : Nat) (e : String)
  | written

/-- The flusher of both. -/
structure TcpFlusher where
  host : String
  port : UInt16

section Tcp

variable [JsonText]

/-- Each entry as one line of JSON. -/
def entriesToLines (entries : List Json) : String :=
  String.join (entries.map fun entry => JsonText.toText entry ++ "\n")

namespace TcpFlusher

variable (flusher : TcpFlusher)

/-- What is written to a connection. -/
def send (payload : Bytes) (net : TcpNet) : List Bytes × Except String Unit :=
  let addr := flusher.host ++ ":" ++ showNat flusher.port.toNat
  match net with
  | .connectTimedOut => ([], .error ("timed out connecting to TCP server " ++ addr))
  | .connectFailed e => ([], .error ("failed to connect to TCP server " ++ addr ++ ": " ++ e))
  | .writeTimedOut n => ([payload.take n], .error ("timed out sending to TCP server " ++ addr))
  | .writeFailed n e => ([payload.take n], .error ("failed to send to TCP server " ++ addr ++ ": " ++ e))
  | .written => ([payload], .ok ())

def batchFlusher : BatchFlusher TcpNet Bytes where
  flush _ net entries :=
    let (sent, result) := flusher.send (asBytes (entriesToLines entries)) net
    (sent, result.mapError fun message => { message := message, firstFail := none })

/-- A connection may be cut off anywhere. -/
theorem sendsWhole :
    SendsWhole flusher.batchFlusher (fun _ entries => asBytes (entriesToLines entries)) (· <+: ·) where
  ok nth net entries sent hflush := by
    cases net with
    | written => exact (Prod.mk.inj hflush).1.symm
    | connectTimedOut | connectFailed | writeTimedOut | writeFailed => cases (Prod.mk.inj hflush).2
  error nth net entries sent e hflush := by
    obtain ⟨hsent, herror⟩ := Prod.mk.inj hflush
    cases net with
    | written => cases herror
    | connectTimedOut | connectFailed =>
      obtain rfl := Except.error.inj herror
      exact ⟨rfl, none, hsent.symm, fun m hm => by cases hm⟩
    | writeTimedOut n | writeFailed n =>
      obtain rfl := Except.error.inj herror
      refine ⟨rfl, some _, hsent.symm, fun m hm => ?_⟩
      obtain rfl := Option.some.inj hm
      exact List.take_prefix n _

end TcpFlusher

end Tcp

section Streams

variable [JsonLineCodec] {entries : List Json}

/-- The lines, as bytes. -/
theorem asBytes_entriesToLines (entries : List Json) :
    asBytes (entriesToLines entries) =
      (entries.map fun entry => asBytes (JsonText.toText entry)).flatMap (· ++ [10]) := by
  have hline : asBytes "\n" = [10] := rfl
  unfold entriesToLines
  induction entries with
  | nil => rfl
  | cons entry entries ih =>
    rw [List.map_cons, String.join_cons, asBytes_append, asBytes_append, ih, hline, List.map_cons,
      List.flatMap_cons]

theorem lineFeed_not_mem_lines (entries : List Json) :
    ∀ line ∈ entries.map fun entry => asBytes (JsonText.toText entry), (10 : UInt8) ∉ line := by
  intro line hline hmem
  obtain ⟨entry, -, rfl⟩ := List.mem_map.mp hline
  exact JsonLine.lineFeed_not_mem entry ((mem_asBytes_iff (c := '\n') (by decide) _).mp hmem)

/-- What is read of a stream that is cut off. -/
theorem readStream_prefix {stream : Bytes} (h : ∀ entry ∈ entries, Readable entry)
    (hstream : stream <+: asBytes (entriesToLines entries)) :
    readStream stream <+: entries.map readBack := by
  rw [asBytes_entriesToLines] at hstream
  have hparts := Split.endedParts_prefix (lineFeed_not_mem_lines entries) hstream
  have hmap : (entries.map fun entry => asBytes (JsonText.toText entry)).map JsonCodec.parse =
      entries.map readBack := by
    rw [List.map_map]
    exact List.map_congr_left fun entry hentry => parse_toText_readable (h entry hentry)
  rw [← hmap]
  exact hparts.map _

theorem readStream_whole (h : ∀ entry ∈ entries, Readable entry) :
    readStream (asBytes (entriesToLines entries)) = entries.map readBack := by
  unfold readStream
  rw [asBytes_entriesToLines, Split.endedParts_flatMap (lineFeed_not_mem_lines entries), List.map_map]
  exact List.map_congr_left fun entry hentry => parse_toText_readable (h entry hentry)

end Streams

def tcpExample : TcpFlusher where
  host := "127.0.0.1"
  port := 5044

/-- The first connection breaks off in the second line. -/
def brokenOnce : Nat → TcpNet
  | 0 => .writeFailed 8 "broken pipe"
  | _ => .written

end Featherbit
