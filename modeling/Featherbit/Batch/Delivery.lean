/-
  EVERY ACCEPTED ENTRY IS DELIVERED, ONCE AND IN ORDER, by a sink whose flusher never fails.

  What the flusher was given, what is in the buffer and what is in the channel are, one after the
  other, what the channel accepted (`BatchInv.conserved`); a step moves entries from one to the
  next.  Once the channel is closed, each step of the loop shortens what is left
  (`left_lt_of_loop`), and there always is one (`exists_loop_step`), so the loop comes to its end.
-/
import Mathlib
import Featherbit.Batch.Sink

namespace Featherbit

namespace BatchState

/-- What holds of a sink at every moment, if its flusher never fails. -/
structure BatchInv (cfg : BatchConfig) (s : BatchState) : Prop where
  conserved : s.calls.flatten ++ s.buffer ++ s.queue = s.accepted
  batches : ∀ b ∈ s.calls, b ≠ [] ∧ b.length ≤ cfg.batchMax
  buffered : s.buffer.length < cfg.batchMax
  emptied : ∀ flush last, s.phase = .flushing flush last → s.buffer = []
  retries : ∀ flush wakeAt last, s.phase ≠ .retrying flush wakeAt last
  ended : (s.phase = .exited ∨ ∃ flush, s.phase = .flushing flush true) →
    s.closed = true ∧ s.queue = [] ∧ s.buffer = []
  times : s.firstEntryAt ≤ s.now ∧ s.lastEntryAt ≤ s.now

section Step

variable {cfg : BatchConfig} {instantMax : Nat} {s s' : BatchState} {e : BatchEvent}

theorem batchMax_pos (cfg : BatchConfig) : 0 < cfg.batchMax :=
  lt_of_lt_of_le Nat.one_pos (le_max_right _ _)

theorem batchInv_start : BatchInv cfg start where
  conserved := rfl
  batches := by
    intro b hb
    cases hb
  buffered := batchMax_pos cfg
  emptied := by
    intro flush last h
    cases h
  retries := by
    intro flush wakeAt last h
    cases h
  ended := by
    rintro (h | ⟨flush, h⟩) <;> cases h
  times := ⟨Nat.le_refl 0, Nat.le_refl 0⟩

/-- The loop has something in its buffer, at most a full batch. -/
structure Collected (cfg : BatchConfig) (s : BatchState) : Prop where
  conserved : s.calls.flatten ++ s.buffer ++ s.queue = s.accepted
  batches : ∀ b ∈ s.calls, b ≠ [] ∧ b.length ≤ cfg.batchMax
  nonempty : s.buffer ≠ []
  buffered : s.buffer.length ≤ cfg.batchMax
  waiting : s.phase = .waiting
  times : s.firstEntryAt ≤ s.now ∧ s.lastEntryAt ≤ s.now

/-- What is in the buffer becomes a batch. -/
theorem Collected.flush (h : Collected cfg s) (last : Bool)
    (hlast : last = true → s.closed = true ∧ s.queue = []) :
    BatchInv cfg (s.flushWithRetry last) := by
  unfold flushWithRetry
  rw [if_neg h.nonempty]
  refine ⟨?_, ?_, batchMax_pos cfg, fun _ _ _ => rfl, ?_, ?_, h.times⟩
  · show (s.calls ++ [s.buffer]).flatten ++ [] ++ s.queue = s.accepted
    rw [← h.conserved]
    simp
  · intro b hb
    rcases List.mem_append.mp hb with hb | hb
    · exact h.batches b hb
    · obtain rfl := List.mem_singleton.mp hb
      exact ⟨h.nonempty, h.buffered⟩
  · intro flush wakeAt last' hphase
    cases hphase
  · rintro (hphase | ⟨flush, hphase⟩)
    · cases hphase
    · obtain ⟨-, rfl⟩ := BatchPhase.flushing.inj hphase
      obtain ⟨hclosed, hqueue⟩ := hlast rfl
      exact ⟨hclosed, hqueue, rfl⟩

/-- A full buffer is flushed, another one waits. -/
theorem Collected.trigger (h : Collected cfg s) : BatchInv cfg (s.sizeTrigger cfg) := by
  unfold sizeTrigger
  split
  · exact h.flush false (fun h => Bool.noConfusion h)
  · rename_i hsmall
    refine ⟨h.conserved, h.batches, Nat.not_le.mp hsmall, ?_, ?_, ?_, h.times⟩
    · intro flush last hphase
      rw [h.waiting] at hphase
      cases hphase
    · intro flush wakeAt last hphase
      rw [h.waiting] at hphase
      cases hphase
    · rintro (hphase | ⟨flush, hphase⟩) <;> rw [h.waiting] at hphase <;> cases hphase

/-- What the loop waits with, when there is something in the buffer. -/
theorem BatchInv.collected (h : BatchInv cfg s) (hphase : s.phase = .waiting)
    (hne : s.buffer ≠ []) : Collected cfg s :=
  ⟨h.conserved, h.batches, hne, Nat.le_of_lt h.buffered, hphase, h.times⟩

/-- Only the phase changes, to one that asks nothing of the rest. -/
theorem BatchInv.withPhase (h : BatchInv cfg s) (phase : BatchPhase)
    (hflushing : ∀ flush last, phase ≠ .flushing flush last)
    (hretries : ∀ flush wakeAt last, phase ≠ .retrying flush wakeAt last)
    (hended : phase = .exited → s.closed = true ∧ s.queue = [] ∧ s.buffer = []) :
    BatchInv cfg { s with phase := phase } where
  conserved := h.conserved
  batches := h.batches
  buffered := h.buffered
  emptied flush last hphase := absurd hphase (hflushing flush last)
  retries := hretries
  ended := by
    rintro (hphase | ⟨flush, hphase⟩)
    · exact hended hphase
    · exact absurd hphase (hflushing flush true)
  times := h.times

/-- **One step keeps every entry**, if it is not a failed flush. -/
theorem batchInv_step (h : BatchInv cfg s) (hstep : s.step cfg instantMax e = some s')
    (hok : ∀ result, e = .flushed result → result = .ok ()) : BatchInv cfg s' := by
  have hconserved := h.conserved
  cases batchMove_of_step hstep with
  | @accept entry hopen =>
    -- at the end of the queue, and of the list of what was accepted
    refine ⟨?_, h.batches, h.buffered, h.emptied, h.retries, fun hended => absurd (h.ended hended).1 hopen,
      h.times⟩
    show s.calls.flatten ++ s.buffer ++ (s.queue ++ [entry]) = s.accepted ++ [entry]
    rw [← hconserved, List.append_assoc _ s.queue]
  | drop => exact h
  | close hopen =>
    exact ⟨hconserved, h.batches, h.buffered, h.emptied, h.retries,
      fun hended => absurd (h.ended hended).1 hopen, h.times⟩
  | tick =>
    exact ⟨hconserved, h.batches, h.buffered, h.emptied, h.retries, h.ended,
      Nat.le_succ_of_le h.times.1, Nat.le_succ_of_le h.times.2⟩
  | first hphase hempty hqueue =>
    rw [hempty, hqueue] at hconserved
    refine Collected.trigger ⟨?_, h.batches, List.cons_ne_nil _ _, batchMax_pos cfg, hphase,
      Nat.le_refl _, Nat.le_refl _⟩
    simpa using hconserved
  | more hphase hbuffer hqueue =>
    rw [hqueue] at hconserved
    refine Collected.trigger ⟨?_, h.batches, List.append_ne_nil_of_right_ne_nil _ (List.cons_ne_nil _ _), ?_,
      hphase, h.times.1, Nat.le_refl _⟩
    · simpa using hconserved
    · rw [List.length_append]
      exact h.buffered
  | exit _ hempty hqueue hclosed =>
    exact h.withPhase .exited (fun _ _ h => by cases h) (fun _ _ _ h => by cases h)
      fun _ => ⟨hclosed, hqueue, hempty⟩
  | lastFlush hphase hbuffer hqueue hclosed =>
    exact (h.collected hphase hbuffer).flush true fun _ => ⟨hclosed, hqueue⟩
  | due hphase hbuffer => exact (h.collected hphase hbuffer).flush false fun h => Bool.noConfusion h
  | panic =>
    exact h.withPhase .panicked (fun _ _ h => by cases h) (fun _ _ _ h => by cases h) fun h => by cases h
  | @settle result flush last hphase =>
    -- the batch was counted as called when the flush began
    refine h.withPhase _ ?_ ?_ ?_
    · intro flush' last' hphase'
      split at hphase' <;> cases hphase'
    · intro flush' wakeAt last' hphase'
      split at hphase' <;> cases hphase'
    · intro hexited
      split at hexited
      · rename_i hlast
        subst hlast
        exact h.ended (Or.inr ⟨flush, hphase⟩)
      · cases hexited
  | retry hphase hnext =>
    -- no flush fails
    rw [hok _ rfl] at hnext
    cases hnext
  | wake hphase => exact absurd hphase (h.retries _ _ _)

/-! ## The loop comes to its end -/

/-- What the loop still has to do once the channel is closed. -/
def left (s : BatchState) : Nat :=
  3 * s.queue.length + (if s.buffer = [] then 0 else 2) +
    match s.phase with
    | .waiting => 1
    | .flushing .. => 2
    | .retrying .. | .exited | .panicked => 0

/-- A step of the loop that the clock and the channel's closing are not part of, towards the
    end. -/
structure Nearer (s s' : BatchState) : Prop where
  left_lt : s'.left < s.left
  closed_eq : s'.closed = s.closed
  now_eq : s'.now = s.now
  alive : s'.phase ≠ .panicked

theorem Nearer.flush (hne : s'.buffer ≠ []) (last : Bool)
    (hleft : 3 * s'.queue.length + 2 < s.left) (hclosed : s'.closed = s.closed)
    (hnow : s'.now = s.now) : Nearer s (s'.flushWithRetry last) := by
  unfold flushWithRetry
  rw [if_neg hne]
  refine ⟨?_, hclosed, hnow, fun h => by cases h⟩
  simpa [left] using hleft

theorem Nearer.trigger (hne : s'.buffer ≠ []) (hphase : s'.phase = .waiting)
    (hleft : 3 * s'.queue.length + 3 < s.left) (hclosed : s'.closed = s.closed)
    (hnow : s'.now = s.now) : Nearer s (s'.sizeTrigger cfg) := by
  unfold sizeTrigger
  split
  · exact Nearer.flush hne false (by omega) hclosed hnow
  · refine ⟨?_, hclosed, hnow, fun h => by rw [hphase] at h; cases h⟩
    simpa [left, hne, hphase] using hleft

/-- Once the channel is closed, a loop that waits can receive. -/
theorem exists_recv (hclosed : s.closed = true) (hphase : s.phase = .waiting)
    (hdeadline : s.buffer ≠ [] → s.deadline cfg instantMax ≠ none) :
    ∃ s', s.step cfg instantMax .recv = some s' ∧ Nearer s s' := by
  by_cases hempty : s.buffer = []
  · cases hqueue : s.queue with
    | nil =>
      refine ⟨{ s with phase := .exited }, ?_, ?_, rfl, rfl, fun h => by cases h⟩
      · simp [step, hphase, hempty, recvFirst, hqueue, hclosed]
      · simp [left, hphase, hempty, hqueue]
    | cons entry queue =>
      refine ⟨_, by simp only [step, hphase, hempty, if_pos, recvFirst, hqueue]; rfl, ?_⟩
      refine Nearer.trigger (List.cons_ne_nil _ _) rfl ?_ rfl rfl
      simp [left, hphase, hempty, hqueue]
      omega
  · obtain ⟨deadline, hsome⟩ := Option.ne_none_iff_exists'.mp (hdeadline hempty)
    cases hqueue : s.queue with
    | nil =>
      refine ⟨s.flushWithRetry true, ?_, ?_⟩
      · simp [step, hphase, hempty, hsome, recvMore, hqueue, hclosed]
      · refine Nearer.flush hempty true ?_ rfl rfl
        simp [left, hphase, hempty, hqueue]
    | cons entry queue =>
      refine ⟨_, by simp only [step, hphase, hempty, hsome, recvMore, hqueue]; rfl, ?_⟩
      refine Nearer.trigger ?_ rfl ?_ rfl rfl
      · simp
      · simp [left, hphase, hempty, hqueue]

/-- Every loop that is not over has a next step, towards its end. -/
theorem exists_loop_step (h : BatchInv cfg s) (hclosed : s.closed = true)
    (halive : s.phase ≠ .panicked) (hover : s.phase ≠ .exited)
    (hdeadline : s.buffer ≠ [] → s.deadline cfg instantMax ≠ none) :
    ∃ e s', (e = .recv ∨ e = .flushed (.ok ())) ∧ s.step cfg instantMax e = some s' ∧
      Nearer s s' := by
  cases hphase : s.phase with
  | waiting =>
    obtain ⟨s', hstep, hnearer⟩ := exists_recv hclosed hphase hdeadline
    exact ⟨.recv, s', Or.inl rfl, hstep, hnearer⟩
  | flushing flush last =>
    refine ⟨.flushed (.ok ()), { s with phase := if last then .exited else .waiting }, Or.inr rfl,
      by rw [step, hphase]; rfl, ?_, rfl, rfl, ?_⟩
    · have hempty := h.emptied flush last hphase
      cases last <;> simp [left, hphase, hempty]
    · intro h
      cases last <;> cases h
  | retrying flush wakeAt last => exact absurd hphase (h.retries flush wakeAt last)
  | exited => exact absurd hphase hover
  | panicked => exact absurd hphase halive

/-- From a closed channel the loop comes to its end. -/
theorem exists_exit (n : Nat) : ∀ s : BatchState, s.left = n → BatchInv cfg s → s.closed = true →
    s.phase ≠ .panicked → s.now + cfg.bufferDuration ≤ instantMax →
    s.now + cfg.inactiveTimeout ≤ instantMax →
    ∃ more s', (∀ e ∈ more, e = .recv ∨ e = .flushed (.ok ())) ∧
      run cfg instantMax more s = some s' ∧ s'.phase = .exited := by
  induction n using Nat.strong_induction_on with
  | _ n ih =>
    intro s hleft h hclosed halive hage hquiet
    by_cases hover : s.phase = .exited
    · exact ⟨[], s, (fun e he => absurd he List.not_mem_nil), rfl, hover⟩
    · have hdeadline : s.buffer ≠ [] → s.deadline cfg instantMax ≠ none := by
        intro _
        have holdest : s.firstEntryAt + cfg.bufferDuration ≤ instantMax := by
          have hfirst := h.times.1
          omega
        have hnewest : s.lastEntryAt + cfg.inactiveTimeout ≤ instantMax := by
          have hlast := h.times.2
          omega
        simp [deadline, addToInstant, holdest, hnewest]
      obtain ⟨e, s₁, he, hstep, hnearer⟩ := exists_loop_step h hclosed halive hover hdeadline
      have hinv : BatchInv cfg s₁ := by
        refine batchInv_step h hstep ?_
        rintro result rfl
        rcases he with he | he
        · cases he
        · exact BatchEvent.flushed.inj he
      obtain ⟨more, s', hloop, hrun, hexited⟩ := ih s₁.left (hleft ▸ hnearer.left_lt) s₁ rfl hinv
        (hnearer.closed_eq.trans hclosed) hnearer.alive (by rw [hnearer.now_eq]; exact hage)
        (by rw [hnearer.now_eq]; exact hquiet)
      refine ⟨e :: more, s', ?_, ?_, hexited⟩
      · intro e' he'
        rcases List.mem_cons.mp he' with rfl | he'
        · exact he
        · exact hloop e' he'
      · rw [run, hstep]
        exact hrun

/-! ## Whole runs -/

theorem batchInv_run : ∀ {events : List BatchEvent} {s s' : BatchState}, BatchInv cfg s →
    run cfg instantMax events s = some s' →
    (∀ result, .flushed result ∈ events → result = .ok ()) → BatchInv cfg s' := by
  intro events
  induction events with
  | nil =>
    intro s s' h hrun _
    obtain rfl := Option.some.inj hrun
    exact h
  | cons e events ih =>
    intro s s' h hrun hok
    obtain ⟨s₁, hstep, hrest⟩ := Option.bind_eq_some_iff.mp hrun
    refine ih (batchInv_step h hstep ?_) hrest fun result hmem =>
      hok result (List.mem_cons_of_mem e hmem)
    rintro result rfl
    exact hok result List.mem_cons_self

/-- **Every accepted entry is delivered.**  In every run of a sink whose flusher always succeeds:
    the batches, the buffer and the channel hold the accepted entries in order; every batch is
    non-empty, and no longer than `batch_max_size`, or than 1 where that is 0; when the loop exits
    nothing is left; and once the channel is closed it does come to its exit, unless a deadline is
    past the last instant. -/
theorem batch_delivery {events : List BatchEvent} (hrun : run cfg instantMax events start = some s)
    (hok : ∀ result, .flushed result ∈ events → result = .ok ()) :
    s.calls.flatten ++ s.buffer ++ s.queue = s.accepted ∧
    (∀ b ∈ s.calls, b ≠ [] ∧ b.length ≤ max cfg.batchMaxSize 1) ∧
    (s.phase = .exited → s.buffer = [] ∧ s.calls.flatten = s.accepted) ∧
    (s.closed = true → s.phase ≠ .panicked → s.now + cfg.bufferDuration ≤ instantMax →
      s.now + cfg.inactiveTimeout ≤ instantMax →
      ∃ more s', (∀ e ∈ more, e = .recv ∨ e = .flushed (.ok ())) ∧
        run cfg instantMax more s = some s' ∧ s'.phase = .exited) := by
  have h : BatchInv cfg s := batchInv_run batchInv_start hrun hok
  refine ⟨h.conserved, h.batches, ?_, ?_⟩
  · intro hexited
    obtain ⟨-, hqueue, hempty⟩ := h.ended (Or.inl hexited)
    refine ⟨hempty, ?_⟩
    rw [← h.conserved, hqueue, hempty]
    simp
  · intro hclosed halive hage hquiet
    exact exists_exit s.left s rfl h hclosed halive hage hquiet

/-- No batch is longer than the configured size. -/
def KeepsBatchSize (cfg : BatchConfig) (instantMax : Nat) : Prop :=
  ∀ events s, run cfg instantMax events start = some s →
    (∀ result, .flushed result ∈ events → result = .ok ()) →
    ∀ b ∈ s.calls, b.length ≤ cfg.batchMaxSize

end Step

/-! ## A configured size -/

/-- A sink with a batch size, and the defaults for the rest. -/
def batchSizeConfig (size : UInt64) : HashMap Json :=
  (∅ : HashMap Json).insert "batch_max_size" (.number (.posInt size))

/-- What it is configured to. -/
def batchSizeCfg (size : Nat) : BatchConfig where
  batchMaxSize := size
  inactiveTimeout := durationFromSecs 5
  bufferDuration := durationFromSecs 60
  maxRetryCount := 0
  retryDelay := durationFromSecs 1
  maxPendingEntries := 10000

/-- Two entries through a sink with batches of two. -/
def twoEntries : List BatchEvent :=
  [.push (.bool true), .push (.bool false), .recv, .recv, .close, .flushed (.ok ())]

theorem batch_delivery_twoEntries :
    let _ : JsonText := oneFieldText
    BatchConfig.fromConfig (batchSizeConfig 2) = .ok (batchSizeCfg 2) ∧
    ∃ s, run (batchSizeCfg 2) (durationFromSecs 100) twoEntries start = some s ∧
      s.closed = true ∧ s.calls = [[.bool true, .bool false]] ∧
      s.calls.flatten ++ s.buffer ++ s.queue = s.accepted ∧
      (∀ b ∈ s.calls, b ≠ [] ∧ b.length ≤ max 2 1) ∧
      (s.phase = .exited → s.buffer = [] ∧ s.calls.flatten = s.accepted) ∧
      (s.closed = true → s.phase ≠ .panicked →
        s.now + durationFromSecs 60 ≤ durationFromSecs 100 →
        s.now + durationFromSecs 5 ≤ durationFromSecs 100 →
        ∃ more s', (∀ e ∈ more, e = .recv ∨ e = .flushed (.ok ())) ∧
          run (batchSizeCfg 2) (durationFromSecs 100) more s = some s' ∧ s'.phase = .exited) := by
  intro _
  have hrun : run (batchSizeCfg 2) (durationFromSecs 100) twoEntries start = some _ := rfl
  refine ⟨rfl, _, rfl, rfl, rfl, batch_delivery hrun ?_⟩
  intro result hmem
  simp [twoEntries] at hmem
  exact hmem

/-- A size of 0 is accepted, and every entry is a batch of its own: longer than 0. -/
theorem batch_of_one_for_zero :
    let _ : JsonText := oneFieldText
    BatchConfig.fromConfig (batchSizeConfig 0) = .ok (batchSizeCfg 0) ∧
    ∀ instantMax, ¬ KeepsBatchSize (batchSizeCfg 0) instantMax := by
  intro _
  refine ⟨rfl, fun instantMax h => ?_⟩
  have hlength := h [.push .null, .recv] _ rfl (by simp) [.null] List.mem_cons_self
  revert hlength
  decide

end BatchState

end Featherbit
