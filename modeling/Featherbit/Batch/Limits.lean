/-
  WHICH BATCH CONFIGURATIONS CAN RUN (`BatchConfig::from_config`, `BatchSink::spawn` and `run_loop`,
  `batch/mod.rs`).

  `from_config` accepts any `u64`.  Three places have limits of their own:

  * the count of retries is narrowed to a `u32`;
  * a channel has at most `maxPermits` places, or it is not made;
  * a deadline past the last instant panics.  A deadline is only computed in front of a buffer that holds
    something, which a sink of one-entry batches never is (`Quiet`).
-/
import Mathlib
import Featherbit.Batch.Sink

namespace Featherbit

/-- `Semaphore::MAX_PERMITS`, the most places a channel can have. -/
def maxPermits : Nat := (2 ^ 64 - 1) / 8

/-- A sink that is configured so does what it is configured to, and does not panic: the retries are the
    configured ones, the channel is made, and the task runs up to `clockEnd` whatever happens. -/
structure BatchConfig.Runnable [JsonText] (config : HashMap Json) (cfg : BatchConfig)
    (instantMax clockEnd : Nat) : Prop where
  retries : ∀ n, BatchConfig.intKey config "max_retry_count" = .ok (some n) →
    cfg.maxRetryCount.toNat = n.toNat
  channel : cfg.capacity ≤ maxPermits
  instants : ∀ events s, BatchState.run cfg instantMax events BatchState.start = some s →
    s.now ≤ clockEnd → s.phase ≠ .panicked

namespace BatchState

section Step

variable {cfg : BatchConfig} {instantMax : Nat} {s s' : BatchState} {e : BatchEvent}

/-- The entries of the buffer came by now; there are none while the flusher works, and none at all where a
    batch is one entry. -/
structure Quiet (cfg : BatchConfig) (s : BatchState) : Prop where
  times : s.firstEntryAt ≤ s.now ∧ s.lastEntryAt ≤ s.now
  flushing : s.phase ≠ .waiting → s.phase ≠ .panicked → s.buffer = []
  single : cfg.batchMax = 1 → s.buffer = []

theorem quiet_start : Quiet cfg start where
  times := ⟨Nat.le_refl 0, Nat.le_refl 0⟩
  flushing h := absurd rfl h
  single _ := rfl

variable (cfg) in
/-- Flushing leaves the buffer empty, and the task not panicked. -/
theorem quiet_flushWithRetry (htimes : s.firstEntryAt ≤ s.now ∧ s.lastEntryAt ≤ s.now) (last : Bool) :
    Quiet cfg (s.flushWithRetry last) ∧ (s.flushWithRetry last).phase ≠ .panicked ∧
      (s.flushWithRetry last).now = s.now := by
  unfold flushWithRetry
  by_cases hempty : s.buffer = []
  · rw [if_pos hempty]
    refine ⟨⟨htimes, fun _ _ => hempty, fun _ => hempty⟩, ?_, rfl⟩
    cases last with
    | false => exact fun h => by cases h
    | true => exact fun h => by cases h
  · rw [if_neg hempty]
    exact ⟨⟨htimes, fun _ _ => rfl, fun _ => rfl⟩, (fun h => by cases h), rfl⟩

variable (cfg) in
/-- The end of a turn of the loop. -/
theorem quiet_sizeTrigger (htimes : s.firstEntryAt ≤ s.now ∧ s.lastEntryAt ≤ s.now)
    (hphase : s.phase = .waiting) (hbuffer : s.buffer ≠ []) :
    Quiet cfg (s.sizeTrigger cfg) ∧ (s.sizeTrigger cfg).phase ≠ .panicked ∧
      (s.sizeTrigger cfg).now = s.now := by
  unfold sizeTrigger
  split
  · exact quiet_flushWithRetry cfg htimes false
  · rename_i hsmall
    refine ⟨⟨htimes, fun h => absurd hphase h, fun hone => ?_⟩, fun h => ?_, rfl⟩
    · have hlength := List.length_pos_of_ne_nil hbuffer
      omega
    · rw [hphase] at h
      cases h

/-- The clock does not go back, and only a deadline that cannot be computed panics. -/
theorem quiet_step (h : Quiet cfg s) (hstep : s.step cfg instantMax e = some s') :
    Quiet cfg s' ∧ s.now ≤ s'.now ∧
      (s'.phase = .panicked → s.phase = .panicked ∨
        s.buffer ≠ [] ∧ s.deadline cfg instantMax = none) := by
  cases batchMove_of_step hstep with
  | accept | close => exact ⟨⟨h.times, h.flushing, h.single⟩, Nat.le_refl _, Or.inl⟩
  | drop => exact ⟨h, Nat.le_refl _, Or.inl⟩
  | tick =>
    exact ⟨⟨⟨Nat.le_succ_of_le h.times.1, Nat.le_succ_of_le h.times.2⟩, h.flushing, h.single⟩,
      Nat.le_succ _, Or.inl⟩
  | @first entry queue hphase =>
    obtain ⟨hquiet, hpanic, hnow⟩ := quiet_sizeTrigger cfg
      (s := { s with queue := queue, buffer := [entry], firstEntryAt := s.now, lastEntryAt := s.now })
      ⟨Nat.le_refl _, Nat.le_refl _⟩ hphase (List.cons_ne_nil _ _)
    exact ⟨hquiet, Nat.le_of_eq hnow.symm, fun hp => absurd hp hpanic⟩
  | @more entry queue hphase =>
    obtain ⟨hquiet, hpanic, hnow⟩ := quiet_sizeTrigger cfg
      (s := { s with queue := queue, buffer := s.buffer ++ [entry], lastEntryAt := s.now })
      ⟨h.times.1, Nat.le_refl _⟩ hphase (List.append_ne_nil_of_right_ne_nil _ (List.cons_ne_nil _ _))
    exact ⟨hquiet, Nat.le_of_eq hnow.symm, fun hp => absurd hp hpanic⟩
  | exit _ hempty =>
    exact ⟨⟨h.times, fun _ _ => hempty, h.single⟩, Nat.le_refl _, fun hp => by cases hp⟩
  | lastFlush =>
    obtain ⟨hquiet, hpanic, hnow⟩ := quiet_flushWithRetry cfg h.times true
    exact ⟨hquiet, Nat.le_of_eq hnow.symm, fun hp => absurd hp hpanic⟩
  | due =>
    obtain ⟨hquiet, hpanic, hnow⟩ := quiet_flushWithRetry cfg h.times false
    exact ⟨hquiet, Nat.le_of_eq hnow.symm, fun hp => absurd hp hpanic⟩
  | panic _ hbuffer hdeadline =>
    -- the only move that panics
    exact ⟨⟨h.times, fun _ hp => absurd rfl hp, h.single⟩, Nat.le_refl _,
      fun _ => Or.inr ⟨hbuffer, hdeadline⟩⟩
  | @settle result flush last hphase =>
    have hempty : s.buffer = [] := h.flushing (by rw [hphase]; exact fun hw => by cases hw)
      (by rw [hphase]; exact fun hp => by cases hp)
    refine ⟨⟨h.times, fun _ _ => hempty, h.single⟩, Nat.le_refl _, fun hp => ?_⟩
    cases last <;> cases hp
  | retry hphase | wake hphase =>
    have hempty : s.buffer = [] := h.flushing (by rw [hphase]; exact fun hw => by cases hw)
      (by rw [hphase]; exact fun hp => by cases hp)
    exact ⟨⟨h.times, fun _ _ => hempty, h.single⟩, Nat.le_refl _, fun hp => by cases hp⟩

theorem now_le_run : ∀ {events : List BatchEvent} {s s' : BatchState}, Quiet cfg s →
    run cfg instantMax events s = some s' → s.now ≤ s'.now := by
  intro events
  induction events with
  | nil =>
    intro s s' _ hrun
    obtain rfl := Option.some.inj hrun
    exact Nat.le_refl _
  | cons e events ih =>
    intro s s' hquiet hrun
    obtain ⟨mid, hstep, hrest⟩ := Option.bind_eq_some_iff.mp hrun
    obtain ⟨hquiet', hclock, -⟩ := quiet_step hquiet hstep
    exact Nat.le_trans hclock (ih hquiet' hrest)

/-- A run does not panic whose clock leaves room for every deadline. -/
theorem run_not_panicked {clockEnd : Nat}
    (hroom : cfg.batchMax = 1 ∨
      clockEnd + cfg.bufferDuration ≤ instantMax ∧ clockEnd + cfg.inactiveTimeout ≤ instantMax) :
    ∀ {events : List BatchEvent} {s s' : BatchState}, Quiet cfg s → s.phase ≠ .panicked →
      run cfg instantMax events s = some s' → s.now ≤ s'.now ∧ (s'.now ≤ clockEnd → s'.phase ≠ .panicked) := by
  intro events
  induction events with
  | nil =>
    intro s s' _ hphase hrun
    obtain rfl := Option.some.inj hrun
    exact ⟨Nat.le_refl _, fun _ => hphase⟩
  | cons e events ih =>
    intro s s' hquiet hphase hrun
    obtain ⟨mid, hstep, hrest⟩ := Option.bind_eq_some_iff.mp hrun
    obtain ⟨hquiet', hclock, hpanic⟩ := quiet_step hquiet hstep
    by_cases hmid : mid.phase = .panicked
    · -- the deadline is past the last instant, so the clock has run out of room
      rcases hpanic hmid with h | ⟨hbuffer, hdeadline⟩
      · exact absurd h hphase
      · rcases hroom with hone | ⟨hbufferRoom, hinactiveRoom⟩
        · exact absurd (hquiet.single hone) hbuffer
        · have hlate : clockEnd < s.now := by
            by_contra hnot
            have htimes := hquiet.times
            have hfirst : s.firstEntryAt + cfg.bufferDuration ≤ instantMax := by omega
            have hlast : s.lastEntryAt + cfg.inactiveTimeout ≤ instantMax := by omega
            simp [deadline, addToInstant, hfirst, hlast] at hdeadline
          have hend := now_le_run hquiet' hrest
          exact ⟨by omega, fun h => by omega⟩
    · obtain ⟨hafter, hend⟩ := ih hquiet' hmid hrest
      exact ⟨Nat.le_trans hclock hafter, hend⟩

theorem run_ticks (n : Nat) (events : List BatchEvent) :
    ∀ s : BatchState, run cfg instantMax (List.replicate n .tick ++ events) s =
      run cfg instantMax events { s with now := s.now + n } := by
  induction n with
  | zero => exact fun s => rfl
  | succ n ih =>
    intro s
    have hnow : s.now + (n + 1) = s.now + 1 + n := by omega
    rw [hnow]
    exact ih { s with now := s.now + 1 }

/-- One entry is held since an instant. -/
def held (entry : Json) (instant : Nat) : BatchState :=
  { start with
    now := instant
    buffer := [entry]
    firstEntryAt := instant
    lastEntryAt := instant
    accepted := [entry] }

/-- The run that panics: an entry is received as late as possible, and the loop waits for the next. -/
theorem run_panics {clockEnd : Nat} (hbatch : cfg.batchMax ≠ 1)
    (hlate : ¬ (clockEnd + cfg.bufferDuration ≤ instantMax ∧
      clockEnd + cfg.inactiveTimeout ≤ instantMax)) :
    ∃ events s, run cfg instantMax events start = some s ∧ s.now ≤ clockEnd ∧ s.phase = .panicked := by
  have hmany : ¬ (held .null clockEnd).buffer.length ≥ cfg.batchMax := by
    have hpos : 1 ≤ cfg.batchMax := Nat.le_max_right _ _
    show ¬ 1 ≥ cfg.batchMax
    omega
  have hroom : 0 < cfg.capacity := Nat.lt_of_lt_of_le Nat.one_pos (Nat.le_max_right _ _)
  have hdeadline : (held .null clockEnd).deadline cfg instantMax = none := by
    by_cases hbuffer : clockEnd + cfg.bufferDuration ≤ instantMax
    · have hfirst : addToInstant instantMax (held .null clockEnd).firstEntryAt cfg.bufferDuration =
          some _ := if_pos hbuffer
      have hlast : addToInstant instantMax (held .null clockEnd).lastEntryAt cfg.inactiveTimeout =
          none := if_neg fun h => hlate ⟨hbuffer, h⟩
      rw [deadline, hfirst, hlast]
      rfl
    · have hfirst : addToInstant instantMax (held .null clockEnd).firstEntryAt cfg.bufferDuration =
          none := if_neg hbuffer
      rw [deadline, hfirst]
      rfl
  refine ⟨List.replicate clockEnd .tick ++ [.push .null, .recv, .recv],
    { held .null clockEnd with phase := .panicked }, ?_, Nat.le_refl _, rfl⟩
  rw [run_ticks, show start.now + clockEnd = clockEnd from Nat.zero_add _]
  have hpush : ({ start with now := clockEnd } : BatchState).step cfg instantMax (.push .null) =
      some { start with now := clockEnd, queue := [.null], accepted := [.null] } := by
    show some (push cfg _ _) = _
    rw [push, if_pos ⟨hroom, rfl⟩]
    rfl
  have hrecv : ({ start with now := clockEnd, queue := [.null], accepted := [.null] } :
      BatchState).step cfg instantMax .recv = some (held .null clockEnd) := by
    show some (sizeTrigger cfg (held .null clockEnd)) = _
    rw [sizeTrigger, if_neg hmany]
  have hpanic : (held .null clockEnd).step cfg instantMax .recv =
      some { held .null clockEnd with phase := .panicked } := by
    have hphase : (held .null clockEnd).phase = .waiting := rfl
    have hbuffer : ¬ (held .null clockEnd).buffer = [] := List.cons_ne_nil _ _
    simp only [step, hphase, if_neg hbuffer, hdeadline]
  rw [run, hpush, Option.bind_some, run, hrecv, Option.bind_some, run, hpanic]
  rfl

end Step

end BatchState

namespace BatchConfig

section Limits

variable [JsonText]

/-- What is accepted, key by key. -/
theorem fromConfig_keys {config : HashMap Json} {cfg : BatchConfig} (h : fromConfig config = .ok cfg) :
    ∃ batchMaxSize inactiveTimeout bufferDuration maxRetryCount retryDelay maxPendingEntries,
      intKey config "batch_max_size" = .ok batchMaxSize ∧
      intKey config "inactive_timeout" = .ok inactiveTimeout ∧
      intKey config "buffer_duration" = .ok bufferDuration ∧
      intKey config "max_retry_count" = .ok maxRetryCount ∧
      intKey config "retry_delay" = .ok retryDelay ∧
      intKey config "max_pending_entries" = .ok maxPendingEntries ∧
      cfg = {
        batchMaxSize := (batchMaxSize.map UInt64.toNat).getD 1000
        inactiveTimeout := durationFromSecs ((inactiveTimeout.map UInt64.toNat).getD 5)
        bufferDuration := durationFromSecs ((bufferDuration.map UInt64.toNat).getD 60)
        maxRetryCount := (maxRetryCount.map UInt64.toUInt32).getD 0
        retryDelay := durationFromSecs ((retryDelay.map UInt64.toNat).getD 1)
        maxPendingEntries := (maxPendingEntries.map UInt64.toNat).getD 10000 } := by
  unfold fromConfig at h
  cases h1 : intKey config "batch_max_size" with
  | error e => rw [h1] at h; cases h
  | ok batchMaxSize =>
  cases h2 : intKey config "inactive_timeout" with
  | error e => rw [h1, h2] at h; cases h
  | ok inactiveTimeout =>
  cases h3 : intKey config "buffer_duration" with
  | error e => rw [h1, h2, h3] at h; cases h
  | ok bufferDuration =>
  cases h4 : intKey config "max_retry_count" with
  | error e => rw [h1, h2, h3, h4] at h; cases h
  | ok maxRetryCount =>
  cases h5 : intKey config "retry_delay" with
  | error e => rw [h1, h2, h3, h4, h5] at h; cases h
  | ok retryDelay =>
  cases h6 : intKey config "max_pending_entries" with
  | error e => rw [h1, h2, h3, h4, h5, h6] at h; cases h
  | ok maxPendingEntries =>
    rw [h1, h2, h3, h4, h5, h6] at h
    exact ⟨_, _, _, _, _, _, rfl, rfl, rfl, rfl, rfl, rfl, (Except.ok.inj h).symm⟩

/-- A late deadline. -/
theorem not_runnable_of_late {config : HashMap Json} {cfg : BatchConfig} {instantMax clockEnd : Nat}
    (hbatch : cfg.batchMax ≠ 1) (hlate : ¬ (clockEnd + cfg.bufferDuration ≤ instantMax ∧
      clockEnd + cfg.inactiveTimeout ≤ instantMax)) : ¬ Runnable config cfg instantMax clockEnd := by
  intro h
  obtain ⟨events, s, hevents, hclock, hpanic⟩ := BatchState.run_panics hbatch hlate
  exact h.instants events s hevents hclock hpanic

/-- A configured count of retries that a `u32` holds. -/
def RetriesFit (config : HashMap Json) : Prop :=
  ∀ n, intKey config "max_retry_count" = .ok (some n) → n.toNat < 2 ^ 32

/-- **The limits.**  An accepted configuration can run up to `clockEnd` exactly when its count of retries
    fits, its channel can be made, and its durations end by the last instant or its batches are of one
    entry. -/
theorem runnable_iff {config : HashMap Json} {cfg : BatchConfig} (h : fromConfig config = .ok cfg)
    (instantMax clockEnd : Nat) :
    Runnable config cfg instantMax clockEnd ↔
      RetriesFit config ∧ cfg.maxPendingEntries ≤ maxPermits ∧
        (cfg.batchMaxSize ≤ 1 ∨ clockEnd + cfg.bufferDuration ≤ instantMax ∧
          clockEnd + cfg.inactiveTimeout ≤ instantMax) := by
  have hone : cfg.batchMaxSize ≤ 1 ↔ cfg.batchMax = 1 := by
    unfold batchMax
    omega
  have hcapacity : cfg.capacity ≤ maxPermits ↔ cfg.maxPendingEntries ≤ maxPermits := by
    unfold capacity
    rw [Nat.max_le]
    exact and_iff_left (by decide)
  have hretries : (∀ n, intKey config "max_retry_count" = .ok (some n) →
      cfg.maxRetryCount.toNat = n.toNat) ↔ RetriesFit config := by
    obtain ⟨-, -, -, maxRetryCount, -, -, -, -, -, hcount, -, -, rfl⟩ := fromConfig_keys h
    unfold RetriesFit
    rw [hcount]
    constructor
    · intro hsame n hn
      obtain rfl := Except.ok.inj hn
      have hn := hsame n rfl
      rw [← hn]
      exact UInt32.toNat_lt _
    · intro hfit n hn
      obtain rfl := Except.ok.inj hn
      show n.toUInt32.toNat = n.toNat
      rw [UInt64.toNat_toUInt32]
      exact Nat.mod_eq_of_lt (hfit n rfl)
  rw [hone, ← hcapacity, ← hretries]
  constructor
  · intro hrun
    refine ⟨hrun.retries, hrun.channel, ?_⟩
    by_contra hlate
    obtain ⟨hbatch, hlate⟩ := not_or.mp hlate
    exact not_runnable_of_late hbatch hlate hrun
  · rintro ⟨hretries, hchannel, hroom⟩
    refine ⟨hretries, hchannel, fun events s hevents hclock => ?_⟩
    exact (BatchState.run_not_panicked hroom BatchState.quiet_start (fun hp => by cases hp) hevents).2 hclock

end Limits

/-- The defaults, in the first year of the clock. -/
theorem runnable_iff_defaults :
    let _ : JsonText := oneFieldText
    ∃ cfg, fromConfig ∅ = .ok cfg ∧ Runnable ∅ cfg unixInstantMax (durationFromSecs 31536000) := by
  intro _
  refine ⟨_, rfl, (runnable_iff rfl _ _).mpr ⟨?_, by decide, Or.inr ⟨by decide, by decide⟩⟩⟩
  intro n hn
  cases (show Except.ok none = Except.ok (some n) from hn)

/-- One more retry than a `u32` counts is none, and the longest age panics. -/
theorem accepted_not_runnable :
    let _ : JsonText := oneFieldText
    let manyRetries := (∅ : HashMap Json).insert "max_retry_count" (.number (.posInt 4294967296))
    let longAge := (∅ : HashMap Json).insert "buffer_duration" (.number (.posInt 18446744073709551615))
    (∃ cfg, fromConfig manyRetries = .ok cfg ∧
      ¬ Runnable manyRetries cfg unixInstantMax (durationFromSecs 31536000)) ∧
    ∃ cfg, fromConfig longAge = .ok cfg ∧
      ¬ Runnable longAge cfg unixInstantMax (durationFromSecs 31536000) := by
  intro _ manyRetries longAge
  refine ⟨⟨_, rfl, fun h => ?_⟩, ⟨_, rfl, fun h => ?_⟩⟩
  · exact absurd (h.retries 4294967296 rfl) (by decide)
  · exact not_runnable_of_late (by decide) (fun hroom => absurd hroom.1 (by decide)) h

end BatchConfig

end Featherbit
