/-
  THE CIRCUIT BREAKER (`traffic/mod.rs`): does it stay open for its whole cooldown?

  `BreakerState` is shared by a check node, which asks `allow`, and an observe node, which reports
  outcomes.  A request admitted before a trip reports after it, so reports also arrive while the
  breaker is open.  They are counted as if it were closed: a healthy one can end the spell and
  reset the cooldown to its base, and an unhealthy one can trip the breaker again, which OVERWRITES
  `open_until`.

  `staysOpen_iff`: a run keeps every cooldown iff no trip in it brings `open_until` forward.
-/
import Mathlib
import Featherbit.Rust.Time

namespace Featherbit

/-- State of one circuit breaker. -/
structure BreakerState where
  /-- consecutive unhealthy responses observed while closed -/
  unhealthyCount : Nat
  /-- consecutive healthy responses observed while half-open -/
  healthyCount : Nat
  /-- how many times the breaker has tripped in the current unhealthy spell -/
  tripRound : Nat
  /-- when the breaker is open, the instant it may move to half-open -/
  openUntil : Option Nat
deriving DecidableEq

/-- `n.saturating_add(1)` of a `u32`. -/
def saturatingSucc (n : Nat) : Nat := min (n + 1) (2 ^ 32 - 1)

/-- The cooldown of a trip, in seconds: `break_base_sec * 2^trip_round`, up to `max_breaker_sec`. -/
def backoff (tripRound breakBaseSec maxBreakerSec : Nat) : Nat :=
  min (min (breakBaseSec * 2 ^ min tripRound 16) (2 ^ 64 - 1)) (max maxBreakerSec breakBaseSec)

namespace BreakerState

/-- `BreakerState::default`. -/
def closed : BreakerState := ⟨0, 0, 0, none⟩

/-- Whether a request is let through at `now`; the first one after the cooldown is the probe. -/
def allow (s : BreakerState) (now : Nat) : Bool × BreakerState :=
  match s.openUntil with
  | some «until» => if now < «until» then (false, s) else (true, { s with openUntil := none })
  | none => (true, s)

def recordHealthy (s : BreakerState) (healthyThreshold : Nat) : BreakerState :=
  let healthyCount := saturatingSucc s.healthyCount
  if healthyCount ≥ healthyThreshold then
    { s with unhealthyCount := 0, healthyCount := 0, tripRound := 0 }
  else { s with unhealthyCount := 0, healthyCount := healthyCount }

def recordUnhealthy (s : BreakerState)
    (now unhealthyThreshold breakBaseSec maxBreakerSec : Nat) : BreakerState :=
  let unhealthyCount := saturatingSucc s.unhealthyCount
  if unhealthyCount ≥ unhealthyThreshold then
    { unhealthyCount := 0
      healthyCount := 0
      tripRound := saturatingSucc s.tripRound
      openUntil := some (now + durationFromSecs (backoff s.tripRound breakBaseSec maxBreakerSec)) }
  else { s with healthyCount := 0, unhealthyCount := unhealthyCount }

end BreakerState

/-- A call of a breaker. -/
inductive BreakerCall where
  | allow
  | healthy (threshold : Nat)
  | unhealthy (threshold breakBaseSec maxBreakerSec : Nat)
deriving DecidableEq

namespace BreakerState

/-- One call, at its time. -/
def step (s : BreakerState) : Nat × BreakerCall → BreakerState
  | (now, .allow) => (s.allow now).2
  | (_, .healthy threshold) => s.recordHealthy threshold
  | (now, .unhealthy threshold base max) => s.recordUnhealthy now threshold base max

/-- The state after some calls. -/
def after (calls : List (Nat × BreakerCall)) : BreakerState := calls.foldl step closed

/-- The call trips the breaker: it is an unhealthy report that reaches its threshold. -/
def trips (s : BreakerState) : BreakerCall → Bool
  | .unhealthy threshold _ _ => decide (saturatingSucc s.unhealthyCount ≥ threshold)
  | _ => false

/-- The call ends the unhealthy spell: it is a healthy report that reaches its threshold. -/
def closes (s : BreakerState) : BreakerCall → Bool
  | .healthy threshold => decide (saturatingSucc s.healthyCount ≥ threshold)
  | _ => false

/-- The cooldown of a trip. -/
def cooldown (s : BreakerState) : BreakerCall → Nat
  | .unhealthy _ base max => durationFromSecs (backoff s.tripRound base max)
  | _ => 0

/-- The call trips a breaker that is open, for a cooldown that ends before the one it is in. -/
def Shortens (s : BreakerState) (e : Nat × BreakerCall) : Prop :=
  s.trips e.2 = true ∧ ∃ «until», s.openUntil = some «until» ∧ e.1 < «until» ∧
    e.1 + s.cooldown e.2 < «until»

end BreakerState

open BreakerState

/-- Every trip of the run keeps the breaker shut for its cooldown: at any point after it, `allow`
    answers `false` at every time before the cooldown's end. -/
def StaysOpen (run : List (Nat × BreakerCall)) : Prop :=
  ∀ pre t call mid post, run = pre ++ (t, call) :: (mid ++ post) → (after pre).trips call = true →
    ∀ u, t ≤ u → (∀ e ∈ mid, e.1 ≤ u) → u < t + (after pre).cooldown call →
      ((after (pre ++ (t, call) :: mid)).allow u).1 = false

/-! ## One call -/

section Step

variable {s : BreakerState} {now : Nat} {call : BreakerCall}

theorem allow_eq_false {u : Nat} :
    (s.allow u).1 = false ↔ ∃ v, s.openUntil = some v ∧ u < v := by
  unfold allow
  cases s.openUntil with
  | none => simp
  | some v => by_cases hlt : u < v <;> simp [hlt]

/-- A trip opens the breaker for its cooldown. -/
theorem openUntil_of_trips (h : s.trips call = true) :
    (s.step (now, call)).openUntil = some (now + s.cooldown call) := by
  cases call with
  | allow | healthy => nomatch h
  | unhealthy threshold base max =>
    simp only [step, recordUnhealthy, cooldown]
    rw [if_pos (of_decide_eq_true h)]

/-- Any other call leaves the end of the cooldown, or finds it passed. -/
theorem openUntil_of_not_trips (now : Nat) (h : s.trips call = false) :
    (s.step (now, call)).openUntil = s.openUntil ∨
      (s.step (now, call)).openUntil = none ∧ ∀ v, s.openUntil = some v → v ≤ now := by
  cases call with
  | allow =>
    simp only [step, allow]
    cases hopen : s.openUntil with
    | none => exact .inl hopen
    | some v =>
      dsimp only
      by_cases hlt : now < v
      · rw [if_pos hlt]
        exact .inl hopen
      · rw [if_neg hlt]
        refine .inr ⟨rfl, fun w hw => ?_⟩
        obtain rfl := Option.some.inj hw
        exact Nat.not_lt.mp hlt
  | healthy threshold =>
    left
    simp only [step, recordHealthy]
    split <;> rfl
  | unhealthy threshold base max =>
    left
    simp only [step, recordUnhealthy]
    rw [if_neg (of_decide_eq_false h)]

theorem after_append (calls more : List (Nat × BreakerCall)) :
    after (calls ++ more) = more.foldl step (after calls) := List.foldl_append

theorem after_concat (calls : List (Nat × BreakerCall)) (e : Nat × BreakerCall) :
    after (calls ++ [e]) = (after calls).step e := by
  rw [after_append, List.foldl_cons, List.foldl_nil]

end Step

/-! ## A run -/

section Run

variable {run : List (Nat × BreakerCall)}

/-- No call of the run brings the end of a cooldown forward. -/
def NeverShortens (run : List (Nat × BreakerCall)) : Prop :=
  ∀ pre e post, run = pre ++ e :: post → ¬ Shortens (after pre) e

/-- From a state that is open up to `bound`, calls that shorten nothing keep it open up to
    `bound`, or come to a time past it. -/
theorem open_run {s : BreakerState} {bound : Nat} {mid : List (Nat × BreakerCall)}
    (hopen : ∃ v, s.openUntil = some v ∧ bound ≤ v) (htimes : ∀ e ∈ mid, e.1 < bound)
    (hkeep : ∀ pre e post, mid = pre ++ e :: post → ¬ Shortens (pre.foldl step s) e) :
    ∃ v, (mid.foldl step s).openUntil = some v ∧ bound ≤ v := by
  induction mid generalizing s with
  | nil => exact hopen
  | cons e mid ih =>
    obtain ⟨now, call⟩ := e
    obtain ⟨v, hv, hbound⟩ := hopen
    have hnow : now < bound := htimes (now, call) List.mem_cons_self
    have hfirst : ¬ Shortens s (now, call) := hkeep [] (now, call) mid rfl
    refine ih ?_ (fun e he => htimes e (List.mem_cons_of_mem _ he)) fun pre e post heq => ?_
    · cases htrip : s.trips call with
      | true =>
        refine ⟨_, openUntil_of_trips htrip, ?_⟩
        by_contra hshort
        exact hfirst ⟨htrip, v, hv, by omega, by dsimp only; omega⟩
      | false =>
        rcases openUntil_of_not_trips now htrip with hsame | ⟨-, hpast⟩
        · exact ⟨v, hsame.trans hv, hbound⟩
        · have hle := hpast v hv
          omega
    · have hlater := hkeep ((now, call) :: pre) e post (by rw [heq, List.cons_append])
      exact hlater

/-- The end of a cooldown was set by a trip of the run. -/
theorem exists_trip {v : Nat} (h : (after run).openUntil = some v) :
    ∃ pre t call post, run = pre ++ (t, call) :: post ∧ (after pre).trips call = true ∧
      v = t + (after pre).cooldown call := by
  induction run using List.reverseRecOn with
  | nil => nomatch h
  | append_singleton run e ih =>
    obtain ⟨now, call⟩ := e
    rw [after_concat] at h
    cases htrip : (after run).trips call with
    | true =>
      rw [openUntil_of_trips htrip] at h
      exact ⟨run, now, call, [], rfl, htrip, (Option.some.inj h).symm⟩
    | false =>
      rcases openUntil_of_not_trips now htrip with hsame | ⟨hnone, -⟩
      · obtain ⟨pre, t, call', post, rfl, htrip', hv⟩ := ih (hsame.symm.trans h)
        exact ⟨pre, t, call', post ++ [(now, call)], by rw [List.append_assoc, List.cons_append],
          htrip', hv⟩
      · rw [hnone] at h
        nomatch h

/-- **When the breaker stays open.**  For every sequence of calls at nondecreasing times: every
    trip keeps the breaker shut for its cooldown iff no trip ends an open cooldown early. -/
theorem staysOpen_iff (hsorted : run.Pairwise (fun a b => a.1 ≤ b.1)) :
    StaysOpen run ↔ NeverShortens run := by
  constructor
  · rintro hstays pre ⟨s, call⟩ post rfl ⟨htrip, v, hv, hlt, hshort⟩
    obtain ⟨front, t, call', mid, rfl, htrip', rfl⟩ := exists_trip hv
    obtain ⟨-, htail, hcross⟩ := List.pairwise_append.mp hsorted
    -- the probe at the end of the new cooldown, which lies inside the old one
    have hprobe := hstays front t call' (mid ++ [(s, call)]) post (by simp) htrip'
      (s + (after (front ++ (t, call') :: mid)).cooldown call) ?_ ?_ hshort
    · rw [← List.cons_append, ← List.append_assoc, after_concat, allow_eq_false] at hprobe
      obtain ⟨w, hw, hltw⟩ := hprobe
      rw [openUntil_of_trips htrip] at hw
      obtain rfl := Option.some.inj hw
      exact absurd hltw (Nat.lt_irrefl _)
    · have hle := hcross (t, call') (by simp) (s, call) List.mem_cons_self
      dsimp only at hle
      omega
    · intro e he
      rcases List.mem_append.mp he with he | he
      · have hle := hcross e (by simp [he]) (s, call) List.mem_cons_self
        dsimp only at hle
        omega
      · obtain rfl := List.mem_singleton.mp he
        dsimp only
        omega
  · intro hkeep pre t call mid post heq htrip u htu hmid hu
    -- no call in between moves the end of the cooldown forward
    have hopen : ∃ v, (mid.foldl step ((after pre).step (t, call))).openUntil = some v ∧
        t + (after pre).cooldown call ≤ v := by
      refine open_run ⟨_, openUntil_of_trips htrip, Nat.le_refl _⟩
        (fun e he => Nat.lt_of_le_of_lt (hmid e he) hu) fun front e rest hsplit => ?_
      have hlater := hkeep (pre ++ (t, call) :: front) e (rest ++ post)
        (by rw [heq, hsplit]; simp)
      rwa [after_append, List.foldl_cons] at hlater
    obtain ⟨v, hv, hle⟩ := hopen
    rw [after_append, List.foldl_cons]
    exact allow_eq_false.mpr ⟨v, hv, by omega⟩

/-! ## One configuration -/

theorem backoff_le_succ (round base max : Nat) :
    backoff round base max ≤ backoff (saturatingSucc round) base max := by
  have hpow : 2 ^ min round 16 ≤ 2 ^ min (saturatingSucc round) 16 :=
    Nat.pow_le_pow_right (by decide) (by unfold saturatingSucc; omega)
  have hmul := Nat.mul_le_mul_left base hpow
  unfold backoff
  omega

theorem tripRound_of_trips {s : BreakerState} {now : Nat} {call : BreakerCall}
    (h : s.trips call = true) : (s.step (now, call)).tripRound = saturatingSucc s.tripRound := by
  cases call with
  | allow | healthy => nomatch h
  | unhealthy threshold base max =>
    simp only [step, recordUnhealthy]
    rw [if_pos (of_decide_eq_true h)]

/-- The round moves with a trip, or with the end of the spell. -/
theorem tripRound_of_neither {s : BreakerState} {now : Nat} {call : BreakerCall}
    (htrip : s.trips call = false) (hclose : s.closes call = false) :
    (s.step (now, call)).tripRound = s.tripRound := by
  cases call with
  | allow =>
    simp only [step, allow]
    split
    · split <;> rfl
    · rfl
  | healthy threshold =>
    simp only [step, recordHealthy]
    rw [if_neg (of_decide_eq_false hclose)]
  | unhealthy threshold base max =>
    simp only [step, recordUnhealthy]
    rw [if_neg (of_decide_eq_false htrip)]

/-- With one cooldown configuration, and no healthy report that ends the spell while the breaker is
    open, what is left of a cooldown is no longer than the next one would be. -/
theorem open_le_backoff {base max : Nat} {pre post : List (Nat × BreakerCall)}
    (hconfig : ∀ e ∈ pre ++ post, ∀ threshold b m,
      e.2 = .unhealthy threshold b m → b = base ∧ m = max)
    (hlate : ∀ front e rest v, pre ++ post = front ++ e :: rest →
      (after front).openUntil = some v → e.1 < v → (after front).closes e.2 = false)
    {v now : Nat} (hv : (after pre).openUntil = some v) (htimes : ∀ e ∈ pre, e.1 ≤ now)
    (hnow : now < v) : v ≤ now + durationFromSecs (backoff (after pre).tripRound base max) := by
  induction pre using List.reverseRecOn generalizing post with
  | nil => nomatch hv
  | append_singleton pre e ih =>
    obtain ⟨t, call⟩ := e
    have ht : t ≤ now := htimes (t, call) (by simp)
    rw [after_concat] at hv ⊢
    cases htrip : (after pre).trips call with
    | true =>
      -- this call began the cooldown
      rw [openUntil_of_trips htrip] at hv
      obtain rfl := Option.some.inj hv
      rw [tripRound_of_trips htrip]
      have hcall : (after pre).cooldown call =
          durationFromSecs (backoff (after pre).tripRound base max) := by
        cases call with
        | allow | healthy => nomatch htrip
        | unhealthy threshold b m =>
          obtain ⟨rfl, rfl⟩ := hconfig (t, .unhealthy threshold b m) (by simp) threshold b m rfl
          rfl
      have hmono := durationFromSecs_mono (backoff_le_succ (after pre).tripRound base max)
      omega
    | false =>
      -- an earlier call began it, and this one leaves the round as it is
      rcases openUntil_of_not_trips t htrip with hsame | ⟨hnone, -⟩
      · rw [hsame] at hv
        have hclose : (after pre).closes call = false :=
          hlate pre (t, call) post v (by simp) hv (Nat.lt_of_le_of_lt ht hnow)
        rw [tripRound_of_neither htrip hclose]
        rw [List.append_assoc] at hconfig hlate
        exact ih hconfig hlate hv fun e he => htimes e (by simp [he])
      · rw [hnone] at hv
        nomatch hv

/-- With one cooldown configuration, in a run in which no healthy report ends the spell while the
    breaker is open, trips only ever move the end of a cooldown back. -/
theorem neverShortens_of_one_config (base max : Nat)
    (hconfig : ∀ e ∈ run, ∀ threshold b m, e.2 = .unhealthy threshold b m → b = base ∧ m = max)
    (hlate : ∀ pre e post v, run = pre ++ e :: post → (after pre).openUntil = some v → e.1 < v →
      (after pre).closes e.2 = false)
    (hsorted : run.Pairwise (fun a b => a.1 ≤ b.1)) : NeverShortens run := by
  rintro pre ⟨now, call⟩ post rfl ⟨htrip, v, hv, hnow, hshort⟩
  obtain ⟨-, -, hcross⟩ := List.pairwise_append.mp hsorted
  have hle := open_le_backoff hconfig hlate hv
    (fun e he => hcross e he (now, call) List.mem_cons_self) hnow
  cases call with
  | allow | healthy => nomatch htrip
  | unhealthy threshold b m =>
    obtain ⟨rfl, rfl⟩ := hconfig (now, .unhealthy threshold b m) (by simp) threshold b m rfl
    exact absurd hshort (Nat.not_lt.mpr hle)

end Run

/-! ## A late report -/

/-- A report each second, at thresholds of 1: two trips, a late success, and a late failure. -/
def lateReports : List (Nat × BreakerCall) :=
  [(durationFromSecs 0, .unhealthy 1 2 300), (durationFromSecs 1, .unhealthy 1 2 300),
    (durationFromSecs 2, .healthy 1), (durationFromSecs 2, .unhealthy 1 2 300),
    (durationFromSecs 4, .allow)]

/-- The trip at 1 s is for 4 s, and at 4 s a request is let through. -/
theorem lateReports_probe_early :
    (after (lateReports.take 1)).trips (.unhealthy 1 2 300) = true ∧
    (after (lateReports.take 1)).cooldown (.unhealthy 1 2 300) = durationFromSecs 4 ∧
    ((after (lateReports.take 4)).allow (durationFromSecs 4)).1 = true ∧
    ¬ StaysOpen lateReports := by
  refine ⟨by decide, by decide, by decide, fun h => ?_⟩
  have hprobe := h (lateReports.take 1) (durationFromSecs 1) (.unhealthy 1 2 300)
    [(durationFromSecs 2, .healthy 1), (durationFromSecs 2, .unhealthy 1 2 300)]
    [(durationFromSecs 4, .allow)] rfl (by decide) (durationFromSecs 4) (by decide) (by decide)
    (by decide)
  revert hprobe
  decide

theorem staysOpen_iff_lateReports : StaysOpen lateReports ↔ NeverShortens lateReports :=
  staysOpen_iff (by decide)

end Featherbit
