/-
  THE COOLDOWNS OF A BREAKER, as they are documented (`record_unhealthy`, `traffic/mod.rs`;
  `ApiBreakerPlugin::from_config`, `plugins/native/api_breaker.rs`).

  1. **The documented breaker** (`Tally`) counts without limits: it trips on the configured number of
     consecutive unhealthy responses, and its `k`-th trip since the last full close is for
     `min(max_breaker_sec, break_base_sec * 2^k)` seconds.

  2. **The breaker of the code** is this tally for the thresholds it has after the narrowing, at least one
     (`breaker_tally`); only the round saturates, far behind the exponent's cap.

  3. **The configurations** for which the two are the same, and no instant overflows (`follows_iff`).
-/
import Mathlib
import Featherbit.Lib.TryFold
import Featherbit.Plugins.ApiBreaker

namespace Featherbit

/-- What a breaker is told. -/
inductive BreakerSignal where
  | check
  | healthy
  | unhealthy
deriving DecidableEq

/-! ## The documented breaker -/

/-- Consecutive responses, and trips since the last full close. -/
structure Tally where
  unhealthy : Nat
  healthy : Nat
  trips : Nat
deriving DecidableEq

namespace Tally

def zero : Tally := ⟨0, 0, 0⟩

section Count

variable (failures successes : Nat)

/-- A visit. -/
def step (tally : Tally) : BreakerSignal → Tally
  | .check => tally
  | .healthy =>
    if successes ≤ tally.healthy + 1 then ⟨0, 0, 0⟩ else ⟨0, tally.healthy + 1, tally.trips⟩
  | .unhealthy =>
    if failures ≤ tally.unhealthy + 1 then ⟨0, 0, tally.trips + 1⟩
    else ⟨tally.unhealthy + 1, 0, tally.trips⟩

/-- The visit opens the breaker. -/
def opens (tally : Tally) (visit : BreakerSignal) : Bool :=
  visit = .unhealthy && failures ≤ tally.unhealthy + 1

/-- After some visits. -/
def after (visits : List BreakerSignal) : Tally := visits.foldl (step failures successes) zero

variable {failures successes}

theorem after_concat (visits : List BreakerSignal) (visit : BreakerSignal) :
    after failures successes (visits ++ [visit]) =
      (after failures successes visits).step failures successes visit := List.foldl_concat ..

theorem after_append (visits more : List BreakerSignal) :
    after failures successes (visits ++ more) =
      more.foldl (step failures successes) (after failures successes visits) := List.foldl_append

/-- Unhealthy responses that are too few. -/
theorem foldl_strikes (successes n : Nat) : ∀ tally : Tally, tally.unhealthy + n < failures →
    ((List.replicate n BreakerSignal.unhealthy).foldl (step failures successes) tally).unhealthy =
        tally.unhealthy + n ∧
      ((List.replicate n BreakerSignal.unhealthy).foldl (step failures successes) tally).trips =
        tally.trips := by
  induction n with
  | zero => exact fun tally _ => ⟨rfl, rfl⟩
  | succ n ih =>
    intro tally h
    have hstep : step failures successes tally .unhealthy = ⟨tally.unhealthy + 1, 0, tally.trips⟩ :=
      if_neg (show ¬ failures ≤ tally.unhealthy + 1 by omega)
    rw [List.replicate_succ, List.foldl_cons, hstep]
    obtain ⟨hcount, htrips⟩ := ih ⟨tally.unhealthy + 1, 0, tally.trips⟩
      (show tally.unhealthy + 1 + n < failures by omega)
    refine ⟨hcount.trans ?_, htrips⟩
    show tally.unhealthy + 1 + n = tally.unhealthy + (n + 1)
    omega

/-- Enough of them for a trip. -/
theorem foldl_spell (hpos : 0 < failures) (k : Nat) :
    (List.replicate failures BreakerSignal.unhealthy).foldl (step failures successes) ⟨0, 0, k⟩ =
      ⟨0, 0, k + 1⟩ := by
  obtain ⟨n, rfl⟩ := Nat.exists_eq_succ_of_ne_zero (Nat.pos_iff_ne_zero.mp hpos)
  obtain ⟨hcount, htrips⟩ := foldl_strikes successes n ⟨0, 0, k⟩ (show 0 + n < n + 1 by omega)
  rw [List.replicate_succ', List.foldl_concat]
  generalize (List.replicate n BreakerSignal.unhealthy).foldl _ _ = tally at hcount htrips ⊢
  have hreached : n + 1 ≤ tally.unhealthy + 1 := by
    rw [hcount]
    omega
  simp only [step]
  rw [if_pos hreached, htrips]

/-- Unhealthy responses only: so many trips, and so many responses since the last of them. -/
theorem after_strikes (successes : Nat) (hpos : 0 < failures) (trips : Nat) {rest : Nat}
    (hrest : rest < failures) :
    (after failures successes (List.replicate (trips * failures + rest) .unhealthy)).unhealthy = rest ∧
      (after failures successes (List.replicate (trips * failures + rest) .unhealthy)).trips = trips := by
  have hspells : after failures successes (List.replicate (trips * failures) .unhealthy) =
      ⟨0, 0, trips⟩ := by
    induction trips with
    | zero =>
      rw [Nat.zero_mul]
      rfl
    | succ trips ih =>
      rw [Nat.succ_mul, List.replicate_add, after_append, ih, foldl_spell hpos]
  rw [List.replicate_add, after_append, hspells]
  obtain ⟨hcount, htrips⟩ := foldl_strikes successes rest ⟨0, 0, trips⟩
    (show 0 + rest < failures by omega)
  exact ⟨hcount.trans (Nat.zero_add rest), htrips⟩

/-- Healthy responses that are too few. -/
theorem foldl_recovers (n : Nat) : ∀ h k, h + n < successes →
    (List.replicate n BreakerSignal.healthy).foldl (step failures successes) ⟨0, h, k⟩ =
      ⟨0, h + n, k⟩ := by
  induction n with
  | zero => exact fun h k _ => rfl
  | succ n ih =>
    intro h k hlt
    have hstep : step failures successes ⟨0, h, k⟩ .healthy = ⟨0, h + 1, k⟩ :=
      if_neg (show ¬ successes ≤ h + 1 by omega)
    rw [List.replicate_succ, List.foldl_cons, hstep, ih (h + 1) k (by omega)]
    congr 1
    omega

/-- Enough of them for the breaker to close. -/
theorem foldl_closes (hpos : 0 < successes) (k : Nat) :
    (List.replicate successes BreakerSignal.healthy).foldl (step failures successes) ⟨0, 0, k⟩ =
      zero := by
  obtain ⟨n, rfl⟩ := Nat.exists_eq_succ_of_ne_zero (Nat.pos_iff_ne_zero.mp hpos)
  rw [List.replicate_succ', List.foldl_concat, foldl_recovers n 0 k (by omega)]
  exact if_pos (show n + 1 ≤ 0 + n + 1 by omega)

/-- A trip, some healthy responses, and unhealthy ones that are too few for the next. -/
theorem after_trip_recovers (successes : Nat) (hpos : 0 < failures) (n : Nat) {rest : Nat}
    (hrest : rest < failures) :
    let run := List.replicate failures .unhealthy ++ (List.replicate n .healthy ++
      List.replicate rest .unhealthy)
    (after failures successes run).unhealthy = rest ∧
      (n < successes → (after failures successes run).trips = 1) ∧
      (0 < successes → n = successes → (after failures successes run).trips = 0) := by
  intro run
  have hfirst : after failures successes (List.replicate failures .unhealthy) = ⟨0, 0, 1⟩ :=
    foldl_spell hpos 0
  have hrun : after failures successes run = (List.replicate rest BreakerSignal.unhealthy).foldl
      (step failures successes) ((List.replicate n BreakerSignal.healthy).foldl
        (step failures successes) ⟨0, 0, 1⟩) := by
    show after failures successes (_ ++ (_ ++ _)) = _
    rw [after_append, hfirst, List.foldl_append]
  have hunhealthy : ((List.replicate n BreakerSignal.healthy).foldl
      (step failures successes) ⟨0, 0, 1⟩).unhealthy = 0 := by
    induction n with
    | zero => rfl
    | succ n ih =>
      rw [List.replicate_succ', List.foldl_concat]
      simp only [step]
      split
      · rfl
      · rfl
  obtain ⟨hcount, htrips⟩ := foldl_strikes successes rest _
    (show _ + rest < failures by rw [hunhealthy]; omega)
  rw [hrun]
  refine ⟨by rw [hcount, hunhealthy, Nat.zero_add], fun hlt => ?_, fun hs hn => ?_⟩
  · rw [htrips, foldl_recovers n 0 1 (by omega)]
  · subst hn
    rw [htrips, foldl_closes hs]
    rfl

/-- The count of unhealthy responses does not depend on when the breaker closes. -/
theorem unhealthy_after (successes successes' : Nat) (visits : List BreakerSignal) :
    (after failures successes visits).unhealthy = (after failures successes' visits).unhealthy := by
  induction visits using List.reverseRecOn with
  | nil => rfl
  | append_singleton visits visit ih =>
    rw [after_concat, after_concat]
    cases visit with
    | check => exact ih
    | healthy =>
      simp only [step]
      split
      · split
        · rfl
        · rfl
      · split
        · rfl
        · rfl
    | unhealthy =>
      simp only [step]
      rw [ih]
      split
      · rfl
      · rfl

/-- The counts stay below their thresholds. -/
theorem after_lt (hf : 0 < failures) (hs : 0 < successes) (visits : List BreakerSignal) :
    (after failures successes visits).unhealthy < failures ∧
      (after failures successes visits).healthy < successes := by
  induction visits using List.reverseRecOn with
  | nil => exact ⟨hf, hs⟩
  | append_singleton visits visit ih =>
    rw [after_concat]
    cases visit with
    | check => exact ih
    | healthy =>
      simp only [step]
      split
      · exact ⟨hf, hs⟩
      · exact ⟨hf, by show _ + 1 < _; omega⟩
    | unhealthy =>
      simp only [step]
      split
      · exact ⟨hf, hs⟩
      · exact ⟨by show _ + 1 < _; omega, hs⟩

end Count

end Tally

/-! ## The breaker of the code -/

/-- The call of a visit. -/
def ApiBreakerPlugin.callOf (plugin : ApiBreakerPlugin) : BreakerSignal → BreakerCall
  | .check => .allow
  | .healthy => .healthy plugin.healthySuccesses.toNat
  | .unhealthy => .unhealthy plugin.unhealthyFailures.toNat plugin.breakBaseSec.toNat
      plugin.maxBreakerSec.toNat

/-- The breaker after visits at their times. -/
def ApiBreakerPlugin.breakerAfter (plugin : ApiBreakerPlugin) (run : List (Nat × BreakerSignal)) :
    BreakerState :=
  BreakerState.after (run.map fun visit => (visit.1, plugin.callOf visit.2))

namespace ApiBreakerPlugin

variable (plugin : ApiBreakerPlugin)

/-- The thresholds as they are compared: the counts are at least one when they are. -/
def failures : Nat := max plugin.unhealthyFailures.toNat 1

def successes : Nat := max plugin.healthySuccesses.toNat 1

/-- The tally of the code's thresholds. -/
def tallyAfter (run : List (Nat × BreakerSignal)) : Tally :=
  Tally.after plugin.failures plugin.successes (run.map Prod.snd)

variable {plugin}

theorem failures_pos : 0 < plugin.failures := Nat.lt_of_lt_of_le Nat.one_pos (Nat.le_max_right _ _)

theorem successes_pos : 0 < plugin.successes := Nat.lt_of_lt_of_le Nat.one_pos (Nat.le_max_right _ _)

/-- A count that is not saturated. -/
theorem saturatingSucc_eq {n : Nat} (h : n + 1 < 2 ^ 32) : saturatingSucc n = n + 1 :=
  Nat.min_eq_left (by omega)

/-- Saturation stays. -/
theorem saturatingSucc_min (n : Nat) :
    saturatingSucc (min n (2 ^ 32 - 1)) = min (n + 1) (2 ^ 32 - 1) := by
  unfold saturatingSucc
  generalize 2 ^ 32 - 1 = bound
  omega

/-- Asking leaves the counters. -/
theorem allow_counters (s : BreakerState) (now : Nat) :
    (s.allow now).2.unhealthyCount = s.unhealthyCount ∧ (s.allow now).2.healthyCount = s.healthyCount ∧
      (s.allow now).2.tripRound = s.tripRound := by
  unfold BreakerState.allow
  cases s.openUntil with
  | none => exact ⟨rfl, rfl, rfl⟩
  | some v =>
    dsimp only
    split
    · exact ⟨rfl, rfl, rfl⟩
    · exact ⟨rfl, rfl, rfl⟩

/-- **Refinement.**  The counters of the code are the tally; the round is, up to its saturation. -/
theorem breaker_tally (run : List (Nat × BreakerSignal)) :
    (plugin.breakerAfter run).unhealthyCount = (plugin.tallyAfter run).unhealthy ∧
    (plugin.breakerAfter run).healthyCount = (plugin.tallyAfter run).healthy ∧
    (plugin.breakerAfter run).tripRound = min (plugin.tallyAfter run).trips (2 ^ 32 - 1) := by
  induction run using List.reverseRecOn with
  | nil => exact ⟨rfl, rfl, rfl⟩
  | append_singleton run visit ih =>
    obtain ⟨t, visit⟩ := visit
    obtain ⟨hunhealthy, hhealthy, hround⟩ := ih
    have hf := plugin.unhealthyFailures.toNat_lt
    have hs := plugin.healthySuccesses.toNat_lt
    -- below the thresholds, which are `u32`, the counters do not saturate
    have hlt : (plugin.tallyAfter run).unhealthy < plugin.failures ∧
        (plugin.tallyAfter run).healthy < plugin.successes :=
      Tally.after_lt plugin.failures_pos plugin.successes_pos (run.map Prod.snd)
    have hstate : plugin.breakerAfter (run ++ [(t, visit)]) =
        (plugin.breakerAfter run).step (t, plugin.callOf visit) := by
      unfold breakerAfter
      rw [List.map_append, List.map_singleton, after_concat]
    have htally : plugin.tallyAfter (run ++ [(t, visit)]) =
        (plugin.tallyAfter run).step plugin.failures plugin.successes visit := by
      unfold tallyAfter
      rw [List.map_append, List.map_singleton, Tally.after_concat]
    rw [hstate, htally]
    unfold failures at hlt ⊢
    unfold successes at hlt ⊢
    cases visit with
    | check =>
      obtain ⟨h1, h2, h3⟩ := allow_counters (plugin.breakerAfter run) t
      exact ⟨h1.trans hunhealthy, h2.trans hhealthy, h3.trans hround⟩
    | healthy =>
      have hcount : saturatingSucc (plugin.breakerAfter run).healthyCount =
          (plugin.tallyAfter run).healthy + 1 := by
        rw [hhealthy, saturatingSucc_eq (by omega)]
      simp only [callOf, BreakerState.step, BreakerState.recordHealthy, Tally.step]
      rw [hcount]
      by_cases h : max plugin.healthySuccesses.toNat 1 ≤ (plugin.tallyAfter run).healthy + 1
      · rw [if_pos h, if_pos (by omega)]
        exact ⟨rfl, rfl, rfl⟩
      · rw [if_neg h, if_neg (by omega)]
        exact ⟨rfl, rfl, hround⟩
    | unhealthy =>
      have hcount : saturatingSucc (plugin.breakerAfter run).unhealthyCount =
          (plugin.tallyAfter run).unhealthy + 1 := by
        rw [hunhealthy, saturatingSucc_eq (by omega)]
      simp only [callOf, BreakerState.step, BreakerState.recordUnhealthy, Tally.step]
      rw [hcount, hround]
      by_cases h : max plugin.unhealthyFailures.toNat 1 ≤ (plugin.tallyAfter run).unhealthy + 1
      · rw [if_pos h, if_pos (by omega)]
        exact ⟨rfl, rfl, saturatingSucc_min _⟩
      · rw [if_neg h, if_neg (by omega)]
        exact ⟨rfl, rfl, rfl⟩

/-- The counts of a breaker that reads its thresholds as they are. -/
theorem trips_eq_opens {n m : Nat} (hf : plugin.failures = n)
    (run : List (Nat × BreakerSignal)) (visit : BreakerSignal) :
    (plugin.breakerAfter run).trips (plugin.callOf visit) =
      (Tally.after n m (run.map Prod.snd)).opens n visit := by
  have hlt := (Tally.after_lt plugin.failures_pos plugin.successes_pos (run.map Prod.snd)).1
  have hbits := plugin.unhealthyFailures.toNat_lt
  obtain ⟨hcount, -, -⟩ := plugin.breaker_tally run
  have hsame : (Tally.after plugin.failures plugin.successes (run.map Prod.snd)).unhealthy = _ :=
    Tally.unhealthy_after plugin.successes m (run.map Prod.snd)
  unfold tallyAfter at hcount
  cases visit with
  | check => rfl
  | healthy => rfl
  | unhealthy =>
    unfold failures at hlt
    have hsucc : saturatingSucc (plugin.breakerAfter run).unhealthyCount =
        (Tally.after n m (run.map Prod.snd)).unhealthy + 1 := by
      rw [hcount, saturatingSucc_eq (by unfold failures; omega), hsame, hf]
    have hthreshold : plugin.unhealthyFailures.toNat ≤
        (Tally.after n m (run.map Prod.snd)).unhealthy + 1 ↔
        n ≤ (Tally.after n m (run.map Prod.snd)).unhealthy + 1 := by
      rw [← hf]
      unfold failures
      omega
    show decide (saturatingSucc _ ≥ _) = (true && decide (n ≤ _ + 1))
    rw [hsucc, Bool.true_and]
    exact decide_eq_decide.mpr hthreshold

end ApiBreakerPlugin

/-! ## The configurations -/

/-- What a configuration says of the breaker, with the documented defaults. -/
structure BreakerNumbers where
  failures : Nat
  successes : Nat
  breakBaseSec : Nat
  maxBreakerSec : Nat

def BreakerNumbers.ofConfig (config : HashMap Json) : BreakerNumbers where
  failures :=
    (((config["unhealthy"]?.bind (Json.get "failures")).bind Json.asU64).getD 3).toNat
  successes :=
    (((config["healthy"]?.bind (Json.get "successes")).bind Json.asU64).getD 3).toNat
  breakBaseSec := ((config["break_base_sec"]?.bind Json.asU64).getD 2).toNat
  maxBreakerSec := ((config["max_breaker_sec"]?.bind Json.asU64).getD 300).toNat

/-- The visits are in the order of their times, and none is after `clockEnd`. -/
def SignalsInOrder (clockEnd : Nat) (run : List (Nat × BreakerSignal)) : Prop :=
  run.Pairwise (fun a b => a.1 ≤ b.1) ∧ ∀ visit ∈ run, visit.1 ≤ clockEnd

/-- The breaker does what is documented, whatever it is told up to `clockEnd`: it trips on the configured
    number of consecutive unhealthy responses, for the documented cooldown, and to an instant that is. -/
structure ApiBreakerPlugin.Follows (plugin : ApiBreakerPlugin) (numbers : BreakerNumbers)
    (instantMax clockEnd : Nat) : Prop where
  trips : ∀ run t visit, SignalsInOrder clockEnd (run ++ [(t, visit)]) →
    (plugin.breakerAfter run).trips (plugin.callOf visit) =
      (Tally.after numbers.failures numbers.successes (run.map Prod.snd)).opens numbers.failures visit
  cooldown : ∀ run t visit, SignalsInOrder clockEnd (run ++ [(t, visit)]) →
    (plugin.breakerAfter run).trips (plugin.callOf visit) = true →
    (plugin.breakerAfter run).cooldown (plugin.callOf visit) =
      durationFromSecs (min numbers.maxBreakerSec (numbers.breakBaseSec *
        2 ^ (Tally.after numbers.failures numbers.successes (run.map Prod.snd)).trips))
  instant : ∀ run t visit, SignalsInOrder clockEnd (run ++ [(t, visit)]) →
    (plugin.breakerAfter run).trips (plugin.callOf visit) = true →
    t + (plugin.breakerAfter run).cooldown (plugin.callOf visit) ≤ instantMax

/-- The condition on the numbers. -/
structure BreakerNumbers.Fit (numbers : BreakerNumbers) (instantMax clockEnd : Nat) : Prop where
  failures : numbers.failures < 2 ^ 32
  base : 1 ≤ numbers.breakBaseSec ∧ numbers.breakBaseSec ≤ numbers.maxBreakerSec
  reached : numbers.maxBreakerSec ≤ numbers.breakBaseSec * 2 ^ 16
  successes : numbers.successes < 2 ^ 32 ∨ numbers.breakBaseSec = numbers.maxBreakerSec
  instants : clockEnd + durationFromSecs numbers.maxBreakerSec ≤ instantMax

namespace ApiBreakerPlugin

theorem toNat_max (a b : UInt64) : (max a b).toNat = max a.toNat b.toNat := by
  show (if a ≤ b then b else a).toNat = _
  split
  · rename_i h
    exact (Nat.max_eq_right (UInt64.le_iff_toNat_le.mp h)).symm
  · rename_i h
    exact (Nat.max_eq_left (Nat.le_of_lt (Nat.not_le.mp fun hle => h (UInt64.le_iff_toNat_le.mpr hle)))).symm

/-- What an accepted configuration comes to. -/
theorem fromConfig_numbers {config : HashMap Json} {plugin : ApiBreakerPlugin}
    (h : fromConfig config = .ok plugin) :
    let numbers := BreakerNumbers.ofConfig config
    1 ≤ numbers.failures ∧ 1 ≤ numbers.successes ∧
      plugin.failures = max (numbers.failures % 2 ^ 32) 1 ∧
      plugin.successes = max (numbers.successes % 2 ^ 32) 1 ∧
      plugin.breakBaseSec.toNat = max numbers.breakBaseSec 1 ∧
      plugin.maxBreakerSec.toNat = numbers.maxBreakerSec ∧
      numbers.breakBaseSec < 2 ^ 64 ∧ numbers.maxBreakerSec < 2 ^ 64 := by
  intro numbers
  unfold fromConfig at h
  obtain ⟨role, -, h⟩ := TryFold.bind_eq_ok.mp h
  obtain ⟨id, -, h⟩ := TryFold.bind_eq_ok.mp h
  obtain ⟨unhealthyStatuses, -, h⟩ := TryFold.bind_eq_ok.mp h
  obtain ⟨healthyStatuses, -, h⟩ := TryFold.bind_eq_ok.mp h
  dsimp only at h
  split at h
  · cases h
  rename_i hfailures
  split at h
  · cases h
  rename_i hsuccesses
  split at h
  · cases h
  split at h
  · cases h
  cases h
  have hone : (1 : UInt64).toNat = 1 := rfl
  rw [UInt64.lt_iff_toNat_lt, hone] at hfailures hsuccesses
  refine ⟨Nat.not_lt.mp hfailures, Nat.not_lt.mp hsuccesses, ?_, ?_, ?_, rfl, UInt64.toNat_lt _,
    UInt64.toNat_lt _⟩
  · exact congrArg (max · 1) (UInt64.toNat_toUInt32 _)
  · exact congrArg (max · 1) (UInt64.toNat_toUInt32 _)
  · exact toNat_max _ 1

/-! ## The cooldowns -/

theorem backoff_zero {base max : Nat} (hbase : base < 2 ^ 64) : backoff 0 base max = base := by
  unfold backoff
  simp only [Nat.zero_min, Nat.pow_zero, Nat.mul_one]
  omega

/-- Sixteen doublings are the most. -/
theorem backoff_of_le {round base max : Nat} (h : 16 ≤ round) :
    backoff round base max = backoff 16 base max := by
  unfold backoff
  rw [Nat.min_eq_right h, Nat.min_self]

/-- The documented cooldown, where the base is no more than the ceiling and the ceiling is reached. -/
theorem backoff_eq {base max : Nat} (hbase : base ≤ max) (hmax : max < 2 ^ 64)
    (hreached : max ≤ base * 2 ^ 16) (k : Nat) :
    backoff (min k (2 ^ 32 - 1)) base max = min max (base * 2 ^ k) := by
  unfold backoff
  rw [Nat.max_eq_left hbase]
  by_cases hk : k ≤ 16
  · have hround : min (min k (2 ^ 32 - 1)) 16 = k := by
      norm_num
      omega
    rw [hround]
    generalize base * 2 ^ k = secs
    omega
  · have hround : min (min k (2 ^ 32 - 1)) 16 = 16 := by
      norm_num
      omega
    have hpow : base * 2 ^ 16 ≤ base * 2 ^ k :=
      Nat.mul_le_mul_left base (Nat.pow_le_pow_right (by decide) (by omega))
    rw [hround]
    generalize base * 2 ^ 16 = secs at hreached hpow ⊢
    generalize base * 2 ^ k = more at hpow ⊢
    omega

theorem durationFromSecs_inj {m n : Nat} (h : durationFromSecs m = durationFromSecs n) : m = n :=
  Nat.eq_of_mul_eq_mul_right (by decide) h

/-- The cooldown of a trip, from the tally of the thresholds that the code has. -/
theorem cooldown_eq {plugin : ApiBreakerPlugin} (run : List (Nat × BreakerSignal)) :
    (plugin.breakerAfter run).cooldown (plugin.callOf .unhealthy) =
      durationFromSecs (backoff (min (plugin.tallyAfter run).trips (2 ^ 32 - 1))
        plugin.breakBaseSec.toNat plugin.maxBreakerSec.toNat) := by
  rw [← (breaker_tally run).2.2]
  rfl

end ApiBreakerPlugin

/-! ## The condition -/

section Condition

variable {config : HashMap Json} {plugin : ApiBreakerPlugin} {instantMax clockEnd : Nat}

/-- Visits at the latest time. -/
def lately (clockEnd : Nat) (visits : List BreakerSignal) : List (Nat × BreakerSignal) :=
  visits.map (clockEnd, ·)

theorem inOrder_lately (visits : List BreakerSignal) (visit : BreakerSignal) :
    SignalsInOrder clockEnd (lately clockEnd visits ++ [(clockEnd, visit)]) := by
  have htime : ∀ e ∈ lately clockEnd visits ++ [(clockEnd, visit)], e.1 = clockEnd := by
    intro e he
    rcases List.mem_append.mp he with he | he
    · obtain ⟨v, -, rfl⟩ := List.mem_map.mp he
      rfl
    · rw [List.mem_singleton.mp he]
  refine ⟨?_, fun e he => Nat.le_of_eq (htime e he)⟩
  refine List.pairwise_of_forall_mem_list fun a ha b hb => ?_
  rw [htime a ha, htime b hb]

theorem map_snd_lately (visits : List BreakerSignal) :
    (lately clockEnd visits).map Prod.snd = visits := by
  unfold lately
  rw [List.map_map]
  exact List.map_id visits

namespace ApiBreakerPlugin

/-- A breaker that follows the numbers reads its threshold as it is. -/
theorem Follows.failures_lt {numbers : BreakerNumbers} (h : plugin.Follows numbers instantMax clockEnd)
    (hf : plugin.failures = max (numbers.failures % 2 ^ 32) 1) : numbers.failures < 2 ^ 32 := by
  by_contra hlarge
  have hpos := plugin.failures_pos
  -- as many as the code counts to, which are too few
  have hstrikes := h.trips (lately clockEnd (List.replicate (plugin.failures - 1) .unhealthy)) clockEnd
    .unhealthy (inOrder_lately _ _)
  rw [trips_eq_opens (m := numbers.successes) rfl, map_snd_lately] at hstrikes
  have hcode := (Tally.after_strikes numbers.successes hpos 0
    (show plugin.failures - 1 < plugin.failures by omega)).1
  have hdoc := (Tally.after_strikes numbers.successes (show 0 < numbers.failures by omega) 0
    (show plugin.failures - 1 < numbers.failures by omega)).1
  rw [Nat.zero_mul, Nat.zero_add] at hcode hdoc
  unfold Tally.opens at hstrikes
  rw [hcode, hdoc, decide_eq_true (show plugin.failures ≤ plugin.failures - 1 + 1 by omega),
    decide_eq_false (show ¬ numbers.failures ≤ plugin.failures - 1 + 1 by omega)] at hstrikes
  exact absurd hstrikes (by decide)

/-- The cooldown of a run that ends in a trip. -/
theorem Follows.backoff_eq {numbers : BreakerNumbers} (h : plugin.Follows numbers instantMax clockEnd)
    {visits : List BreakerSignal}
    (hvisits : (Tally.after plugin.failures plugin.successes visits).unhealthy + 1 = plugin.failures) :
    backoff (min (Tally.after plugin.failures plugin.successes visits).trips (2 ^ 32 - 1))
        plugin.breakBaseSec.toNat plugin.maxBreakerSec.toNat =
      min numbers.maxBreakerSec (numbers.breakBaseSec *
        2 ^ (Tally.after numbers.failures numbers.successes visits).trips) ∧
    clockEnd + durationFromSecs (min numbers.maxBreakerSec (numbers.breakBaseSec *
        2 ^ (Tally.after numbers.failures numbers.successes visits).trips)) ≤ instantMax := by
  have htrips : (plugin.breakerAfter (lately clockEnd visits)).trips (plugin.callOf .unhealthy) =
      true := by
    rw [trips_eq_opens (m := plugin.successes) rfl, map_snd_lately]
    unfold Tally.opens
    rw [hvisits, decide_eq_true (Nat.le_refl _)]
    rfl
  have hcooldown := h.cooldown _ clockEnd .unhealthy (inOrder_lately visits .unhealthy) htrips
  have hinstant := h.instant _ clockEnd .unhealthy (inOrder_lately visits .unhealthy) htrips
  rw [hcooldown, map_snd_lately] at hinstant
  rw [cooldown_eq, map_snd_lately] at hcooldown
  refine ⟨?_, hinstant⟩
  have hsecs := durationFromSecs_inj hcooldown
  unfold tallyAfter at hsecs
  rw [map_snd_lately] at hsecs
  exact hsecs

/-- A breaker that follows its numbers has numbers that fit. -/
theorem Follows.fit (hconfig : fromConfig config = .ok plugin)
    (h : plugin.Follows (.ofConfig config) instantMax clockEnd) :
    (BreakerNumbers.ofConfig config).Fit instantMax clockEnd := by
  obtain ⟨hfailures, hsuccesses, hf, hs, hbase, hmax, hbase64, hmax64⟩ := fromConfig_numbers hconfig
  generalize BreakerNumbers.ofConfig config = numbers at *
  have hlt := h.failures_lt hf
  replace hf : plugin.failures = numbers.failures := by omega
  -- the cooldown of the `k`-th trip
  have hladder : ∀ k, backoff (min k (2 ^ 32 - 1)) (max numbers.breakBaseSec 1) numbers.maxBreakerSec =
        min numbers.maxBreakerSec (numbers.breakBaseSec * 2 ^ k) ∧
      clockEnd + durationFromSecs (min numbers.maxBreakerSec (numbers.breakBaseSec * 2 ^ k)) ≤
        instantMax := by
    intro k
    have hpos := plugin.failures_pos
    obtain ⟨hcount, htrips⟩ := Tally.after_strikes plugin.successes hpos k
      (show plugin.failures - 1 < plugin.failures by omega)
    obtain ⟨-, hdoc⟩ := Tally.after_strikes numbers.successes hpos k
      (show plugin.failures - 1 < plugin.failures by omega)
    have hsecs := h.backoff_eq (show (Tally.after _ _ (List.replicate _ _)).unhealthy + 1 = _ by
      rw [hcount]; omega)
    rw [← hf, htrips, hdoc, hbase, hmax] at hsecs
    exact hsecs
  have hfirst : numbers.breakBaseSec = max numbers.breakBaseSec 1 ∧
      numbers.breakBaseSec ≤ numbers.maxBreakerSec := by
    have hzero := (hladder 0).1
    rw [Nat.zero_min, backoff_zero (by omega), Nat.pow_zero, Nat.mul_one] at hzero
    omega
  obtain ⟨hone, hle⟩ := hfirst
  rw [← hone] at hladder
  have hreached : numbers.maxBreakerSec ≤ numbers.breakBaseSec * 2 ^ 16 := by
    have hlast := (hladder 17).1
    rw [Nat.min_eq_left (by decide), backoff_of_le (by decide)] at hlast
    unfold backoff at hlast
    rw [Nat.min_self] at hlast
    omega
  refine ⟨hlt, ⟨by omega, hle⟩, hreached, ?_, ?_⟩
  · by_contra hboth
    obtain ⟨hlarge, hne⟩ := not_or.mp hboth
    -- the code closes after fewer healthy responses than are configured
    have hpos := plugin.failures_pos
    obtain ⟨hcount, -, htrips⟩ := Tally.after_trip_recovers plugin.successes hpos
      plugin.successes (show plugin.failures - 1 < plugin.failures by omega)
    obtain ⟨-, hdoc, -⟩ := Tally.after_trip_recovers numbers.successes hpos
      plugin.successes (show plugin.failures - 1 < plugin.failures by omega)
    have hsecs := (h.backoff_eq (by rw [hcount]; omega)).1
    rw [← hf, htrips successes_pos rfl, hdoc (by omega), hbase, hmax, ← hone, Nat.zero_min,
      backoff_zero hbase64] at hsecs
    omega
  · have hlast := (hladder 16).2
    rwa [Nat.min_eq_left hreached] at hlast

/-- **The cooldowns.**  Up to `clockEnd` an accepted breaker does what is documented exactly when its
    thresholds and seconds fit: a number of failures that a `u32` holds, a base that is at least one second
    and at most the ceiling, a ceiling that sixteen doublings reach and that ends by the last instant, and a
    number of successes that a `u32` holds, unless every cooldown is the same. -/
theorem follows_iff (hconfig : fromConfig config = .ok plugin) (instantMax clockEnd : Nat) :
    plugin.Follows (.ofConfig config) instantMax clockEnd ↔
      (BreakerNumbers.ofConfig config).Fit instantMax clockEnd := by
  refine ⟨Follows.fit hconfig, fun hfit => ?_⟩
  obtain ⟨hfailures, hsuccesses, hf, hs, hbase, hmax, hbase64, hmax64⟩ := fromConfig_numbers hconfig
  generalize BreakerNumbers.ofConfig config = numbers at *
  obtain ⟨hlt, ⟨hone, hle⟩, hreached, hm, hinstants⟩ := hfit
  replace hf : plugin.failures = numbers.failures := by omega
  replace hbase : plugin.breakBaseSec.toNat = numbers.breakBaseSec := by omega
  have hcooldown : ∀ run : List (Nat × BreakerSignal),
      (plugin.breakerAfter run).cooldown (plugin.callOf .unhealthy) =
        durationFromSecs (min numbers.maxBreakerSec (numbers.breakBaseSec *
          2 ^ (Tally.after numbers.failures numbers.successes (run.map Prod.snd)).trips)) := by
    intro run
    rw [cooldown_eq, hbase, hmax, ApiBreakerPlugin.backoff_eq hle hmax64 hreached]
    congr 1
    rcases hm with hm | hm
    · have hsame : plugin.successes = numbers.successes := by omega
      unfold tallyAfter
      rw [hf, hsame]
    · rw [hm, Nat.min_eq_left (Nat.le_mul_of_pos_right _ (Nat.two_pow_pos _)),
        Nat.min_eq_left (Nat.le_mul_of_pos_right _ (Nat.two_pow_pos _))]
  refine ⟨fun run t visit _ => trips_eq_opens hf run visit, fun run t visit _ htrips => ?_,
    fun run t visit htime htrips => ?_⟩
  · cases visit with
    | check => nomatch htrips
    | healthy => nomatch htrips
    | unhealthy => exact hcooldown run
  · cases visit with
    | check => nomatch htrips
    | healthy => nomatch htrips
    | unhealthy =>
      have ht : t ≤ clockEnd := htime.2 (t, .unhealthy) (by simp)
      have hsecs : (plugin.breakerAfter run).cooldown (plugin.callOf .unhealthy) ≤
          durationFromSecs numbers.maxBreakerSec := by
        rw [hcooldown]
        exact durationFromSecs_mono (Nat.min_le_left _ _)
      omega

end ApiBreakerPlugin

end Condition

/-! ## Two configurations -/

/-- The keys a check node needs. -/
def breakerConfig : HashMap Json :=
  ((∅ : HashMap Json).insert "phase" (.string "check")).insert "id" (.string "orders")

/-- The defaults, in the first year of the clock. -/
theorem follows_iff_defaults :
    ∃ plugin, ApiBreakerPlugin.fromConfig breakerConfig = .ok plugin ∧
      plugin.Follows (.ofConfig breakerConfig) unixInstantMax (durationFromSecs 31536000) := by
  refine ⟨_, rfl, (ApiBreakerPlugin.follows_iff rfl _ _).mpr ?_⟩
  exact ⟨by decide, by decide, by decide, by decide, by decide⟩

/-- A threshold that a `u32` does not hold is one response, and a base above the ceiling is not held
    down. -/
theorem accepted_not_follows :
    let manyFailures := breakerConfig.insert "unhealthy"
      (.object [("failures", .number (.posInt 4294967296))])
    let longBase := (breakerConfig.insert "break_base_sec" (.number (.posInt 100))).insert
      "max_breaker_sec" (.number (.posInt 3))
    (∃ plugin, ApiBreakerPlugin.fromConfig manyFailures = .ok plugin ∧
      ¬ plugin.Follows (.ofConfig manyFailures) unixInstantMax (durationFromSecs 31536000)) ∧
    ∃ plugin, ApiBreakerPlugin.fromConfig longBase = .ok plugin ∧
      ¬ plugin.Follows (.ofConfig longBase) unixInstantMax (durationFromSecs 31536000) := by
  intro manyFailures longBase
  have haccepted : ∀ config, (ApiBreakerPlugin.fromConfig config).isOk = true →
      ∃ plugin, ApiBreakerPlugin.fromConfig config = .ok plugin := by
    intro config hok
    cases hplugin : ApiBreakerPlugin.fromConfig config with
    | ok plugin => exact ⟨plugin, rfl⟩
    | error e =>
      rw [hplugin] at hok
      cases hok
  obtain ⟨many, hmany⟩ := haccepted manyFailures (by decide +kernel)
  obtain ⟨long, hlong⟩ := haccepted longBase (by decide +kernel)
  refine ⟨⟨many, hmany, fun h => ?_⟩, ⟨long, hlong, fun h => ?_⟩⟩
  · exact absurd (h.fit hmany).failures (by decide +kernel)
  · exact absurd (h.fit hlong).base (by decide +kernel)

end Featherbit
