/-
  HOW MANY PROBES does a half-open breaker let through?

  The half-open state has no field of its own: the first check after the cooldown clears
  `open_until`, and from then on `allow` answers as if the breaker were closed.  So between the end
  of a cooldown and the next recorded outcome every check is admitted (`admitted_eq`), and there is
  a single probe iff a single check comes (`singleProbe_iff`).
-/
import Featherbit.Plugins.ApiBreaker

namespace Featherbit

/-- A request at a node of some breaker. -/
structure BreakerVisit where
  plugin : ApiBreakerPlugin
  ctx : Context
  now : Nat

namespace BreakerVisit

/-- The visit asks the breaker of the id. -/
def Checks (id : String) (visit : BreakerVisit) : Prop :=
  visit.plugin.id = id ∧ visit.plugin.role = .check

instance (id : String) : DecidablePred (Checks id) :=
  fun _ => inferInstanceAs (Decidable (_ ∧ _))

/-- The visit records an outcome for the breaker of the id. -/
def Records (id : String) (visit : BreakerVisit) : Prop :=
  visit.plugin.id = id ∧ visit.plugin.role = .observe ∧
    (visit.ctx.response.statusCode ∈ visit.plugin.unhealthyStatuses ∨
      visit.ctx.response.statusCode ∈ visit.plugin.healthyStatuses)

/-- The node's answer, and the breakers after it. -/
def serve (visit : BreakerVisit) (breakers : BreakerRegistry) : PluginResult × BreakerRegistry :=
  visit.plugin.execute visit.ctx visit.now breakers

end BreakerVisit

open BreakerVisit

/-- The breakers after some visits. -/
def breakersAfter (visits : List BreakerVisit) : BreakerRegistry :=
  visits.foldl (fun breakers visit => (visit.serve breakers).2) ∅

/-- The checks of a breaker that are let through. -/
def admitted (id : String) : BreakerRegistry → List BreakerVisit → List BreakerVisit
  | _, [] => []
  | breakers, visit :: visits =>
    let (result, breakers) := visit.serve breakers
    if visit.Checks id ∧ result.isOk then visit :: admitted id breakers visits
    else admitted id breakers visits

/-- Once a cooldown of the breaker is over, at most one request is admitted until an outcome is
    recorded for it. -/
def SingleProbe (id : String) (run : List BreakerVisit) : Prop :=
  ∀ pre mid post «until», run = pre ++ (mid ++ post) →
    ((breakersAfter pre).breaker id).openUntil = some «until» → (∀ v ∈ mid, ¬ v.Records id) →
    (admitted id (breakersAfter pre) mid).length ≤ 1

section Run

variable {id : String} {breakers : BreakerRegistry} {visit : BreakerVisit}
  {visits mid : List BreakerVisit}

/-- A visit that records nothing leaves the breaker, unless it is a check. -/
theorem breaker_of_not_records (breakers : BreakerRegistry) (hrecords : ¬ visit.Records id) (hchecks : ¬ visit.Checks id) :
    BreakerRegistry.breaker (visit.serve breakers).2 id = breakers.breaker id := by
  unfold serve
  rw [ApiBreakerPlugin.execute_breaker]
  by_cases hid : visit.plugin.id = id
  · have hrole : visit.plugin.role = .observe := by
      cases h : visit.plugin.role with
      | check => exact absurd ⟨hid, h⟩ hchecks
      | observe => rfl
    have hcall : visit.plugin.call visit.ctx = none := by
      unfold ApiBreakerPlugin.call
      rw [hrole]
      dsimp only
      rw [if_neg fun h => hrecords ⟨hid, hrole, Or.inl h⟩,
        if_neg fun h => hrecords ⟨hid, hrole, Or.inr h⟩]
    rw [if_pos hid, hcall]
    rfl
  · rw [if_neg hid]

/-- What a check does, and whether it is let through. -/
theorem serve_check (breakers : BreakerRegistry) (hchecks : visit.Checks id) :
    (visit.serve breakers).1.isOk = ((breakers.breaker id).allow visit.now).1 ∧
      BreakerRegistry.breaker (visit.serve breakers).2 id =
        ((breakers.breaker id).allow visit.now).2 := by
  obtain ⟨rfl, hrole⟩ := hchecks
  refine ⟨ApiBreakerPlugin.execute_check hrole, ?_⟩
  unfold serve
  rw [ApiBreakerPlugin.execute_breaker, if_pos rfl, ApiBreakerPlugin.call, hrole]
  rfl

/-- Without an outcome, a breaker with no cooldown pending admits every check. -/
theorem admitted_of_none (hnone : (breakers.breaker id).openUntil = none)
    (hrecords : ∀ v ∈ mid, ¬ v.Records id) :
    admitted id breakers mid = mid.filter fun v => decide (v.Checks id) := by
  induction mid generalizing breakers with
  | nil => rfl
  | cons visit mid ih =>
    have hrest : ∀ v ∈ mid, ¬ v.Records id := fun v hv => hrecords v (List.mem_cons_of_mem _ hv)
    rw [admitted]
    dsimp only
    by_cases hchecks : visit.Checks id
    · obtain ⟨hok, hafter⟩ := serve_check breakers hchecks
      have hallow : (breakers.breaker id).allow visit.now = (true, breakers.breaker id) := by
        unfold BreakerState.allow
        rw [hnone]
      rw [hallow] at hok hafter
      rw [if_pos ⟨hchecks, hok⟩, List.filter_cons_of_pos (by simp [hchecks]),
        ih (by rw [hafter]; exact hnone) hrest]
    · have hafter := breaker_of_not_records breakers
        (hrecords visit List.mem_cons_self) hchecks
      rw [if_neg fun h => hchecks h.1, List.filter_cons_of_neg (by simp [hchecks]),
        ih (by rw [hafter]; exact hnone) hrest]

/-- **Every check after the cooldown is admitted**, up to the next outcome. -/
theorem admitted_eq {«until» : Nat} (hopen : (breakers.breaker id).openUntil = some «until»)
    (hrecords : ∀ v ∈ mid, ¬ v.Records id) (hsorted : mid.Pairwise fun v w => v.now ≤ w.now) :
    admitted id breakers mid = mid.filter fun v => decide (v.Checks id ∧ «until» ≤ v.now) := by
  induction mid generalizing breakers with
  | nil => rfl
  | cons visit mid ih =>
    have hrest : ∀ v ∈ mid, ¬ v.Records id := fun v hv => hrecords v (List.mem_cons_of_mem _ hv)
    obtain ⟨hlater, hsorted⟩ := List.pairwise_cons.mp hsorted
    rw [admitted]
    dsimp only
    by_cases hchecks : visit.Checks id
    · obtain ⟨hok, hafter⟩ := serve_check breakers hchecks
      rcases Nat.lt_or_ge visit.now «until» with hlt | hge
      · -- still open: the check is refused and changes nothing
        have hallow : (breakers.breaker id).allow visit.now = (false, breakers.breaker id) := by
          unfold BreakerState.allow
          rw [hopen]
          exact if_pos hlt
        rw [hallow] at hok hafter
        rw [if_neg (by rw [hok]; simp), List.filter_cons_of_neg (by simp [Nat.not_le.mpr hlt]),
          ih (by rw [hafter]; exact hopen) hrest hsorted]
      · -- the probe: it clears `open_until`, and whoever comes next finds the breaker closed
        have hallow : (breakers.breaker id).allow visit.now =
            (true, { breakers.breaker id with openUntil := none }) := by
          unfold BreakerState.allow
          rw [hopen]
          exact if_neg (Nat.not_lt.mpr hge)
        rw [hallow] at hok hafter
        rw [if_pos ⟨hchecks, hok⟩, List.filter_cons_of_pos (by simp [hchecks, hge]),
          admitted_of_none (by rw [hafter]) hrest]
        -- later checks come after the cooldown as well
        congr 1
        refine List.filter_congr fun v hv => ?_
        have hv := hlater v hv
        simp [show «until» ≤ v.now by omega]
    · have hafter := breaker_of_not_records breakers
        (hrecords visit List.mem_cons_self) hchecks
      rw [if_neg fun h => hchecks h.1, List.filter_cons_of_neg (by simp [hchecks]),
        ih (by rw [hafter]; exact hopen) hrest hsorted]

/-- **When a single probe is let through.**  In every run of visits, in the order in which they lock
    the breaker: at most one request is admitted between the end of a cooldown and the next recorded
    outcome iff at most one check comes there. -/
theorem singleProbe_iff {run : List BreakerVisit}
    (hsorted : run.Pairwise fun v w => v.now ≤ w.now) :
    SingleProbe id run ↔ ∀ pre mid post «until», run = pre ++ (mid ++ post) →
      ((breakersAfter pre).breaker id).openUntil = some «until» → (∀ v ∈ mid, ¬ v.Records id) →
      (mid.filter fun v => decide (v.Checks id ∧ «until» ≤ v.now)).length ≤ 1 := by
  have hcount : ∀ pre mid post «until», run = pre ++ (mid ++ post) →
      ((breakersAfter pre).breaker id).openUntil = some «until» → (∀ v ∈ mid, ¬ v.Records id) →
      admitted id (breakersAfter pre) mid =
        mid.filter fun v => decide (v.Checks id ∧ «until» ≤ v.now) := by
    -- the visits in between are in order because the whole run is
    rintro pre mid post «until» rfl hopen hrecords
    obtain ⟨-, htail, -⟩ := List.pairwise_append.mp hsorted
    exact admitted_eq hopen hrecords (List.pairwise_append.mp htail).1
  constructor
  · intro h pre mid post «until» heq hopen hrecords
    rw [← hcount pre mid post «until» heq hopen hrecords]
    exact h pre mid post «until» heq hopen hrecords
  · intro h pre mid post «until» heq hopen hrecords
    rw [hcount pre mid post «until» heq hopen hrecords]
    exact h pre mid post «until» heq hopen hrecords

end Run

/-! ## Two checks after a cooldown -/

/-- The pair of `orders-api`, which opens at the first failure. -/
def ordersConfig (phase : String) : HashMap Json :=
  (∅ : HashMap Json).insert "phase" (.string phase)
    |>.insert "id" (.string "orders-api")
    |>.insert "unhealthy" (.object [("failures", .number (.posInt 1))])

/-- A node of that pair. -/
def ordersNode (role : BreakerRole) : ApiBreakerPlugin where
  role := role
  id := "orders-api"
  unhealthyStatuses := [500]
  unhealthyFailures := 1
  healthyStatuses := [200]
  healthySuccesses := 3
  breakBaseSec := 2
  maxBreakerSec := 300
  breakResponseCode := 502
  breakResponseBody := none

/-- A context whose response has a status. -/
def contextWithStatus (status : UInt16) : Context :=
  { Context.new default with response := { statusCode := status, headers := ∅, body := [] } }

/-- A failure at 0 s opens the breaker for 2 s; two requests come after that. -/
def twoProbes : List BreakerVisit :=
  [⟨ordersNode .observe, contextWithStatus 500, durationFromSecs 0⟩,
    ⟨ordersNode .check, contextWithStatus 0, durationFromSecs 2⟩,
    ⟨ordersNode .check, contextWithStatus 0, durationFromSecs 3⟩]

theorem singleProbe_iff_twoProbes :
    SingleProbe "orders-api" twoProbes ↔ ∀ pre mid post «until», twoProbes = pre ++ (mid ++ post) →
      ((breakersAfter pre).breaker "orders-api").openUntil = some «until» →
      (∀ v ∈ mid, ¬ v.Records "orders-api") →
      (mid.filter fun v => decide (v.Checks "orders-api" ∧ «until» ≤ v.now)).length ≤ 1 :=
  singleProbe_iff (by simp [twoProbes, durationFromSecs])

/-- Both requests are admitted, and no outcome was recorded in between. -/
theorem twoProbes_admitted :
    ApiBreakerPlugin.fromConfig (ordersConfig "check") = .ok (ordersNode .check) ∧
    ApiBreakerPlugin.fromConfig (ordersConfig "observe") = .ok (ordersNode .observe) ∧
    ((breakersAfter (twoProbes.take 1)).breaker "orders-api").openUntil =
      some (durationFromSecs 2) ∧
    ¬ SingleProbe "orders-api" twoProbes := by
  have hopen : ((breakersAfter (twoProbes.take 1)).breaker "orders-api").openUntil =
      some (durationFromSecs 2) := by decide
  refine ⟨rfl, rfl, hopen, fun h => ?_⟩
  have hsingle := h (twoProbes.take 1) (twoProbes.drop 1) [] _ rfl hopen ?_
  · rw [show admitted "orders-api" (breakersAfter (twoProbes.take 1)) (twoProbes.drop 1) =
      twoProbes.drop 1 from rfl] at hsingle
    revert hsingle
    decide
  · intro v hv hrecords
    have hchecks : ∀ v ∈ twoProbes.drop 1, v.plugin.role = .check := by decide
    rw [BreakerVisit.Records, hchecks v hv] at hrecords
    cases hrecords.2.1

end Featherbit
