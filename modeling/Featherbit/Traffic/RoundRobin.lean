/-
  ROUND ROBIN (`balancer.rs`): how evenly the targets are picked.

  The cursor goes up by one with every selection and wraps at `2 ^ 64`; whatever else happens between
  two selections leaves it alone (`step_cursor`).  So a run picks the residues of consecutive values of
  the cursor (`picks_eq`), and how often each comes is a matter of counting (`Lib.CyclicCount`).

  Where the number of targets does not divide `2 ^ 64`, the lap before the wrap is not a whole one, and
  the first target may come twice in a row.
-/
import Featherbit.Lib.CyclicCount
import Featherbit.Traffic.Balancer

namespace Featherbit

namespace Balancer

section Picks

variable [DefaultHasher] (balancer : Balancer)

/-- The target a step selects at once, in the state it leads to. -/
def pickOf (s' : BalancerState) : BalancerEvent → Option Nat
  | .select task _ => (s'.tasks task).result balancer.len
  | .load _ | .acquire _ | .drop _ => none

/-- The targets a run selects at once, in order. -/
def picks : List BalancerEvent → BalancerState → Option (List Nat)
  | [], _ => some []
  | e :: events, s => (step balancer s e).bind fun s' =>
      (picks events s').map ((pickOf balancer s' e).toList ++ ·)

end Picks

/-- No two targets were picked a different number of times, give or take one. -/
def FairPicks (targets : Nat) (picks : List Nat) : Prop :=
  CyclicCount.Even targets fun idx => picks.count idx

/-- Where a run of `m` picks from `cursor` on is fair.  It passes the wrap `(cursor + m) / 2 ^ 64` times;
    each time it leaves out the targets from `2 ^ 64 % targets` on. -/
def FairFrom (targets : Nat) (cursor : UInt64) (m : Nat) : Prop :=
  CyclicCount.EvenSteps ((cursor.toNat + m) / 2 ^ 64) (2 ^ 64 % targets)
    ((cursor.toNat + m) % 2 ^ 64 % targets) (cursor.toNat % targets)

instance (targets : Nat) (cursor : UInt64) (m : Nat) : Decidable (FairFrom targets cursor m) := by
  unfold FairFrom
  infer_instance

section RoundRobin

variable [DefaultHasher] {balancer : Balancer} {s s' : BalancerState} {e : BalancerEvent}

/-- A selection takes the cursor's value and moves it on; nothing else touches it. -/
theorem step_cursor (hstrategy : balancer.strategy = .roundRobin) (h : balancer.step s e = some s') :
    (s'.counter = s.counter + 1 ∧ balancer.pickOf s' e = some (s.counter.toNat % balancer.len)) ∨
      (s'.counter = s.counter ∧ balancer.pickOf s' e = none) := by
  unfold step at h
  cases e with
  | select task remoteAddr =>
    rw [hstrategy] at h
    rw [← Option.some.inj h]
    refine Or.inl ⟨rfl, ?_⟩
    show (Function.update s.tasks task _ task).result balancer.len = _
    rw [Function.update_self]
    rfl
  | load task =>
    right
    dsimp only at h
    split at h
    · obtain ⟨count, -, rfl⟩ := Option.map_eq_some_iff.mp h
      exact ⟨rfl, rfl⟩
    · cases h
  | acquire task =>
    obtain ⟨idx, -, rfl⟩ := Option.map_eq_some_iff.mp h
    exact Or.inr ⟨rfl, rfl⟩
  | drop idx =>
    right
    dsimp only at h
    split at h
    · rw [← Option.some.inj h]
      exact ⟨rfl, rfl⟩
    · cases h

/-- **The run.**  What is picked are the residues of the cursor's values. -/
theorem picks_eq (hstrategy : balancer.strategy = .roundRobin) {events : List BalancerEvent}
    {picked : List Nat} (h : balancer.picks events s = some picked) :
    picked = (List.range picked.length).map
      fun i => (s.counter.toNat + i) % 2 ^ 64 % balancer.len := by
  induction events generalizing s picked with
  | nil =>
    rw [← Option.some.inj h]
    rfl
  | cons e events ih =>
    obtain ⟨s', hstep, hrest⟩ := Option.bind_eq_some_iff.mp h
    obtain ⟨later, hlater, rfl⟩ := Option.map_eq_some_iff.mp hrest
    have hwrapped := ih hlater
    rcases step_cursor hstrategy hstep with ⟨hcounter, hpick⟩ | ⟨hcounter, hpick⟩
    · have hnext : ∀ i, (s'.counter.toNat + i) % 2 ^ 64 = (s.counter.toNat + (i + 1)) % 2 ^ 64 := by
        intro i
        rw [hcounter, UInt64.toNat_add]
        show ((s.counter.toNat + 1) % 2 ^ 64 + i) % 2 ^ 64 = _
        omega
      have hnow : s.counter.toNat % 2 ^ 64 = s.counter.toNat :=
        Nat.mod_eq_of_lt s.counter.toNat_lt
      rw [hpick, Option.toList_some, List.singleton_append, List.length_cons, List.range_succ_eq_map,
        List.map_cons, List.map_map, Nat.add_zero, hnow]
      congr 1
      rw [hwrapped, List.length_map, List.length_range]
      refine List.map_congr_left fun i _ => ?_
      rw [hnext i]
      rfl
    · rw [hpick, Option.toList_none, List.nil_append]
      rw [hcounter] at hwrapped
      exact hwrapped

/-- How often a target was picked. -/
theorem count_picks (hstrategy : balancer.strategy = .roundRobin) {events : List BalancerEvent}
    {picked : List Nat} (h : balancer.picks events s = some picked) (idx : Nat) :
    picked.count idx = Nat.count
      (fun i => (s.counter.toNat + i) % 2 ^ 64 % balancer.len = idx) picked.length := by
  conv_lhs => rw [picks_eq hstrategy h]
  rw [List.count_eq_countP, List.countP_map]
  refine List.countP_congr fun i _ => ?_
  show ((s.counter.toNat + i) % 2 ^ 64 % balancer.len == idx) = true ↔ _
  rw [beq_iff_eq, decide_eq_true_eq]

/-- **Fairness.**  In every run, from any value of the cursor and with anything between the selections:
    the counts of any two targets differ by at most one exactly where `FairFrom` says so. -/
theorem roundRobin_fair_iff (hstrategy : balancer.strategy = .roundRobin)
    {events : List BalancerEvent} {picked : List Nat}
    (h : balancer.picks events s = some picked) :
    FairPicks balancer.len picked ↔ FairFrom balancer.len s.counter picked.length := by
  unfold FairPicks
  rw [funext (count_picks hstrategy h)]
  exact CyclicCount.even_residues_iff len_pos s.counter.toNat_lt

end RoundRobin

/-! ## Past the wrap -/

/-- A pool of three. -/
def trio : Balancer where
  targets := [⟨"backend-0", 3000⟩, ⟨"backend-1", 3000⟩, ⟨"backend-2", 3000⟩]
  strategy := .roundRobin
  targets_ne_nil := by decide

/-- The cursor before its last value is handed out. -/
def beforeWrap : BalancerState := { trio.start with counter := 18446744073709551615 }

/-- Four picks in a row from the start, and a guard taken between them. -/
theorem roundRobin_fair_four :
    let _ : DefaultHasher := ⟨fun _ => 0⟩
    trio.picks [.select 1 "10.0.0.1:1111", .select 2 "10.0.0.2:2222", .acquire 1,
        .select 1 "10.0.0.1:1111", .select 3 "10.0.0.3:3333"] trio.start = some [0, 1, 2, 0] ∧
      FairPicks 3 [0, 1, 2, 0] := by
  intro _
  have hpicks : trio.picks [.select 1 "10.0.0.1:1111", .select 2 "10.0.0.2:2222", .acquire 1,
      .select 1 "10.0.0.1:1111", .select 3 "10.0.0.3:3333"] trio.start = some [0, 1, 2, 0] := by
    decide
  exact ⟨hpicks, (roundRobin_fair_iff rfl hpicks).mpr (by decide)⟩

/-- The first target comes twice in a row, and the other two not at all. -/
theorem roundRobin_unfair_at_wrap :
    let _ : DefaultHasher := ⟨fun _ => 0⟩
    trio.picks [.select 1 "10.0.0.1:1111", .select 2 "10.0.0.2:2222"] beforeWrap = some [0, 0] ∧
      ¬ FairPicks 3 [0, 0] := by
  intro _
  refine ⟨by decide, fun hfair => ?_⟩
  have hle := hfair 0 (by decide) 1 (by decide)
  exact absurd hle (by decide)

end Balancer

end Featherbit
