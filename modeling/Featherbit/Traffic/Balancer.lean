/-
  THE LOAD BALANCER (`balancer.rs`): what its counters count, and what `least_connections` picks.

  1. **The calls.**  A task selects a target and takes a guard for it; the guard's drop gives the count
     back.  Every access to a counter is one atomic step, and the steps of all tasks interleave in any
     order.  A `least_connections` selection is a scan: it loads one counter a step.

  2. **The invariant** (`Tracks`): every counter is the number of live guards, and what is selected is a
     target.

  3. **The scan** picks the first of the least counts it loaded (`leastConnections_spec`), each of them the
     count of its target when it was loaded (`Scanned`).  Where no guard came or went since the scan began,
     these are the counts of now (`Undisturbed`).

  A guard takes up memory, so there are never `2^64` of them and no counter wraps; the round-robin counter
  may.
-/
import Mathlib
import Featherbit.Outbound

namespace Featherbit

/-- How a target is picked. -/
inductive Strategy where
  | roundRobin
  | leastConnections
  | ipHash
deriving DecidableEq

/-- A pool of targets, which is not empty. -/
structure Balancer where
  targets : List Target
  strategy : Strategy
  targets_ne_nil : targets ≠ []

/-- `DefaultHasher::new()`, fed one text. -/
class DefaultHasher where
  finish : String → UInt64

namespace Balancer

/-- `Balancer::new`. -/
def new (targets : List Target) (strategy : Strategy) : Except String Balancer :=
  if h : targets = [] then .error "load balancer requires at least one target"
  else .ok { targets := targets, strategy := strategy, targets_ne_nil := h }

/-- The `least_connections` pick: the first of the least counts, as they were loaded. -/
def leastConnections (counts : List Nat) : Nat :=
  ((counts.zipIdx.argmin Prod.fst).map Prod.snd).getD 0

/-- The `ip_hash` pick. -/
def ipHash [DefaultHasher] (targets : Nat) (remoteAddr : String) : Nat :=
  (DefaultHasher.finish (((rsplitOnceChar ':' remoteAddr).map Prod.fst).getD remoteAddr)).toNat % targets

end Balancer

/-- Where a task is with its call of `select`. -/
inductive Selecting where
  | idle
  | picked (idx : Nat)
  /-- in a scan, with the counts it has loaded -/
  | scanning (counts : List Nat)
deriving DecidableEq

/-- What the call came to. -/
def Selecting.result (targets : Nat) : Selecting → Option Nat
  | .idle => none
  | .picked idx => some idx
  | .scanning counts =>
    if counts.length = targets then some (Balancer.leastConnections counts) else none

/-- The counters, the targets of the live guards, and where each task is. -/
structure BalancerState where
  counter : UInt64
  inFlight : List Nat
  guards : List Nat
  tasks : Nat → Selecting

inductive BalancerEvent where
  /-- a task calls `select` -/
  | select (task : Nat) (remoteAddr : String)
  /-- its scan loads the next counter -/
  | load (task : Nat)
  /-- it takes a guard for what it selected (`acquire`, `owned_acquire`) -/
  | acquire (task : Nat)
  /-- a guard of the target is dropped -/
  | drop (idx : Nat)
deriving DecidableEq

/-- A guard comes or goes. -/
def BalancerEvent.MovesGuard : BalancerEvent → Prop
  | .select _ _ | .load _ => False
  | .acquire _ | .drop _ => True

namespace Balancer

variable [DefaultHasher] (balancer : Balancer)

/-- `Balancer::len`. -/
def len : Nat := balancer.targets.length

def start : BalancerState where
  counter := 0
  inFlight := List.replicate balancer.len 0
  guards := []
  tasks := fun _ => .idle

/-- One atomic step; nothing where the event cannot be. -/
def step (s : BalancerState) : BalancerEvent → Option BalancerState
  | .select task remoteAddr =>
    match balancer.strategy with
    | .roundRobin => some { s with
        counter := s.counter + 1
        tasks := Function.update s.tasks task (.picked (s.counter.toNat % balancer.len)) }
    | .leastConnections => some { s with tasks := Function.update s.tasks task (.scanning []) }
    | .ipHash => some { s with
        tasks := Function.update s.tasks task (.picked (ipHash balancer.len remoteAddr)) }
  | .load task =>
    match s.tasks task with
    | .scanning counts => (s.inFlight[counts.length]?).map fun count =>
        { s with tasks := Function.update s.tasks task (.scanning (counts ++ [count])) }
    | _ => none
  | .acquire task => ((s.tasks task).result balancer.len).map fun idx => { s with
      inFlight := s.inFlight.modify idx (· + 1)
      guards := idx :: s.guards
      tasks := Function.update s.tasks task .idle }
  | .drop idx =>
    if idx ∈ s.guards then some { s with
      inFlight := s.inFlight.modify idx (· - 1)
      guards := s.guards.erase idx }
    else none

/-- The state after some steps. -/
def run : List BalancerEvent → BalancerState → Option BalancerState
  | [], s => some s
  | e :: events, s => (step balancer s e).bind (run events)

end Balancer

/-! ## The pick of a scan -/

theorem idxOf_zipIdx {counts : List Nat} {i count : Nat} (h : counts[i]? = some count) :
    @List.idxOf _ instBEqOfDecidableEq (count, i) counts.zipIdx = i := by
  have hnodup : counts.zipIdx.Nodup := List.Nodup.of_map _ (List.nodup_zipIdx_map_snd counts)
  obtain ⟨hlt, hcount⟩ := List.getElem?_eq_some_iff.mp h
  have hlt' : i < counts.zipIdx.length := by rwa [List.length_zipIdx]
  have hget : counts.zipIdx[i] = (count, i) := by
    rw [List.getElem_zipIdx, hcount, Nat.zero_add]
  rw [← hget]
  exact @List.Nodup.idxOf_getElem _ instBEqOfDecidableEq _ _ hnodup i hlt'

/-- The pick is the first of the least counts. -/
theorem leastConnections_spec {counts : List Nat} (h : counts ≠ []) :
    ∃ count, counts[Balancer.leastConnections counts]? = some count ∧
      ∀ j other, counts[j]? = some other →
        count ≤ other ∧ (other ≤ count → Balancer.leastConnections counts ≤ j) := by
  unfold Balancer.leastConnections
  cases hmin : counts.zipIdx.argmin Prod.fst with
  | none =>
    have hnil : counts.zipIdx = [] := List.argmin_eq_none.mp hmin
    exact absurd (List.zipIdx_eq_nil_iff.mp hnil) h
  | some pair =>
    obtain ⟨count, i⟩ := pair
    have hi : counts[i]? = some count := List.mem_zipIdx_iff_getElem?.mp (List.argmin_mem hmin)
    refine ⟨count, hi, fun j other hj => ?_⟩
    have hmem : (other, j) ∈ counts.zipIdx := List.mem_zipIdx_iff_getElem?.mpr hj
    refine ⟨List.le_of_mem_argmin hmem hmin, fun hle => ?_⟩
    have hfirst := List.index_of_argmin hmin hmem hle
    rwa [idxOf_zipIdx hi, idxOf_zipIdx hj] at hfirst

/-- The count of the target is a least one. -/
def LeastOf (counts : List Nat) (idx : Nat) : Prop :=
  ∃ count, counts[idx]? = some count ∧ ∀ (j other : Nat), counts[j]? = some other → count ≤ other

theorem leastConnections_leastOf {counts : List Nat} (h : counts ≠ []) :
    LeastOf counts (Balancer.leastConnections counts) := by
  obtain ⟨count, hcount, hleast⟩ := leastConnections_spec h
  exact ⟨count, hcount, fun j other hj => (hleast j other hj).1⟩

namespace Balancer

section Invariant

variable {balancer : Balancer} {s s' : BalancerState} {e : BalancerEvent}

theorem len_pos : 0 < balancer.len := List.length_pos_of_ne_nil balancer.targets_ne_nil

/-! ## One step -/

/-- What holds of the counters and the tasks. -/
structure Tracks (balancer : Balancer) (s : BalancerState) : Prop where
  length : s.inFlight.length = balancer.len
  counts : ∀ i < balancer.len, s.inFlight[i]? = some (s.guards.count i)
  guards : ∀ i ∈ s.guards, i < balancer.len
  picked : ∀ task idx, s.tasks task = .picked idx → idx < balancer.len
  scanning : ∀ task counts, s.tasks task = .scanning counts → counts.length ≤ balancer.len

theorem tracks_start : Tracks balancer balancer.start where
  length := List.length_replicate
  counts i hi := by
    show (List.replicate balancer.len 0)[i]? = _
    rw [List.getElem?_replicate, if_pos hi]
    rfl
  guards i hi := nomatch hi
  picked task idx h := nomatch h
  scanning task counts h := nomatch h

/-- What is selected is a target. -/
theorem Tracks.result_lt (h : Tracks balancer s) {task idx : Nat}
    (hresult : (s.tasks task).result balancer.len = some idx) : idx < balancer.len := by
  cases htask : s.tasks task with
  | idle =>
    rw [htask] at hresult
    nomatch hresult
  | picked i =>
    rw [htask] at hresult
    obtain rfl := Option.some.inj hresult
    exact h.picked task i htask
  | scanning counts =>
    rw [htask] at hresult
    unfold Selecting.result at hresult
    dsimp only at hresult
    split at hresult
    · rename_i hlength
      obtain rfl := Option.some.inj hresult
      have hne : counts ≠ [] := List.ne_nil_of_length_pos (by rw [hlength]; exact len_pos)
      obtain ⟨count, hcount, -⟩ := leastConnections_leastOf hne
      rw [← hlength]
      exact (List.getElem?_eq_some_iff.mp hcount).1
    · nomatch hresult

end Invariant

section Step

variable [DefaultHasher] {balancer : Balancer} {s s' : BalancerState} {e : BalancerEvent}

/-- What a step does to a task: it may select at once, begin a scan, load a counter, or be done. -/
theorem step_task (h : balancer.step s e = some s') (task : Nat) :
    s'.tasks task = s.tasks task ∨ s'.tasks task = .idle ∨ s'.tasks task = .scanning [] ∨
      (∃ n, s'.tasks task = .picked (n % balancer.len)) ∨
      ∃ counts count, e = .load task ∧ s.tasks task = .scanning counts ∧
        s.inFlight[counts.length]? = some count ∧ s'.tasks task = .scanning (counts ++ [count]) := by
  -- every event writes the place of one task
  have hupdate : ∀ (other : Nat) (selecting : Selecting),
      s'.tasks = Function.update s.tasks other selecting →
      s'.tasks task = s.tasks task ∨ other = task ∧ s'.tasks task = selecting := by
    intro other selecting htasks
    rw [htasks]
    by_cases hother : task = other
    · subst hother
      exact Or.inr ⟨rfl, Function.update_self ..⟩
    · exact Or.inl (Function.update_of_ne hother ..)
  unfold step at h
  cases e with
  | select other remoteAddr =>
    cases hstrategy : balancer.strategy with
    | roundRobin =>
      rw [hstrategy] at h
      rcases hupdate other _ (by rw [← Option.some.inj h]) with hsame | ⟨-, hpicked⟩
      · exact Or.inl hsame
      · exact Or.inr (Or.inr (Or.inr (Or.inl ⟨_, hpicked⟩)))
    | leastConnections =>
      rw [hstrategy] at h
      rcases hupdate other _ (by rw [← Option.some.inj h]) with hsame | ⟨-, hscan⟩
      · exact Or.inl hsame
      · exact Or.inr (Or.inr (Or.inl hscan))
    | ipHash =>
      rw [hstrategy] at h
      rcases hupdate other _ (by rw [← Option.some.inj h]) with hsame | ⟨-, hpicked⟩
      · exact Or.inl hsame
      · exact Or.inr (Or.inr (Or.inr (Or.inl ⟨_, hpicked⟩)))
  | load other =>
    dsimp only at h
    split at h
    · rename_i counts hcounts
      obtain ⟨count, hcount, rfl⟩ := Option.map_eq_some_iff.mp h
      rcases hupdate other _ rfl with hsame | ⟨rfl, hscan⟩
      · exact Or.inl hsame
      · exact Or.inr (Or.inr (Or.inr (Or.inr ⟨counts, count, rfl, hcounts, hcount, hscan⟩)))
    · nomatch h
  | acquire other =>
    obtain ⟨idx, -, rfl⟩ := Option.map_eq_some_iff.mp h
    rcases hupdate other _ rfl with hsame | ⟨-, hidle⟩
    · exact Or.inl hsame
    · exact Or.inr (Or.inl hidle)
  | drop idx =>
    dsimp only at h
    split at h
    · rw [← Option.some.inj h]
      exact Or.inl rfl
    · nomatch h

/-- What a step does to the counters. -/
theorem step_counters (h : balancer.step s e = some s') :
    (s'.inFlight = s.inFlight ∧ s'.guards = s.guards ∧ ¬ e.MovesGuard) ∨
    (∃ task idx, e = .acquire task ∧ (s.tasks task).result balancer.len = some idx ∧
      s'.inFlight = s.inFlight.modify idx (· + 1) ∧ s'.guards = idx :: s.guards) ∨
    ∃ idx, e = .drop idx ∧ idx ∈ s.guards ∧ s'.inFlight = s.inFlight.modify idx (· - 1) ∧
      s'.guards = s.guards.erase idx := by
  unfold step at h
  cases e with
  | select task remoteAddr =>
    left
    dsimp only at h
    split at h
    · rw [← Option.some.inj h]
      exact ⟨rfl, rfl, fun hmoves => hmoves⟩
    · rw [← Option.some.inj h]
      exact ⟨rfl, rfl, fun hmoves => hmoves⟩
    · rw [← Option.some.inj h]
      exact ⟨rfl, rfl, fun hmoves => hmoves⟩
  | load task =>
    left
    dsimp only at h
    split at h
    · obtain ⟨count, -, rfl⟩ := Option.map_eq_some_iff.mp h
      exact ⟨rfl, rfl, fun hmoves => hmoves⟩
    · nomatch h
  | acquire task =>
    obtain ⟨idx, hidx, rfl⟩ := Option.map_eq_some_iff.mp h
    exact Or.inr (Or.inl ⟨task, idx, rfl, hidx, rfl, rfl⟩)
  | drop idx =>
    dsimp only at h
    split at h
    · rename_i hmem
      rw [← Option.some.inj h]
      exact Or.inr (Or.inr ⟨idx, rfl, hmem, rfl, rfl⟩)
    · nomatch h

/-- The counters after a step count the guards after it. -/
theorem Tracks.step_counts (h : Tracks balancer s) (hstep : balancer.step s e = some s') :
    s'.inFlight.length = balancer.len ∧
    (∀ i < balancer.len, s'.inFlight[i]? = some (s'.guards.count i)) ∧
    ∀ i ∈ s'.guards, i < balancer.len := by
  rcases step_counters hstep with ⟨hcounts, hguards, -⟩ | ⟨task, idx, -, hidx, hcounts, hguards⟩ |
    ⟨idx, -, hmem, hcounts, hguards⟩
  · rw [hcounts, hguards]
    exact ⟨h.length, h.counts, h.guards⟩
  · rw [hcounts, hguards]
    refine ⟨(List.length_modify ..).trans h.length, fun i hi => ?_, fun i hi => ?_⟩
    · rw [List.getElem?_modify, h.counts i hi, List.count_cons]
      by_cases heq : idx = i
      · simp [heq]
      · simp [heq]
    · rcases List.mem_cons.mp hi with rfl | hi
      · exact h.result_lt hidx
      · exact h.guards i hi
  · rw [hcounts, hguards]
    refine ⟨(List.length_modify ..).trans h.length, fun i hi => ?_,
      fun i hi => h.guards i (List.mem_of_mem_erase hi)⟩
    rw [List.getElem?_modify, h.counts i hi, List.count_erase]
    by_cases heq : idx = i
    · simp [heq]
    · simp [heq]

/-- **The invariant.** -/
theorem Tracks.step (h : Tracks balancer s) (hstep : balancer.step s e = some s') :
    Tracks balancer s' := by
  obtain ⟨hlength, hcounts, hguards⟩ := h.step_counts hstep
  refine ⟨hlength, hcounts, hguards, fun task idx htask => ?_, fun task counts htask => ?_⟩
  · rcases step_task hstep task with hsame | hidle | hscan | ⟨n, hpicked⟩ | ⟨_, _, -, -, -, hload⟩
    · exact h.picked task idx (hsame.symm.trans htask)
    · cases hidle.symm.trans htask
    · cases hscan.symm.trans htask
    · cases hpicked.symm.trans htask
      exact Nat.mod_lt n len_pos
    · cases hload.symm.trans htask
  · rcases step_task hstep task with hsame | hidle | hscan | ⟨n, hpicked⟩ |
      ⟨loaded, count, -, -, hcount, hload⟩
    · exact h.scanning task counts (hsame.symm.trans htask)
    · cases hidle.symm.trans htask
    · cases hscan.symm.trans htask
      exact Nat.zero_le _
    · cases hpicked.symm.trans htask
    · cases hload.symm.trans htask
      have hlt := (List.getElem?_eq_some_iff.mp hcount).1
      rw [h.length] at hlt
      rw [List.length_append]
      exact hlt

/-! ## A run -/

theorem run_append (events more : List BalancerEvent) (s : BalancerState) :
    balancer.run (events ++ more) s = (balancer.run events s).bind (balancer.run more) := by
  induction events generalizing s with
  | nil => rfl
  | cons e events ih =>
    show (balancer.step s e).bind (balancer.run (events ++ more)) = _
    rw [funext ih]
    exact (Option.bind_assoc ..).symm

/-- The last step of a run. -/
theorem run_concat {events : List BalancerEvent} {e : BalancerEvent}
    (h : balancer.run (events ++ [e]) s = some s') :
    ∃ s₁, balancer.run events s = some s₁ ∧ balancer.step s₁ e = some s' := by
  rw [run_append] at h
  obtain ⟨s₁, hrun, hlast⟩ := Option.bind_eq_some_iff.mp h
  refine ⟨s₁, hrun, ?_⟩
  obtain ⟨s₂, hstep, hnil⟩ := Option.bind_eq_some_iff.mp hlast
  rw [hstep]
  exact hnil

theorem tracks_run {events : List BalancerEvent} (h : balancer.run events balancer.start = some s) :
    Tracks balancer s := by
  induction events using List.reverseRecOn generalizing s with
  | nil =>
    rw [← Option.some.inj h]
    exact tracks_start
  | append_singleton events e ih =>
    obtain ⟨s₁, hrun, hstep⟩ := run_concat h
    exact (ih hrun).step hstep

/-- The count was loaded from the `j`-th counter, at the moment between `pre` and `post`. -/
def LoadedAt (balancer : Balancer) (events : List BalancerEvent) (task j count : Nat) : Prop :=
  ∃ pre post s, events = pre ++ .load task :: post ∧ balancer.run pre balancer.start = some s ∧
    (∃ counts, s.tasks task = .scanning counts ∧ counts.length = j) ∧ s.inFlight[j]? = some count

/-- Every count of a scan is one of its target's. -/
theorem loadedAt {events : List BalancerEvent} {task : Nat} {counts : List Nat}
    (h : balancer.run events balancer.start = some s) (htask : s.tasks task = .scanning counts) :
    ∀ j count, counts[j]? = some count → LoadedAt balancer events task j count := by
  induction events using List.reverseRecOn generalizing s counts with
  | nil =>
    rw [← Option.some.inj h] at htask
    nomatch htask
  | append_singleton events e ih =>
    obtain ⟨s₁, hrun, hstep⟩ := run_concat h
    have hearlier : ∀ {loaded : List Nat}, s₁.tasks task = .scanning loaded → ∀ j count,
        loaded[j]? = some count → LoadedAt balancer (events ++ [e]) task j count := by
      intro loaded hloaded j count hj
      obtain ⟨pre, post, s₂, rfl, hpre⟩ := ih hrun hloaded j count hj
      exact ⟨pre, post ++ [e], s₂, by rw [List.append_assoc, List.cons_append], hpre⟩
    rcases step_task hstep task with hsame | hidle | hscan | ⟨n, hpicked⟩ |
      ⟨loaded, last, rfl, hloaded, hlast, hload⟩
    · exact hearlier (hsame.symm.trans htask)
    · cases hidle.symm.trans htask
    · cases hscan.symm.trans htask
      intro j count hj
      nomatch hj
    · cases hpicked.symm.trans htask
    · cases hload.symm.trans htask
      intro j count hj
      rcases Nat.lt_or_ge j loaded.length with hlt | hge
      · rw [List.getElem?_append_left hlt] at hj
        exact hearlier hloaded j count hj
      · -- the count of this step
        have hlen := (List.getElem?_eq_some_iff.mp hj).1
        rw [List.length_append, List.length_singleton] at hlen
        obtain rfl : j = loaded.length := by omega
        rw [List.getElem?_concat_length] at hj
        obtain rfl := Option.some.inj hj
        exact ⟨events, [], s₁, rfl, hrun, ⟨loaded, hloaded, rfl⟩, hlast⟩

/-- A selection begins. -/
theorem step_select {task : Nat} {remoteAddr : String}
    (h : balancer.step s (.select task remoteAddr) = some s') :
    (∃ n, s'.tasks task = .picked n) ∨ s'.tasks task = .scanning [] := by
  unfold step at h
  dsimp only at h
  split at h
  · rw [← Option.some.inj h]
    exact Or.inl ⟨_, Function.update_self ..⟩
  · rw [← Option.some.inj h]
    exact Or.inr (Function.update_self ..)
  · rw [← Option.some.inj h]
    exact Or.inl ⟨_, Function.update_self ..⟩

/-- Where no guard came or went since a selection began, a scan has loaded the counts of now. -/
theorem undisturbed {pre post : List BalancerEvent} {task : Nat} {remoteAddr : String} {counts : List Nat}
    (h : balancer.run (pre ++ .select task remoteAddr :: post) balancer.start = some s)
    (hquiet : ∀ e ∈ post, ¬ e.MovesGuard) (htask : s.tasks task = .scanning counts) :
    counts = s.inFlight.take counts.length := by
  induction post using List.reverseRecOn generalizing s counts with
  | nil =>
    obtain ⟨s₁, -, hstep⟩ := run_concat h
    rcases step_select hstep with ⟨n, hpicked⟩ | hscan
    · cases hpicked.symm.trans htask
    · cases hscan.symm.trans htask
      rfl
  | append_singleton post e ih =>
    rw [← List.cons_append, ← List.append_assoc] at h
    obtain ⟨s₁, hrun, hstep⟩ := run_concat h
    have hcounts : s.inFlight = s₁.inFlight := by
      rcases step_counters hstep with ⟨hsame, -, -⟩ | ⟨other, idx, rfl, -⟩ | ⟨idx, rfl, -⟩
      · exact hsame
      · exact absurd trivial (hquiet (.acquire other) (by simp))
      · exact absurd trivial (hquiet (.drop idx) (by simp))
    have hearlier : ∀ {loaded : List Nat}, s₁.tasks task = .scanning loaded →
        loaded = s₁.inFlight.take loaded.length :=
      fun hloaded => ih hrun (fun e he => hquiet e (by simp [he])) hloaded
    rw [hcounts]
    rcases step_task hstep task with hsame | hidle | hscan | ⟨n, hpicked⟩ |
      ⟨loaded, last, rfl, hloaded, hlast, hload⟩
    · exact hearlier (hsame.symm.trans htask)
    · cases hidle.symm.trans htask
    · cases hscan.symm.trans htask
      rfl
    · cases hpicked.symm.trans htask
    · cases hload.symm.trans htask
      have hbefore := hearlier hloaded
      rw [List.length_append, List.length_singleton, List.take_add_one, ← hbefore, hlast]
      rfl

/-- **The load.**  In every interleaving of selections, loads, acquired and dropped guards: a counter is the
    number of live guards of its target, and is not zero when one of them is dropped; what is selected is a
    target; and a `least_connections` scan picks the first of the least counts that it loaded, each of them
    the count of its target when it was loaded, so that the pick is a least loaded target of now where no
    guard came or went since the selection began. -/
theorem balancer_load {events : List BalancerEvent} (h : balancer.run events balancer.start = some s) :
    (∀ i < balancer.len, s.inFlight[i]? = some (s.guards.count i)) ∧
    (∀ i ∈ s.guards, ∃ others, s.inFlight[i]? = some (others + 1)) ∧
    (∀ task idx, (s.tasks task).result balancer.len = some idx → idx < balancer.len) ∧
    ∀ task counts, s.tasks task = .scanning counts → counts.length = balancer.len →
      (s.tasks task).result balancer.len = some (leastConnections counts) ∧
      LeastOf counts (leastConnections counts) ∧
      (∀ j < balancer.len, ∃ count, counts[j]? = some count ∧
        LoadedAt balancer events task j count) ∧
      ∀ pre remoteAddr post, events = pre ++ .select task remoteAddr :: post →
        (∀ e ∈ post, ¬ e.MovesGuard) → LeastOf s.inFlight (leastConnections counts) := by
  have htracks := tracks_run h
  refine ⟨htracks.counts, fun i hi => ?_, fun task idx hidx => htracks.result_lt hidx,
    fun task counts htask hlength => ?_⟩
  · have hpos : 0 < s.guards.count i := List.count_pos_iff.mpr hi
    refine ⟨s.guards.count i - 1, ?_⟩
    rw [htracks.counts i (htracks.guards i hi)]
    congr 1
    omega
  · have hne : counts ≠ [] := List.ne_nil_of_length_pos (by rw [hlength]; exact len_pos)
    refine ⟨?_, leastConnections_leastOf hne, fun j hj => ?_, ?_⟩
    · rw [htask]
      exact if_pos hlength
    · have hget := List.getElem?_eq_getElem (show j < counts.length by omega)
      exact ⟨_, hget, loadedAt h htask j _ hget⟩
    · rintro pre remoteAddr post rfl hquiet
      have hnow := undisturbed h hquiet htask
      rw [hlength, ← htracks.length, List.take_length] at hnow
      rw [← hnow]
      exact leastConnections_leastOf hne

end Step

/-! ## A scan among others -/

/-- Two targets. -/
def pair : Balancer where
  targets := [⟨"backend-0", 3000⟩, ⟨"backend-1", 3000⟩]
  strategy := .leastConnections
  targets_ne_nil := by decide

/-- A whole selection of a task. -/
def scan (task : Nat) : List BalancerEvent :=
  [.select task "10.0.0.1:1111", .load task, .load task]

/-- Three tasks select the first target, one of them takes its guard, two more select the other one. -/
def quiet : List BalancerEvent :=
  scan 1 ++ scan 2 ++ scan 3 ++ [.acquire 1] ++ scan 4 ++ scan 5

/-- While a task scans, the other four take their guards. -/
def busy : List BalancerEvent :=
  [.select 0 "10.0.0.1:1111", .load 0, .acquire 2, .acquire 3, .acquire 4, .acquire 5, .load 0]

/-- A scan while no guard comes or goes. -/
theorem balancer_load_quiet :
    let _ : DefaultHasher := ⟨fun _ => 0⟩
    ∃ s, pair.run (quiet ++ scan 0) pair.start = some s ∧
      (∀ i < pair.len, s.inFlight[i]? = some (s.guards.count i)) ∧
      ∀ counts, s.tasks 0 = .scanning counts → counts.length = pair.len →
        LeastOf s.inFlight (leastConnections counts) := by
  intro _
  obtain ⟨s, hs⟩ : ∃ s, pair.run (quiet ++ scan 0) pair.start = some s := ⟨_, rfl⟩
  obtain ⟨hcounts, -, -, hscan⟩ := balancer_load hs
  refine ⟨s, hs, hcounts, fun counts htask hlength => ?_⟩
  obtain ⟨-, -, -, hnow⟩ := hscan 0 counts htask hlength
  refine hnow quiet "10.0.0.1:1111" [.load 0, .load 0] rfl fun e he => ?_
  rcases List.mem_cons.mp he with rfl | he
  · exact fun hmoves => hmoves
  · rw [List.mem_singleton.mp he]
    exact fun hmoves => hmoves

/-- The first target is picked, and at no time since the selection began was it a least loaded one. -/
theorem busy_pick_never_least :
    let _ : DefaultHasher := ⟨fun _ => 0⟩
    (pair.run (quiet ++ busy) pair.start).map (fun s => (s.tasks 0).result pair.len) =
      some (some 0) ∧
    ∀ mid rest, busy = mid ++ rest → mid ≠ [] → ∀ s, pair.run (quiet ++ mid) pair.start = some s →
      ¬ LeastOf s.inFlight 0 := by
  intro _
  refine ⟨by decide, fun mid rest hbusy hne s hs hleast => ?_⟩
  have hlighter : ∀ k : Fin 7, ((pair.run (quiet ++ busy.take (k.val + 1)) pair.start).map
      (fun s => s.inFlight)).all
        (fun counts => (counts[0]?).any fun a => (counts[1]?).any fun b => decide (b < a)) = true := by
    decide
  have hlength : 0 < mid.length ∧ mid.length ≤ 7 := by
    have htotal := congrArg List.length hbusy
    rw [List.length_append] at htotal
    have hseven : busy.length = 7 := rfl
    exact ⟨List.length_pos_of_ne_nil hne, by omega⟩
  have hmid : busy.take (mid.length - 1 + 1) = mid := by
    rw [Nat.sub_add_cancel hlength.1, hbusy, List.take_left]
  have hone := hlighter ⟨mid.length - 1, by omega⟩
  dsimp only at hone
  rw [hmid, hs, Option.map_some, Option.all_some] at hone
  obtain ⟨a, ha, hone⟩ := (Option.any_eq_true _ _).mp hone
  obtain ⟨b, hb, hlt⟩ := (Option.any_eq_true _ _).mp hone
  obtain ⟨count, hcount, hleast⟩ := hleast
  have hle := hleast 1 b hb
  rw [ha] at hcount
  cases hcount
  exact absurd (of_decide_eq_true hlt) (Nat.not_lt.mpr hle)

end Balancer

end Featherbit
