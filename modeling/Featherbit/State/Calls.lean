/-
  CONCURRENT CALLS OF `apply_gateway`.

  The file watcher, the etcd poll and the Admin handlers all end in `apply_gateway`, and nothing
  keeps one of them from running while another is under way.  A call is a thread (`Stage`) over
  the shared tables and their two locks: it stores the consumers with no lock held, takes the
  gateway write lock and writes the config, takes the routes write lock and writes the routes, and
  releases both.  An Admin call first takes its snapshot under the gateway read lock, which is
  free only while no writer holds the lock.

  Readers of the data plane only delay a writer, so they are left out; so is fairness.

  Because the routes are written under the gateway lock, config and routes always come from one
  call (`Sound`).  The consumer store is swapped outside of it, and may come from another:
  `tables_consistent_of_ordered` says when it does not.
-/
import Featherbit.Lib.Interleave
import Featherbit.Admin.Handlers

namespace Featherbit

open Interleave

/-- Where a call is. -/
inductive Stage (σ : Type) where
  /-- an Admin call that has not taken its snapshot -/
  | snapshot (req : AdminRequest)
  /-- `apply_gateway` is entered with this config -/
  | candidate (gw : GatewayConfig)
  /-- the fallible work is done -/
  | built (t : Tables σ)
  /-- the consumers are stored; the call waits for the gateway write lock -/
  | stored (t : Tables σ)
  /-- the config is written; the call holds the gateway lock -/
  | wroteGateway (t : Tables σ)
  /-- the routes are written; the call holds both locks -/
  | wroteRoutes (t : Tables σ)
  | returned (result : Except ConfigError Unit)
  /-- an Admin call that answered without a commit -/
  | refused (answer : AdminResponse)

/-- What the calls share: the tables, and who holds the write locks. -/
structure Shared (ι σ : Type) where
  tables : Tables σ
  gatewayLock : Option ι
  routesLock : Option ι

section Step

variable {ι σ : Type} (env : Env) (factory : PluginFactory σ)

/-- The next step of call `i`; `none` while it waits for a lock, and when it is over. -/
def callStep (i : ι) (stage : Stage σ) (s : Shared ι σ) : Option (Stage σ × Shared ι σ) :=
  match stage with
  | .snapshot req =>
    if s.gatewayLock.isSome then none
    else
      match req.handler.candidate s.tables.gateway with
      | .ok gw => some (.candidate gw, s)
      | .error answer => some (.refused answer, s)
  | .candidate gw =>
    match buildTables env factory gw with
    | .ok t => some (.built t, s)
    | .error e => some (.returned (.error e), s)
  | .built t =>
    some (.stored t, { s with tables := { s.tables with consumers := t.consumers } })
  | .stored t =>
    if s.gatewayLock.isSome then none
    else
      some (.wroteGateway t,
        { s with tables := { s.tables with gateway := t.gateway }, gatewayLock := some i })
  | .wroteGateway t =>
    if s.routesLock.isSome then none
    else
      some (.wroteRoutes t,
        { s with tables := { s.tables with routes := t.routes }, routesLock := some i })
  | .wroteRoutes _ =>
    some (.returned (.ok ()), { s with gatewayLock := none, routesLock := none })
  | .returned _ | .refused _ => none

/-- Any number of calls on one gateway. -/
def calls : System ι (Stage σ) (Shared ι σ) where
  step := callStep env factory

/-- What a step of a call can do, with everything that was checked. -/
inductive CallStep (i : ι) : Stage σ → Shared ι σ → Stage σ → Shared ι σ → Prop where
  | takeSnapshot {req gw s} (hfree : s.gatewayLock = none)
      (hc : req.handler.candidate s.tables.gateway = .ok gw) :
      CallStep i (.snapshot req) s (.candidate gw) s
  | refuse {req answer s} (hfree : s.gatewayLock = none)
      (hc : req.handler.candidate s.tables.gateway = .error answer) :
      CallStep i (.snapshot req) s (.refused answer) s
  | build {gw t s} (hb : buildTables env factory gw = .ok t) :
      CallStep i (.candidate gw) s (.built t) s
  | reject {gw e s} (hb : buildTables env factory gw = .error e) :
      CallStep i (.candidate gw) s (.returned (.error e)) s
  | store {t s} :
      CallStep i (.built t) s (.stored t)
        { s with tables := { s.tables with consumers := t.consumers } }
  | writeGateway {t s} (hfree : s.gatewayLock = none) :
      CallStep i (.stored t) s (.wroteGateway t)
        { s with tables := { s.tables with gateway := t.gateway }, gatewayLock := some i }
  | writeRoutes {t s} (hfree : s.routesLock = none) :
      CallStep i (.wroteGateway t) s (.wroteRoutes t)
        { s with tables := { s.tables with routes := t.routes }, routesLock := some i }
  | release {t s} :
      CallStep i (.wroteRoutes t) s (.returned (.ok ()))
        { s with gatewayLock := none, routesLock := none }

variable {env factory}

theorem callStep_cases {i : ι} {stage stage' : Stage σ} {s s' : Shared ι σ}
    (h : callStep env factory i stage s = some (stage', s')) :
    CallStep env factory i stage s stage' s' := by
  cases stage with
  | snapshot req =>
    simp only [callStep] at h
    split at h
    · nomatch h
    · rename_i hfree
      have hfree' : s.gatewayLock = none := by simpa using hfree
      split at h
      · rename_i gw hc
        obtain ⟨rfl, rfl⟩ := Prod.mk.inj (Option.some.inj h)
        exact .takeSnapshot hfree' hc
      · rename_i answer hc
        obtain ⟨rfl, rfl⟩ := Prod.mk.inj (Option.some.inj h)
        exact .refuse hfree' hc
  | candidate gw =>
    simp only [callStep] at h
    split at h
    · rename_i t hb
      obtain ⟨rfl, rfl⟩ := Prod.mk.inj (Option.some.inj h)
      exact .build hb
    · rename_i e hb
      obtain ⟨rfl, rfl⟩ := Prod.mk.inj (Option.some.inj h)
      exact .reject hb
  | built t =>
    obtain ⟨rfl, rfl⟩ := Prod.mk.inj (Option.some.inj h)
    exact .store
  | stored t =>
    simp only [callStep] at h
    split at h
    · nomatch h
    · rename_i hfree
      obtain ⟨rfl, rfl⟩ := Prod.mk.inj (Option.some.inj h)
      exact .writeGateway (by simpa using hfree)
  | wroteGateway t =>
    simp only [callStep] at h
    split at h
    · nomatch h
    · rename_i hfree
      obtain ⟨rfl, rfl⟩ := Prod.mk.inj (Option.some.inj h)
      exact .writeRoutes (by simpa using hfree)
  | wroteRoutes t =>
    obtain ⟨rfl, rfl⟩ := Prod.mk.inj (Option.some.inj h)
    exact .release
  | returned result => nomatch h
  | refused answer => nomatch h

end Step

/-! ## Runs -/

section Runs

variable {ι σ : Type}

/-- What a call was made for. -/
inductive Job where
  | admin (req : AdminRequest)
  | apply (gw : GatewayConfig)

/-- Where a call begins. -/
def Job.start : Job → Stage σ
  | .admin req => .snapshot req
  | .apply gw => .candidate gw

/-- The calls about to begin, on tables nobody holds a lock of. -/
def startCalls (jobs : ι → Job) (tables : Tables σ) : Config ι (Stage σ) (Shared ι σ) where
  threads i := (jobs i).start
  shared := { tables := tables, gatewayLock := none, routesLock := none }

/-- The call is over. -/
def Stage.Over : Stage σ → Prop
  | .returned _ | .refused _ => True
  | _ => False

/-- Every call is over. -/
def Quiescent (c : Config ι (Stage σ) (Shared ι σ)) : Prop := ∀ i, (c.threads i).Over

/-- The call holds the gateway write lock. -/
def Stage.Holds : Stage σ → Prop
  | .wroteGateway _ | .wroteRoutes _ => True
  | _ => False

/-- The tables a call has built. -/
def Stage.tables : Stage σ → Option (Tables σ)
  | .built t | .stored t | .wroteGateway t | .wroteRoutes t => some t
  | _ => none

/-- The consumers of a call that has stored them and waits for the gateway lock. -/
def Stage.waiting : Stage σ → Option ConsumerStore
  | .stored t => some t.consumers
  | _ => none

theorem Stage.not_over_of_waiting {stage : Stage σ} {consumers : ConsumerStore}
    (h : stage.waiting = some consumers) : ¬ stage.Over := by
  cases stage with
  | stored t => exact not_false
  | snapshot | candidate | built | wroteGateway | wroteRoutes | returned | refused => nomatch h

end Runs

/-! ## What a step changes -/

section Changes

variable {ι σ : Type} {env : Env} {factory : PluginFactory σ} {i : ι} {l l' : Stage σ}
  {s s' : Shared ι σ}

/-- The gateway lock: untouched, taken while it was free, or given back by its holder. -/
theorem lock_cases (h : CallStep env factory i l s l' s') :
    (s'.gatewayLock = s.gatewayLock ∧ (l'.Holds ↔ l.Holds)) ∨
    (s.gatewayLock = none ∧ s'.gatewayLock = some i ∧ l'.Holds) ∨
    (l.Holds ∧ s'.gatewayLock = none ∧ ¬ l'.Holds) := by
  cases h with
  | takeSnapshot | refuse | build | reject | store | writeRoutes => exact Or.inl ⟨rfl, Iff.rfl⟩
  | writeGateway hfree => exact Or.inr (Or.inl ⟨hfree, rfl, trivial⟩)
  | release => exact Or.inr (Or.inr ⟨trivial, rfl, not_false⟩)

/-- Config and routes: untouched, or one of the two writes of a call. -/
theorem tables_cases (h : CallStep env factory i l s l' s') :
    (s'.tables.gateway = s.tables.gateway ∧ s'.tables.routes = s.tables.routes ∧
      (∀ t, l ≠ .wroteGateway t) ∧ ∀ t, l' ≠ .wroteGateway t) ∨
    (∃ t, l = .stored t ∧ l' = .wroteGateway t ∧ s.gatewayLock = none ∧
      s'.tables = { s.tables with gateway := t.gateway }) ∨
    (∃ t, l = .wroteGateway t ∧ l' = .wroteRoutes t ∧
      s'.tables = { s.tables with routes := t.routes }) := by
  cases h with
  | takeSnapshot | refuse | build | reject | store | release =>
    exact Or.inl ⟨rfl, rfl, nofun, nofun⟩
  | writeGateway hfree => exact Or.inr (Or.inl ⟨_, rfl, rfl, hfree, rfl⟩)
  | writeRoutes => exact Or.inr (Or.inr ⟨_, rfl, rfl, rfl⟩)

/-- The consumer store: untouched, swapped in by a call that now waits for the gateway lock, or
    left alone by a call that ceases to wait and writes its config. -/
theorem consumers_cases (h : CallStep env factory i l s l' s') :
    (s'.tables.gateway = s.tables.gateway ∧ s'.tables.consumers = s.tables.consumers ∧
      l'.waiting = l.waiting) ∨
    (l'.waiting = some s'.tables.consumers) ∨
    (∃ t, l = .stored t ∧ s'.tables = { s.tables with gateway := t.gateway }) := by
  cases h with
  | takeSnapshot | refuse | build | reject | writeRoutes | release =>
    exact Or.inl ⟨rfl, rfl, rfl⟩
  | store => exact Or.inr (Or.inl rfl)
  | writeGateway => exact Or.inr (Or.inr ⟨_, rfl, rfl⟩)

/-- The tables a call carries were built by it. -/
theorem built_cases (h : CallStep env factory i l s l' s') {t : Tables σ}
    (ht : l'.tables = some t) : l.tables = some t ∨ buildTables env factory t.gateway = .ok t := by
  cases h with
  | takeSnapshot | refuse | reject | release => nomatch ht
  | store | writeGateway | writeRoutes => exact Or.inl ht
  | build hb =>
    obtain rfl := Option.some.inj ht
    refine Or.inr ?_
    rw [(buildTables_eq_ok.mp hb).1]
    exact hb

end Changes

/-! ## Config and routes -/

section Sound

variable {ι σ : Type} {env : Env} {factory : PluginFactory σ}

/-- What holds at every moment, whatever the order of the steps. -/
structure Sound (env : Env) (factory : PluginFactory σ) (c : Config ι (Stage σ) (Shared ι σ)) :
    Prop where
  /-- the gateway lock is held by the call that is past taking it, and by no other -/
  lock : ∀ i, c.shared.gatewayLock = some i ↔ (c.threads i).Holds
  built : ∀ i t, (c.threads i).tables = some t → buildTables env factory t.gateway = .ok t
  gateway : ∀ i t, c.threads i = .wroteGateway t → c.shared.tables.gateway = t.gateway
  /-- but between the two writes of a call, the routes are those of the config -/
  routes : (∀ i t, c.threads i ≠ .wroteGateway t) →
    compileRoutes env factory c.shared.tables.gateway = .ok c.shared.tables.routes

theorem sound_start (jobs : ι → Job) {tables : Tables σ}
    (h : buildTables env factory tables.gateway = .ok tables) :
    Sound env factory (startCalls jobs tables) where
  lock i := by
    show (none = some i) ↔ ((jobs i).start : Stage σ).Holds
    cases jobs i <;> simp [Job.start, Stage.Holds]
  built i t ht := by
    have ht' : ((jobs i).start : Stage σ).tables = some t := ht
    cases hj : jobs i <;> rw [hj] at ht' <;> nomatch ht'
  gateway i t ht := by
    have ht' : ((jobs i).start : Stage σ) = .wroteGateway t := ht
    cases hj : jobs i <;> rw [hj] at ht' <;> nomatch ht'
  routes _ := (buildTables_eq_ok.mp h).2.2

variable [DecidableEq ι] {i : ι} {c c' : Config ι (Stage σ) (Shared ι σ)}

theorem sound_step_lock (h : Sound env factory c) (hfire : (calls env factory).fire i c = some c')
    (j : ι) : c'.shared.gatewayLock = some j ↔ (c'.threads j).Holds := by
  obtain ⟨hstep, hframe⟩ := System.fire_spec hfire
  have hi := h.lock i
  have hj := h.lock j
  rcases lock_cases (callStep_cases hstep) with ⟨hsame, hholds⟩ | ⟨hnone, htaken, hholds⟩ |
    ⟨hheld, hfreed, hholds⟩
  · rw [hsame]
    by_cases hji : j = i
    · rw [hji, hholds, hi]
    · rw [hframe j hji, hj]
  · rw [htaken]
    by_cases hji : j = i
    · rw [hji]; simp [hholds]
    · rw [hframe j hji, ← hj, hnone]
      simp [Ne.symm hji]
  · rw [hfreed]
    by_cases hji : j = i
    · rw [hji]; simp [hholds]
    · -- the holder was `i`, so `j` is none
      rw [hframe j hji, ← hj, hi.mpr hheld]
      simp [Ne.symm hji]

/-- **One step keeps config and routes sound.** -/
theorem sound_step (h : Sound env factory c) (hfire : (calls env factory).fire i c = some c') :
    Sound env factory c' := by
  obtain ⟨hstep, hframe⟩ := System.fire_spec hfire
  have hcall := callStep_cases hstep
  refine ⟨sound_step_lock h hfire, ?_, ?_, ?_⟩
  · intro j t ht
    by_cases hji : j = i
    · subst hji
      rcases built_cases hcall ht with hold | hnew
      · exact h.built j t hold
      · exact hnew
    · rw [hframe j hji] at ht
      exact h.built j t ht
  · intro j t hj
    rcases tables_cases hcall with ⟨hgw, -, -, hnot⟩ | ⟨t', -, hi, hfree, htab⟩ |
      ⟨t', hi, hi', htab⟩
    · have hji : j ≠ i := fun hji => hnot t (hji ▸ hj)
      rw [hgw]
      exact h.gateway j t (hframe j hji ▸ hj)
    · rw [htab]
      by_cases hji : j = i
      · rw [hji, hi] at hj
        rw [Stage.wroteGateway.inj hj]
      · -- the lock was free, so no other call was between its writes
        rw [hframe j hji] at hj
        have hlock := (h.lock j).mpr (by rw [hj]; trivial)
        rw [hfree] at hlock
        nomatch hlock
    · rw [htab]
      have hji : j ≠ i := by
        rintro rfl
        rw [hi'] at hj
        nomatch hj
      exact h.gateway j t (hframe j hji ▸ hj)
  · intro hnone
    rcases tables_cases hcall with ⟨hgw, hroutes, hold, -⟩ | ⟨t', -, hi, -, -⟩ | ⟨t', hi, -, htab⟩
    · rw [hgw, hroutes]
      refine h.routes fun j t hj => ?_
      by_cases hji : j = i
      · exact hold t (hji ▸ hj)
      · exact hnone j t ((hframe j hji).trans hj)
    · exact absurd hi (hnone i t')
    · have hbuilt := h.built i t' (by rw [hi]; rfl)
      rw [htab]
      show compileRoutes env factory c.shared.tables.gateway = .ok t'.routes
      rw [h.gateway i t' hi]
      exact (buildTables_eq_ok.mp hbuilt).2.2

/-- Config and routes are sound in every state of every run. -/
theorem sound_of_reaches {jobs : ι → Job} {tables : Tables σ}
    (h0 : buildTables env factory tables.gateway = .ok tables)
    (h : (calls env factory).Reaches (startCalls jobs tables) c) : Sound env factory c :=
  System.reaches_invariant (fun _ _ _ hs hfire => sound_step hs hfire) h (sound_start jobs h0)

end Sound

/-! ## The consumer store -/

section Consumers

variable {ι σ : Type} [DecidableEq ι] {env : Env} {factory : PluginFactory σ}
  {c c' : Config ι (Stage σ) (Shared ι σ)}

/-- The condition on a call that takes the gateway lock: the consumers then in place are its own,
    or those of another call that has stored them and waits for the lock. -/
def StoreInPlace (i : ι) (c : Config ι (Stage σ) (Shared ι σ)) : Prop :=
  ∀ own, (c.threads i).waiting = some own →
    own = c.shared.tables.consumers ∨
      ∃ j, j ≠ i ∧ (c.threads j).waiting = some c.shared.tables.consumers

instance [Fintype ι] (i : ι) (c : Config ι (Stage σ) (Shared ι σ)) : Decidable (StoreInPlace i c) :=
  match h : (c.threads i).waiting with
  | none => isTrue fun own hown => by rw [h] at hown; nomatch hown
  | some own =>
    decidable_of_iff
      (own = c.shared.tables.consumers ∨
        ∃ j, j ≠ i ∧ (c.threads j).waiting = some c.shared.tables.consumers)
      (by simp [StoreInPlace, h])

/-- The consumers in place are those of the config in place, or of a call that is going to write
    its config. -/
def ConsumersFollow (c : Config ι (Stage σ) (Shared ι σ)) : Prop :=
  ConsumerStore.fromConfig c.shared.tables.gateway.consumers = .ok c.shared.tables.consumers ∨
    ∃ j, (c.threads j).waiting = some c.shared.tables.consumers

theorem consumersFollow_step {i : ι} (hsound : Sound env factory c) (h : ConsumersFollow c)
    (hplace : StoreInPlace i c) (hfire : (calls env factory).fire i c = some c') :
    ConsumersFollow c' := by
  obtain ⟨hstep, hframe⟩ := System.fire_spec hfire
  rcases consumers_cases (callStep_cases hstep) with ⟨hgw, hcons, hwait⟩ | hwait | ⟨t, hi, htab⟩
  · rcases h with hcur | ⟨j, hj⟩
    · exact Or.inl (by rw [hgw, hcons]; exact hcur)
    · refine Or.inr ⟨j, ?_⟩
      rw [hcons]
      by_cases hji : j = i
      · rw [hji, hwait, ← hji]
        exact hj
      · rw [hframe j hji]
        exact hj
  · exact Or.inr ⟨i, hwait⟩
  · rw [ConsumersFollow, htab]
    rcases hplace t.consumers (by rw [hi]; rfl) with hown | ⟨j, hji, hj⟩
    · have hbuilt := hsound.built i t (by rw [hi]; rfl)
      exact Or.inl (by rw [← hown]; exact (buildTables_eq_ok.mp hbuilt).2.1)
    · exact Or.inr ⟨j, by rw [hframe j hji]; exact hj⟩

/-- **The tables are consistent.**  In every run in which each call that takes the gateway lock
    finds the consumers of its own, or of another waiting call, in place, the three tables come
    from one config whenever all calls are over. -/
theorem tables_consistent_of_ordered {jobs : ι → Job} {tables : Tables σ}
    (h0 : buildTables env factory tables.gateway = .ok tables)
    (hrun : (calls env factory).ReachesWhen StoreInPlace (startCalls jobs tables) c)
    (hquiet : Quiescent c) :
    buildTables env factory c.shared.tables.gateway = .ok c.shared.tables := by
  have hinv : Sound env factory c ∧ ConsumersFollow c := by
    refine System.reachesWhen_invariant (P := fun c => Sound env factory c ∧ ConsumersFollow c)
      ?_ hrun ⟨sound_start jobs h0, Or.inl (buildTables_eq_ok.mp h0).2.1⟩
    rintro i c c' ⟨hsound, hfollow⟩ hplace hfire
    exact ⟨sound_step hsound hfire, consumersFollow_step hsound hfollow hplace hfire⟩
  obtain ⟨hsound, hfollow⟩ := hinv
  have hroutes := hsound.routes fun i t hi => by
    have hover := hquiet i
    rw [hi] at hover
    exact hover
  rcases hfollow with hcons | ⟨j, hj⟩
  · exact buildTables_eq_ok.mpr ⟨rfl, hcons, hroutes⟩
  · exact absurd (hquiet j) (Stage.not_over_of_waiting hj)

end Consumers

/-! ## Two overlapping calls -/

/-- A gateway of one consumer. -/
def gatewayNamed (name : String) : GatewayConfig where
  consumers := [{ name := name }]

/-- Two calls, of consumers `a` and `b`. -/
def applyBoth : Bool → Job
  | true => .apply (gatewayNamed "a")
  | false => .apply (gatewayNamed "b")

/-- `b` stores its consumers after `a`, but is the first to take the gateway lock. -/
theorem overlapping_calls_mix :
    buildTables (fun _ => none) unknownTypes emptyTables.gateway = .ok emptyTables ∧
    ∃ c : Config Bool (Stage Unit) (Shared Bool Unit),
      (calls (fun _ => none) unknownTypes).Reaches (startCalls applyBoth emptyTables) c ∧
      Quiescent c ∧
      buildTables (fun _ => none) unknownTypes c.shared.tables.gateway ≠ .ok c.shared.tables := by
  refine ⟨rfl, _, System.reaches_of_run
    [true, false, true, false, false, false, false, true, true, true] rfl, ?_, ?_⟩
  · rintro (_ | _) <;> exact trivial
  · intro h
    have hcons : ConsumerStore.fromConfig (gatewayNamed "a").consumers =
        .ok { byName := (∅ : HashMap Consumer).insert "b" (.ofConfig { name := "b" }) } :=
      (buildTables_eq_ok.mp h).2.1
    exact absurd hcons (by decide)

/-- The same two calls when the consumers of the waiting `b` are in place as `a` takes the lock. -/
theorem tables_consistent_of_ordered_applyBoth :
    ∃ c : Config Bool (Stage Unit) (Shared Bool Unit),
      (calls (fun _ => none) unknownTypes).ReachesWhen StoreInPlace
        (startCalls applyBoth emptyTables) c ∧
      buildTables (fun _ => none) unknownTypes c.shared.tables.gateway = .ok c.shared.tables := by
  have hrun : ∃ c, (calls (fun _ => none) unknownTypes).ReachesWhen StoreInPlace
      (startCalls applyBoth emptyTables) c ∧ Quiescent c := by
    refine ⟨_, System.reachesWhen_of_runWhen
      [true, false, true, false, true, true, true, false, false, false] rfl, ?_⟩
    rintro (_ | _) <;> exact trivial
  obtain ⟨c, hrun, hquiet⟩ := hrun
  exact ⟨c, hrun, tables_consistent_of_ordered rfl hrun hquiet⟩

end Featherbit
