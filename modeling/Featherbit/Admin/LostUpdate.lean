/-
  IS AN ADMIN MUTATION EVER LOST?

  Each handler reads the config, edits its copy and writes the copy back; the read lock it took
  its snapshot under is given back before the commit, and the commit does not look at what is in
  place.  Two handlers that overlap can therefore both answer success while the later write undoes
  the earlier one (`lost_update`).

  What holds is in `mutations_kept`: the last write always stands; and no write is lost in a run
  in which no handler takes its snapshot while another is between its snapshot and its write.
-/
import Featherbit.State.Calls

namespace Featherbit

open Interleave

section Mutations

variable {ι σ : Type} {env : Env} {factory : PluginFactory σ}

/-- The config a call is going to write: it has its candidate and has not written it yet. -/
def Stage.underWay : Stage σ → Option GatewayConfig
  | .candidate gw => some gw
  | .built t | .stored t => some t.gateway
  | _ => none

/-- The call has written its config. -/
def Stage.Written : Stage σ → Prop
  | .wroteGateway _ | .wroteRoutes _ | .returned (.ok ()) => True
  | _ => False

/-- The call has not taken its snapshot yet. -/
def Stage.isSnapshot : Stage σ → Bool
  | .snapshot _ => true
  | _ => false

/-- The call answered success. -/
def Succeeded (c : Config ι (Stage σ) (Shared ι σ)) (i : ι) : Prop :=
  c.threads i = .returned (.ok ())

/-- A gateway config shows what a request asked for. -/
def GatewayConfig.Shows (gw : GatewayConfig) (req : AdminRequest) : Prop :=
  gw.lookup req.key = req.effect

theorem Stage.succeeded_of_written {stage : Stage σ} (hw : stage.Written) (ho : stage.Over) :
    stage = .returned (.ok ()) := by
  cases stage with
  | returned result =>
    cases result with
    | ok u => rfl
    | error e => exact hw.elim
  | snapshot | candidate | built | stored | wroteGateway | wroteRoutes => exact ho.elim
  | refused => exact hw.elim

/-- What a step of a handler does to the config: it takes a candidate from it, leaves it alone, or
    writes its candidate over it. -/
theorem config_cases {i : ι} {l l' : Stage σ} {s s' : Shared ι σ}
    (h : CallStep env factory i l s l' s') :
    (∃ req gw, l = .snapshot req ∧ req.handler.candidate s.tables.gateway = .ok gw ∧
      l' = .candidate gw ∧ s'.tables.gateway = s.tables.gateway) ∨
    (s'.tables.gateway = s.tables.gateway ∧ (∀ req, l' ≠ .snapshot req) ∧
      (∀ gw, l'.underWay = some gw → l.underWay = some gw) ∧ (l'.Written ↔ l.Written)) ∨
    (∃ t, l = .stored t ∧ l' = .wroteGateway t ∧ s'.tables.gateway = t.gateway) := by
  cases h with
  | takeSnapshot hfree hc => exact Or.inl ⟨_, _, rfl, hc, rfl, rfl⟩
  | refuse | reject => exact Or.inr (Or.inl ⟨rfl, nofun, nofun, Iff.rfl⟩)
  | build hb =>
    refine Or.inr (Or.inl ⟨rfl, nofun, fun gw hgw => ?_, Iff.rfl⟩)
    rw [← hgw]
    exact congrArg some (buildTables_eq_ok.mp hb).1.symm
  | store => exact Or.inr (Or.inl ⟨rfl, nofun, fun _ h => h, Iff.rfl⟩)
  | writeRoutes | release => exact Or.inr (Or.inl ⟨rfl, nofun, nofun, Iff.rfl⟩)
  | writeGateway => exact Or.inr (Or.inr ⟨_, rfl, rfl, rfl⟩)

variable [DecidableEq ι] {reqs : ι → AdminRequest} {i : ι}
  {c c' : Config ι (Stage σ) (Shared ι σ)}

/-! ## The last write stands -/

/-- Each call carries its own request's effect, and once one has written, some call's effect is in
    place. -/
structure Carries (reqs : ι → AdminRequest) (c : Config ι (Stage σ) (Shared ι σ)) : Prop where
  own : ∀ i req, c.threads i = .snapshot req → req = reqs i
  carries : ∀ i gw, (c.threads i).underWay = some gw → gw.Shows (reqs i)
  last : (∃ i, (c.threads i).Written) →
    ∃ i, (c.threads i).Written ∧ c.shared.tables.gateway.Shows (reqs i)

omit [DecidableEq ι] in
theorem carries_start (tables : Tables σ) :
    Carries reqs (startCalls (fun i => .admin (reqs i)) tables) where
  own _ _ h := (Stage.snapshot.inj h).symm
  carries _ _ h := nomatch h
  last := fun ⟨_, h⟩ => h.elim

theorem carries_step (h : Carries reqs c) (hfire : (calls env factory).fire i c = some c') :
    Carries reqs c' := by
  obtain ⟨hstep, hframe⟩ := System.fire_spec hfire
  obtain ⟨hown, hcarries, hlast⟩ := h
  rcases config_cases (callStep_cases hstep) with ⟨req, gw, hi, hc, hi', hgw⟩ |
    ⟨hgw, hsnap, hunder, hwritten⟩ | ⟨t, hi, hi', hgw⟩
  · obtain rfl := hown i req hi
    refine ⟨fun j req hj => ?_, fun j gw' hj => ?_, fun ⟨j, hj⟩ => ?_⟩
    · by_cases hji : j = i
      · rw [hji, hi'] at hj; nomatch hj
      · exact hown j req (hframe j hji ▸ hj)
    · by_cases hji : j = i
      · rw [hji, hi'] at hj
        obtain rfl := Option.some.inj hj
        rw [hji]
        exact (candidate_lookup _ hc _).trans (if_pos rfl)
      · exact hcarries j gw' (hframe j hji ▸ hj)
    · have hji : j ≠ i := by rintro rfl; rw [hi'] at hj; exact hj
      obtain ⟨k, hk, hshows⟩ := hlast ⟨j, hframe j hji ▸ hj⟩
      have hki : k ≠ i := by rintro rfl; rw [hi] at hk; exact hk
      exact ⟨k, by rw [hframe k hki]; exact hk, by rw [hgw]; exact hshows⟩
  · have hw : ∀ j, (c'.threads j).Written ↔ (c.threads j).Written := by
      intro j
      by_cases hji : j = i
      · rw [hji]; exact hwritten
      · rw [hframe j hji]
    refine ⟨fun j req hj => ?_, fun j gw' hj => ?_, fun ⟨j, hj⟩ => ?_⟩
    · by_cases hji : j = i
      · exact absurd (hji ▸ hj) (hsnap req)
      · exact hown j req (hframe j hji ▸ hj)
    · by_cases hji : j = i
      · rw [hji] at hj ⊢
        exact hcarries i gw' (hunder gw' hj)
      · exact hcarries j gw' (hframe j hji ▸ hj)
    · obtain ⟨k, hk, hshows⟩ := hlast ⟨j, (hw j).mp hj⟩
      exact ⟨k, (hw k).mpr hk, by rw [hgw]; exact hshows⟩
  · refine ⟨fun j req hj => ?_, fun j gw' hj => ?_, fun _ => ⟨i, ?_, ?_⟩⟩
    · by_cases hji : j = i
      · rw [hji, hi'] at hj; nomatch hj
      · exact hown j req (hframe j hji ▸ hj)
    · by_cases hji : j = i
      · rw [hji, hi'] at hj; nomatch hj
      · exact hcarries j gw' (hframe j hji ▸ hj)
    · rw [hi']; trivial
    · rw [hgw]
      exact hcarries i t.gateway (by rw [hi]; rfl)

/-! ## No write is lost without an overlap -/

/-- The condition on a snapshot: no other call is between its snapshot and its write. -/
def NoOverlap (i : ι) (c : Config ι (Stage σ) (Shared ι σ)) : Prop :=
  (c.threads i).isSnapshot = true → ∀ j, j ≠ i → (c.threads j).underWay.isNone = true

instance [Fintype ι] (i : ι) (c : Config ι (Stage σ) (Shared ι σ)) : Decidable (NoOverlap i c) :=
  inferInstanceAs (Decidable (_ → _))

/-- At most one call is under way, its candidate was taken from the config in place, and every
    write is still there. -/
structure Keeps (reqs : ι → AdminRequest) (c : Config ι (Stage σ) (Shared ι σ)) : Prop where
  own : ∀ i req, c.threads i = .snapshot req → req = reqs i
  alone : ∀ i j gw gw', (c.threads i).underWay = some gw → (c.threads j).underWay = some gw' → i = j
  fresh : ∀ i gw, (c.threads i).underWay = some gw →
    (reqs i).handler.candidate c.shared.tables.gateway = .ok gw
  kept : ∀ i, (c.threads i).Written → c.shared.tables.gateway.Shows (reqs i)

omit [DecidableEq ι] in
theorem keeps_start (tables : Tables σ) :
    Keeps reqs (startCalls (fun i => .admin (reqs i)) tables) where
  own _ _ h := (Stage.snapshot.inj h).symm
  alone _ _ _ _ h := nomatch h
  fresh _ _ h := nomatch h
  kept _ h := h.elim

theorem keeps_step (hdist : ∀ i j, i ≠ j → (reqs i).key ≠ (reqs j).key) (h : Keeps reqs c)
    (hno : NoOverlap i c) (hfire : (calls env factory).fire i c = some c') : Keeps reqs c' := by
  obtain ⟨hstep, hframe⟩ := System.fire_spec hfire
  obtain ⟨hown, halone, hfresh, hkept⟩ := h
  rcases config_cases (callStep_cases hstep) with ⟨req, gw, hi, hc, hi', hgw⟩ |
    ⟨hgw, hsnap, hunder, hwritten⟩ | ⟨t, hi, hi', hgw⟩
  · -- a candidate is made: nobody else has one under way
    obtain rfl := hown i req hi
    have hothers : ∀ j gw', (c'.threads j).underWay = some gw' → j = i := by
      intro j gw' hj
      by_contra hji
      rw [hframe j hji] at hj
      have hnone := hno (by rw [hi]; rfl) j hji
      rw [hj] at hnone
      nomatch hnone
    refine ⟨fun j req hj => ?_, fun j k gw' gw'' hj hk => ?_, fun j gw' hj => ?_, fun j hj => ?_⟩
    · by_cases hji : j = i
      · rw [hji, hi'] at hj; nomatch hj
      · exact hown j req (hframe j hji ▸ hj)
    · rw [hothers j gw' hj, hothers k gw'' hk]
    · obtain rfl := hothers j gw' hj
      rw [hi'] at hj
      obtain rfl := Option.some.inj hj
      rw [hgw]
      exact hc
    · have hji : j ≠ i := by rintro rfl; rw [hi'] at hj; exact hj
      rw [hgw]
      exact hkept j (hframe j hji ▸ hj)
  · -- the candidate is worked on, or given up
    have hu : ∀ j gw', (c'.threads j).underWay = some gw' → (c.threads j).underWay = some gw' := by
      intro j gw' hj
      by_cases hji : j = i
      · rw [hji] at hj ⊢
        exact hunder gw' hj
      · exact hframe j hji ▸ hj
    refine ⟨fun j req hj => ?_, fun j k gw' gw'' hj hk => ?_, fun j gw' hj => ?_, fun j hj => ?_⟩
    · by_cases hji : j = i
      · exact absurd (hji ▸ hj) (hsnap req)
      · exact hown j req (hframe j hji ▸ hj)
    · exact halone j k gw' gw'' (hu j gw' hj) (hu k gw'' hk)
    · rw [hgw]
      exact hfresh j gw' (hu j gw' hj)
    · rw [hgw]
      by_cases hji : j = i
      · rw [hji] at hj ⊢
        exact hkept i (hwritten.mp hj)
      · exact hkept j (hframe j hji ▸ hj)
  · -- the candidate is put in place, and it was the only one
    have hit : (c.threads i).underWay = some t.gateway := by rw [hi]; rfl
    have hcand := hfresh i t.gateway hit
    have hnone : ∀ j gw', (c'.threads j).underWay ≠ some gw' := by
      intro j gw' hj
      by_cases hji : j = i
      · rw [hji, hi'] at hj; nomatch hj
      · rw [hframe j hji] at hj
        exact hji (halone j i gw' t.gateway hj hit)
    refine ⟨fun j req hj => ?_, fun j k gw' gw'' hj _ => absurd hj (hnone j gw'),
      fun j gw' hj => absurd hj (hnone j gw'), fun j hj => ?_⟩
    · by_cases hji : j = i
      · rw [hji, hi'] at hj; nomatch hj
      · exact hown j req (hframe j hji ▸ hj)
    · rw [hgw, GatewayConfig.Shows, candidate_lookup _ hcand]
      by_cases hji : j = i
      · rw [hji, if_pos rfl]
      · -- the write of `i` leaves the other keys as they were
        rw [if_neg (hdist j i hji)]
        exact hkept j (hframe j hji ▸ hj)

/-- **What becomes of concurrent mutations** of different resources.  When all handlers are over,
    the effect of a successful one is in place if any was successful (the last to write); and in
    every run without an overlap the effect of each successful one is. -/
theorem mutations_kept (reqs : ι → AdminRequest)
    (hdist : ∀ i j, i ≠ j → (reqs i).key ≠ (reqs j).key) (tables : Tables σ) :
    (∀ c, (calls env factory).Reaches (startCalls (fun i => .admin (reqs i)) tables) c →
      Quiescent c → (∃ i, Succeeded c i) →
        ∃ i, Succeeded c i ∧ c.shared.tables.gateway.Shows (reqs i)) ∧
    (∀ c, (calls env factory).ReachesWhen NoOverlap (startCalls (fun i => .admin (reqs i)) tables) c →
      ∀ i, Succeeded c i → c.shared.tables.gateway.Shows (reqs i)) := by
  constructor
  · rintro c hrun hquiet ⟨i, hi⟩
    have hinv : Carries reqs c :=
      System.reaches_invariant (fun _ _ _ h hfire => carries_step h hfire) hrun
        (carries_start tables)
    obtain ⟨k, hk, hshows⟩ := hinv.last ⟨i, by rw [hi]; trivial⟩
    exact ⟨k, Stage.succeeded_of_written hk (hquiet k), hshows⟩
  · intro c hrun i hi
    have hinv : Keeps reqs c :=
      System.reachesWhen_invariant (fun _ _ _ h hno hfire => keeps_step hdist h hno hfire) hrun
        (keeps_start tables)
    exact hinv.kept i (by rw [hi]; trivial)

end Mutations

/-! ## Two overlapping creates -/

/-- Two requests that create consumers `a` and `b`. -/
def createBoth : Bool → AdminRequest
  | true => .createConsumer { name := "a" }
  | false => .createConsumer { name := "b" }

/-- One create after the other. -/
theorem mutations_kept_createBoth :
    ∃ c : Config Bool (Stage Unit) (Shared Bool Unit),
      (Succeeded c true ∧ Succeeded c false) ∧
      c.shared.tables.gateway.Shows (createBoth true) ∧
      c.shared.tables.gateway.Shows (createBoth false) := by
  have hrun : ∃ c, (calls (fun _ => none) unknownTypes).ReachesWhen NoOverlap
      (startCalls (fun i => .admin (createBoth i)) emptyTables) c ∧
      (Succeeded c true ∧ Succeeded c false) :=
    ⟨_, System.reachesWhen_of_runWhen
      [true, true, true, true, true, true, false, false, false, false, false, false] rfl, rfl, rfl⟩
  obtain ⟨c, hrun, hsucc⟩ := hrun
  have hkept := (mutations_kept createBoth (by decide) emptyTables).2 c hrun
  exact ⟨c, hsucc, hkept true hsucc.1, hkept false hsucc.2⟩

/-- Both creates take their snapshots before either writes: both answer success, and the first
    write is gone. -/
theorem lost_update :
    (createBoth true).key ≠ (createBoth false).key ∧
    ∃ c : Config Bool (Stage Unit) (Shared Bool Unit),
      (calls (fun _ => none) unknownTypes).Reaches
        (startCalls (fun i => .admin (createBoth i)) emptyTables) c ∧
      Quiescent c ∧ (Succeeded c true ∧ Succeeded c false) ∧
      ¬ c.shared.tables.gateway.Shows (createBoth true) := by
  refine ⟨by decide, _, System.reaches_of_run
    [true, false, true, true, true, true, true, false, false, false, false, false] rfl, ?_,
    ⟨rfl, rfl⟩, ?_⟩
  · rintro (_ | _) <;> exact trivial
  · intro h
    nomatch h

end Featherbit
