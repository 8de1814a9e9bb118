/-
  SEVERAL `limit-conn` PAIRS IN ONE GATEWAY.

  The counters of all pairs are in one registry, by the keys the pairs render from the requests; the
  registry does not know which policy a key comes from.  So a pair is independent of the others in
  the runs where no request of another pair renders a key of one of its own (`pairs_independent`),
  and two pairs with the default key count the requests of a client together
  (`pairs_share_client`).
-/
import Featherbit.Traffic.ConnSlots

namespace Featherbit

section Pairs

variable [CaseMapping] [JsonText] {ι P : Type} (pairs : P → ConnPair) (policy : ι → P)
  (reqs : ι → ConnRequest)

/-- Any number of requests, each through the pair of its policy. -/
def connPairsSystem : Interleave.System ι ConnPc ConnRegistry where
  step i := connStep (pairs (policy i)) reqs i

/-- The keys that the two nodes render for a request. -/
def UsesKey (i : ι) (key : String) : Prop :=
  key = (pairs (policy i)).acquireKey (reqs i) ∨ key = (pairs (policy i)).releaseKey (reqs i)

/-- The counters are the same to the requests of pair `q`. -/
def SameTo (schedule : List ι) (q : P) (s t : ConnRegistry) : Prop :=
  ∀ i ∈ schedule, policy i = q → ∀ key, UsesKey pairs policy reqs i key → t.counter key = s.counter key

/-! ## One step -/

/-- A step depends on the counters of its keys, and leaves those alone that have other keys. -/
theorem connStep_local {pair : ConnPair} {reqs : ι → ConnRequest} {i : ι} {pc pc' : ConnPc}
    {counters counters' : ConnRegistry} (h : connStep pair reqs i pc counters = some (pc', counters')) :
    (∀ key, key ≠ pair.acquireKey (reqs i) → key ≠ pair.releaseKey (reqs i) →
      counters'.counter key = counters.counter key) ∧
    ∀ others : ConnRegistry,
      others.counter (pair.acquireKey (reqs i)) = counters.counter (pair.acquireKey (reqs i)) →
      others.counter (pair.releaseKey (reqs i)) = counters.counter (pair.releaseKey (reqs i)) →
      ∃ others' : ConnRegistry, connStep pair reqs i pc others = some (pc', others') ∧
        ∀ key, others.counter key = counters.counter key →
          others'.counter key = counters'.counter key := by
  -- a step that writes nothing
  have hread : ∀ {pc'' : ConnPc}, some (pc'', counters) = some (pc', counters') →
      (∀ key, key ≠ pair.acquireKey (reqs i) → key ≠ pair.releaseKey (reqs i) →
        counters'.counter key = counters.counter key) ∧
      ∀ others : ConnRegistry, ∃ others' : ConnRegistry, some (pc'', others) = some (pc', others') ∧
        ∀ key, others.counter key = counters.counter key →
          others'.counter key = counters'.counter key := by
    intro pc'' hsome
    obtain ⟨rfl, rfl⟩ := Prod.mk.inj (Option.some.inj hsome)
    exact ⟨fun key _ _ => rfl, fun others => ⟨others, rfl, fun key h => h⟩⟩
  -- a step that writes one counter of its own
  have hwrite : ∀ {pc'' : ConnPc} {own : String} {n : Int},
      own = pair.acquireKey (reqs i) ∨ own = pair.releaseKey (reqs i) →
      some (pc'', counters.insert own n) = some (pc', counters') →
      (∀ key, key ≠ pair.acquireKey (reqs i) → key ≠ pair.releaseKey (reqs i) →
        counters'.counter key = counters.counter key) ∧
      ∀ others : ConnRegistry, ∃ others' : ConnRegistry, some (pc'', others.insert own n) = some (pc', others') ∧
        ∀ key, others.counter key = counters.counter key →
          others'.counter key = counters'.counter key := by
    intro pc'' own n hown hsome
    obtain ⟨rfl, rfl⟩ := Prod.mk.inj (Option.some.inj hsome)
    refine ⟨fun key hacquire hrelease => ?_, fun others => ⟨others.insert own n, rfl, fun key hkey => ?_⟩⟩
    · have hne : key ≠ own := by
        rintro rfl
        rcases hown with h | h
        · exact hacquire h
        · exact hrelease h
      rw [ConnRegistry.counter_insert, if_neg hne]
    · rw [ConnRegistry.counter_insert, ConnRegistry.counter_insert, hkey]
  unfold connStep at h ⊢
  cases pc with
  | start =>
    obtain ⟨hframe, hsame⟩ := hwrite (Or.inl rfl) h
    refine ⟨hframe, fun others hacquire _ => ?_⟩
    dsimp only
    rw [hacquire]
    exact hsame others
  | added inFlight =>
    obtain ⟨hframe, hsame⟩ := hread h
    exact ⟨hframe, fun others _ _ => hsame others⟩
  | undoing =>
    obtain ⟨hframe, hsame⟩ := hwrite (Or.inl rfl) h
    refine ⟨hframe, fun others hacquire _ => ?_⟩
    dsimp only
    rw [hacquire]
    exact hsame others
  | admitted =>
    obtain ⟨hframe, hsame⟩ := hread h
    refine ⟨hframe, fun others _ hrelease => ?_⟩
    dsimp only
    rw [hrelease]
    exact hsame others
  | releasing cur tries =>
    dsimp only at h ⊢
    by_cases hcur : cur > 0
    · simp only [if_pos hcur] at h ⊢
      by_cases hswap : counters.counter (pair.releaseKey (reqs i)) = cur ∧
          (reqs i).spurious tries = false
      · rw [if_pos hswap] at h
        obtain ⟨hframe, hsame⟩ := hwrite (Or.inr rfl) h
        refine ⟨hframe, fun others _ hrelease => ?_⟩
        rw [hrelease, if_pos hswap]
        exact hsame others
      · rw [if_neg hswap] at h
        obtain ⟨hframe, hsame⟩ := hread h
        refine ⟨hframe, fun others _ hrelease => ?_⟩
        rw [hrelease, if_neg hswap]
        exact hsame others
    · simp only [if_neg hcur] at h ⊢
      obtain ⟨hframe, hsame⟩ := hread h
      exact ⟨hframe, fun others _ _ => hsame others⟩
  | rejected | released => cases h

/-! ## Runs -/

variable [DecidableEq ι] [DecidableEq P] {pairs policy reqs}

/-- **A pair by itself.**  The requests of several pairs take their atomic steps in any order, and
    none of another pair renders a key that one of pair `q` renders.  Then every request of pair `q`
    comes to the same place, admitted or rejected, when the other pairs get no traffic. -/
theorem pairs_independent (q : P) {schedule : List ι} {c : Interleave.Config ι ConnPc ConnRegistry}
    (hapart : ∀ i ∈ schedule, policy i = q → ∀ j ∈ schedule, policy j ≠ q →
      ∀ key, UsesKey pairs policy reqs i key → ¬ UsesKey pairs policy reqs j key)
    (hrun : (connPairsSystem pairs policy reqs).run schedule connStart = some c) :
    ∃ alone, (connPairsSystem pairs policy reqs).run (schedule.filter (policy · = q)) connStart =
        some alone ∧
      ∀ i, policy i = q → alone.threads i = c.threads i := by
  have hfilter : ∃ alone, (connPairsSystem pairs policy reqs).run
        (schedule.filter (policy · = q)) connStart = some alone ∧
      SameTo pairs policy reqs schedule q c.shared alone.shared ∧
      ∀ i, policy i = q → alone.threads i = c.threads i := by
    refine Interleave.System.run_filter schedule ?_ ?_ _ _ _ hrun (fun _ _ _ _ _ => rfl) fun _ _ => rfl
    · intro i hi hseen l s t l' s' hsame hstep
      obtain ⟨-, hlocal⟩ := connStep_local hstep
      obtain ⟨t', hstep', hlater⟩ := hlocal t (hsame i hi hseen _ (Or.inl rfl))
        (hsame i hi hseen _ (Or.inr rfl))
      exact ⟨t', hstep', fun j hj hq key hkey => hlater key (hsame j hj hq key hkey)⟩
    · intro i hi hunseen l s t l' s' hsame hstep j hj hq key hkey
      obtain ⟨hframe, -⟩ := connStep_local hstep
      have hother := hapart j hj hq i hi hunseen key hkey
      rw [hframe key (fun h => hother (Or.inl h)) fun h => hother (Or.inr h)]
      exact hsame j hj hq key hkey
  obtain ⟨alone, halone, -, hthreads⟩ := hfilter
  exact ⟨alone, halone, hthreads⟩

end Pairs

/-! ## Two pairs with the default key -/

open LimitConnPlugin

/-- A node that lets one request of a client through at a time. -/
def singleConfig (phase : String) : HashMap Json :=
  (defaultConfig phase).insert "conn" (.number (.posInt 1))

/-- The node it configures. -/
def singleNode (role : ConnRole) : LimitConnPlugin :=
  { defaultNode role with conn := 1, conn_pos := by decide }

def singlePair : ConnPair where
  acquire := singleNode .acquire
  release := singleNode .release
  key_eq := rfl
  keyConstant_eq := rfl

/-- Two clients, each at its own policy. -/
def twoClients (second : Bool) : ConnRequest :=
  if second then
    { proxiedRequest with
      acquireCtx := contextFrom "10.0.0.2:5000", releaseCtx := contextFrom "10.0.0.2:5000" }
  else directRequest

theorem pairs_independent_two_clients :
    let _ : CaseMapping := asciiCaseMapping
    let _ : JsonText := oneFieldText
    ∃ c alone, (connPairsSystem (fun _ : Bool => singlePair) id twoClients).run
        [false, false, true, true] connStart = some c ∧
      (connPairsSystem (fun _ : Bool => singlePair) id twoClients).run
        ([false, false, true, true].filter (id · = true)) connStart = some alone ∧
      alone.threads true = c.threads true := by
  intro _ _
  have hruns : ((connPairsSystem (fun _ : Bool => singlePair) id twoClients).run
      [false, false, true, true] connStart).isSome := by decide +kernel
  obtain ⟨c, hrun⟩ := Option.isSome_iff_exists.mp hruns
  have hkeys : ∀ i key, UsesKey (fun _ : Bool => singlePair) id twoClients i key →
      key = if i then "10.0.0.2" else "10.0.0.1" := by
    rintro i key (rfl | rfl)
    · revert i
      decide +kernel
    · revert i
      decide +kernel
  obtain ⟨alone, halone, hsame⟩ := pairs_independent true (fun i _ hi j _ hj key hkey hkey' => by
    have hfalse : j = false := Bool.eq_false_iff.mpr hj
    have htrue : i = true := hi
    rw [hkeys i key hkey, hfalse, htrue] at hkey'
    have := hkeys false _ hkey'
    exact absurd this (by decide)) hrun
  exact ⟨c, alone, hrun, halone, hsame true rfl⟩

/-- A client's request to the first policy takes the only slot of the second one: its request there
    is rejected, and would be admitted without the first. -/
theorem pairs_share_client :
    let _ : CaseMapping := asciiCaseMapping
    let _ : JsonText := oneFieldText
    fromConfig (singleConfig "acquire") = .ok singlePair.acquire ∧
    fromConfig (singleConfig "release") = .ok singlePair.release ∧
    (((connPairsSystem (fun _ : Bool => singlePair) id fun _ => directRequest).run
      [false, false, true, true, true] connStart).map fun c => c.threads true) = some .rejected ∧
    (((connPairsSystem (fun _ : Bool => singlePair) id fun _ => directRequest).run
      ([false, false, true, true, true].filter (id · = true)) connStart).map fun c => c.threads true) =
        some (.releasing 1 0) := by
  intro _ _
  refine ⟨rfl, rfl, ?_, ?_⟩
  · decide +kernel
  · decide +kernel

end Featherbit
