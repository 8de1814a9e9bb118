/-
  THE SLOTS OF A `limit-conn` PAIR, step by step (`traffic/mod.rs`, and `execute` of
  `plugins/native/limit_conn.rs`).

  Requests share counters and take turns at them.  An acquire is three atomic steps: `fetch_add`,
  the comparison, and, for a request over the ceiling, `fetch_sub`; so a request that is about to be
  rejected is counted for a while.  A release loads the counter and tries to lower it until a
  compare-exchange succeeds, which may also fail for no reason (`spurious`).

  A request holds its counter up from its `fetch_add` to the step that gives the slot back
  (`ConnPc.Holds`), and `slotsInv_step` keeps the counter equal to the number of holders.  This needs
  every release to find the counter its acquire raised: the release renders the key anew, from the
  context it is given, and `noLeak_iff` says that this is all that can go wrong.

  A counter counts requests in flight; its `i64` range is never exhausted.
-/
import Featherbit.Lib.Census
import Featherbit.Lib.Interleave
import Featherbit.Plugins.LimitConn

namespace Featherbit

/-- `ConnRegistry`: the counters by key. -/
abbrev ConnRegistry := HashMap Int

/-- The counter for a key, created on first use. -/
def ConnRegistry.counter (counters : ConnRegistry) (key : String) : Int := counters.getD key 0

/-- An acquire and a release node with the same key template. -/
structure ConnPair where
  acquire : LimitConnPlugin
  release : LimitConnPlugin
  key_eq : release.key = acquire.key
  keyConstant_eq : release.keyConstant = acquire.keyConstant

/-- A request on its way through the pair: the contexts the two nodes are given, and which of its
    compare-exchanges fail spuriously. -/
structure ConnRequest where
  acquireCtx : Context
  releaseCtx : Context
  spurious : Nat → Bool

/-- Where a request is. -/
inductive ConnPc where
  | start
  /-- `fetch_add` returned this -/
  | added (inFlight : Int)
  /-- over the ceiling, and still counted -/
  | undoing
  | rejected
  | admitted
  /-- the value last read, and the number of compare-exchanges tried -/
  | releasing (cur : Int) (tries : Nat)
  /-- the counter that was lowered, if any -/
  | released (lowered : Option String)
deriving DecidableEq

namespace ConnPc

/-- The request is between its first acquire step and its release. -/
def Holds : ConnPc → Prop
  | added _ | undoing | admitted | releasing _ _ => True
  | start | rejected | released _ => False

/-- The request is admitted, and its slot is not given back. -/
def Admitted : ConnPc → Prop
  | admitted | releasing _ _ => True
  | start | added _ | undoing | rejected | released _ => False

/-- The request is admitted, or about to be. -/
def Wins (ceiling : Int) : ConnPc → Prop
  | added inFlight => inFlight < ceiling
  | admitted | releasing _ _ => True
  | start | undoing | rejected | released _ => False

theorem Admitted.wins {ceiling : Int} {pc : ConnPc} (h : pc.Admitted) : pc.Wins ceiling := by
  cases pc <;> first | exact trivial | exact h.elim

/-- A request that is admitted, or about to be, is counted. -/
theorem Wins.holds {ceiling : Int} {pc : ConnPc} (h : pc.Wins ceiling) : pc.Holds := by
  cases pc <;> first | exact trivial | exact h.elim

end ConnPc

section System

variable [CaseMapping] [JsonText] {ι : Type} (pair : ConnPair) (reqs : ι → ConnRequest)

/-- The key the acquire node renders. -/
def ConnPair.acquireKey (req : ConnRequest) : String := pair.acquire.resolveKey req.acquireCtx

/-- The key the release node renders. -/
def ConnPair.releaseKey (req : ConnRequest) : String := pair.release.resolveKey req.releaseCtx

/-- The next atomic step of a request. -/
def connStep (i : ι) (pc : ConnPc) (counters : ConnRegistry) : Option (ConnPc × ConnRegistry) :=
  let acquireKey := pair.acquireKey (reqs i)
  let releaseKey := pair.releaseKey (reqs i)
  match pc with
  | .start =>
    let inFlight := counters.counter acquireKey
    some (.added inFlight, counters.insert acquireKey (inFlight + 1))
  | .added inFlight =>
    some (if inFlight ≥ pair.acquire.ceiling then .undoing else .admitted, counters)
  | .undoing =>
    some (.rejected, counters.insert acquireKey (counters.counter acquireKey - 1))
  | .admitted => some (.releasing (counters.counter releaseKey) 0, counters)
  | .releasing cur tries =>
    if cur > 0 then
      let actual := counters.counter releaseKey
      if actual = cur ∧ (reqs i).spurious tries = false then
        some (.released (some releaseKey), counters.insert releaseKey (cur - 1))
      else some (.releasing actual (tries + 1), counters)
    else some (.released none, counters)
  | .rejected | .released _ => none

/-- Any number of requests through the pair. -/
def connSystem : Interleave.System ι ConnPc ConnRegistry where
  step := connStep pair reqs

/-- No request has come yet, and no counter has been used. -/
def connStart : Interleave.Config ι ConnPc ConnRegistry where
  threads _ := .start
  shared := ∅

/-- What the node answers a request. -/
def ConnRequest.answer (req : ConnRequest) : ConnPc → Option PluginResult
  | .rejected => some (pair.acquire.reject req.acquireCtx)
  | .admitted => some (.ok { context := req.acquireCtx, namedOutputs := ∅ })
  | .released _ => some (.ok { context := req.releaseCtx, namedOutputs := ∅ })
  | .start | .added _ | .undoing | .releasing _ _ => none

end System

theorem ConnRegistry.counter_insert (counters : ConnRegistry) (key : String) (n : Int) (k : String) :
    ConnRegistry.counter (counters.insert key n) k =
      if k = key then n else counters.counter k := by
  unfold ConnRegistry.counter
  rw [Std.ExtTreeMap.getD_eq_getD_getElem?, Std.ExtTreeMap.getD_eq_getD_getElem?,
    HashMap.get_insert]
  split
  · rfl
  · rfl

/-! ## Who holds a counter up -/

section Slots

variable [CaseMapping] [JsonText] {ι : Type} [DecidableEq ι] {pair : ConnPair}
  {reqs : ι → ConnRequest} {c c' : Interleave.Config ι ConnPc ConnRegistry} {i : ι} {key : String}

/-- The request is counted on the key. -/
def HoldsKey (pair : ConnPair) (reqs : ι → ConnRequest) (key : String) (i : ι) (pc : ConnPc) : Prop :=
  pair.acquireKey (reqs i) = key ∧ pc.Holds

/-- The request is counted on the key, and admitted or about to be. -/
def WinsKey (pair : ConnPair) (reqs : ι → ConnRequest) (key : String) (i : ι) (pc : ConnPc) : Prop :=
  pair.acquireKey (reqs i) = key ∧ pc.Wins pair.acquire.ceiling

/-- The counter of a key is the number of its holders, and no more of them are admitted than the
    configuration allows. -/
structure SlotsCounted (pair : ConnPair) (reqs : ι → ConnRequest)
    (c : Interleave.Config ι ConnPc ConnRegistry) (key : String) : Prop where
  holders : ∃ S, Census (HoldsKey pair reqs key) c.threads S ∧ c.shared.counter key = S.card
  winners : ∃ S, Census (WinsKey pair reqs key) c.threads S ∧ (S.card : Int) ≤ pair.acquire.limit

/-- What the next step of a request can be. -/
theorem connStep_cases (h : (connSystem pair reqs).fire i c = some c') :
    (c.threads i = .start ∧
      c'.threads = Function.update c.threads i (.added (c.shared.counter (pair.acquireKey (reqs i)))) ∧
      c'.shared = c.shared.insert (pair.acquireKey (reqs i))
        (c.shared.counter (pair.acquireKey (reqs i)) + 1)) ∨
    (∃ inFlight, c.threads i = .added inFlight ∧ c'.shared = c.shared ∧
      c'.threads = Function.update c.threads i
        (if inFlight ≥ pair.acquire.ceiling then .undoing else .admitted)) ∨
    (c.threads i = .undoing ∧ c'.threads = Function.update c.threads i .rejected ∧
      c'.shared = c.shared.insert (pair.acquireKey (reqs i))
        (c.shared.counter (pair.acquireKey (reqs i)) - 1)) ∨
    (∃ tries, (c.threads i = .admitted ∨ ∃ cur' tries', c.threads i = .releasing cur' tries') ∧
      c'.threads = Function.update c.threads i
        (.releasing (c.shared.counter (pair.releaseKey (reqs i))) tries) ∧
      c'.shared = c.shared) ∨
    (∃ tries, c.threads i = .releasing (c.shared.counter (pair.releaseKey (reqs i))) tries ∧
      0 < c.shared.counter (pair.releaseKey (reqs i)) ∧
      c'.threads = Function.update c.threads i (.released (some (pair.releaseKey (reqs i)))) ∧
      c'.shared = c.shared.insert (pair.releaseKey (reqs i))
        (c.shared.counter (pair.releaseKey (reqs i)) - 1)) ∨
    (∃ cur tries, c.threads i = .releasing cur tries ∧ cur ≤ 0 ∧
      c'.threads = Function.update c.threads i (.released none) ∧ c'.shared = c.shared) := by
  obtain ⟨⟨pc, counters⟩, hstep, rfl⟩ := Option.map_eq_some_iff.mp h
  simp only [connSystem, connStep] at hstep
  cases hpc : c.threads i with
  | start =>
    rw [hpc] at hstep
    obtain ⟨rfl, rfl⟩ := Prod.mk.inj (Option.some.inj hstep)
    exact Or.inl ⟨rfl, rfl, rfl⟩
  | added inFlight =>
    rw [hpc] at hstep
    obtain ⟨rfl, rfl⟩ := Prod.mk.inj (Option.some.inj hstep)
    exact Or.inr (Or.inl ⟨inFlight, rfl, rfl, rfl⟩)
  | undoing =>
    rw [hpc] at hstep
    obtain ⟨rfl, rfl⟩ := Prod.mk.inj (Option.some.inj hstep)
    exact Or.inr (Or.inr (Or.inl ⟨rfl, rfl, rfl⟩))
  | admitted =>
    rw [hpc] at hstep
    obtain ⟨rfl, rfl⟩ := Prod.mk.inj (Option.some.inj hstep)
    exact Or.inr (Or.inr (Or.inr (Or.inl ⟨_, Or.inl rfl, rfl, rfl⟩)))
  | releasing cur tries =>
    rw [hpc] at hstep
    dsimp only at hstep
    by_cases hcur : cur > 0
    · rw [if_pos hcur] at hstep
      split at hstep
      · rename_i hsame
        obtain ⟨rfl, rfl⟩ := Prod.mk.inj (Option.some.inj hstep)
        obtain ⟨rfl, -⟩ := hsame
        exact Or.inr (Or.inr (Or.inr (Or.inr (Or.inl ⟨tries, rfl, hcur, rfl, rfl⟩))))
      · obtain ⟨rfl, rfl⟩ := Prod.mk.inj (Option.some.inj hstep)
        exact Or.inr (Or.inr (Or.inr (Or.inl ⟨_, Or.inr ⟨cur, tries, rfl⟩, rfl, rfl⟩)))
    · rw [if_neg hcur] at hstep
      obtain ⟨rfl, rfl⟩ := Prod.mk.inj (Option.some.inj hstep)
      exact Or.inr (Or.inr (Or.inr (Or.inr (Or.inr ⟨cur, tries, rfl, Int.not_lt.mp hcur, rfl, rfl⟩))))
  | rejected | released =>
    rw [hpc] at hstep
    cases hstep

/-- Every counter counts its holders; a request that is about to lower the counter it raised has
    read it positive; and no release lowered another counter, or none. -/
structure SlotsInv (pair : ConnPair) (reqs : ι → ConnRequest)
    (c : Interleave.Config ι ConnPc ConnRegistry) : Prop where
  counted : ∀ key, SlotsCounted pair reqs c key
  reading : ∀ i cur tries, c.threads i = .releasing cur tries →
    pair.releaseKey (reqs i) = pair.acquireKey (reqs i) → 0 < cur
  lowered : ∀ i r, c.threads i = .released r → r = some (pair.acquireKey (reqs i))

omit [DecidableEq ι] in
theorem slotsInv_start : SlotsInv pair reqs (connStart (ι := ι)) where
  counted key := by
    refine ⟨⟨∅, Census.empty fun i h => h.2, ?_⟩, ⟨∅, Census.empty fun i h => h.2, ?_⟩⟩
    · show ConnRegistry.counter ∅ key = _
      simp [ConnRegistry.counter]
    · have hpos := pair.acquire.limit_pos
      rw [Finset.card_empty]
      omega
  reading := by
    intro i cur tries h
    cases h
  lowered := by
    intro i r h
    cases h

omit [DecidableEq ι] in
/-- A counter is positive while somebody holds it up. -/
theorem SlotsCounted.counter_pos (h : SlotsCounted pair reqs c key)
    (hholds : HoldsKey pair reqs key i (c.threads i)) : 0 < c.shared.counter key := by
  obtain ⟨S, hS, hcount⟩ := h.holders
  have hmem : i ∈ S := (hS i).mpr hholds
  have hcard := Finset.card_pos.mpr ⟨i, hmem⟩
  omega

omit [DecidableEq ι] in
/-- A request that raises the counter below the ceiling finds room in the limit. -/
theorem SlotsCounted.room (h : SlotsCounted pair reqs c key)
    (hbelow : c.shared.counter key < pair.acquire.ceiling) :
    ∃ S, Census (WinsKey pair reqs key) c.threads S ∧ (S.card : Int) + 1 ≤ pair.acquire.limit := by
  obtain ⟨S, hS, hcount⟩ := h.holders
  obtain ⟨W, hW, hcard⟩ := h.winners
  have hsub : W ⊆ S := hS.subset fun j hj => by
    obtain ⟨hk, hwins⟩ := (hW j).mp hj
    exact ⟨hk, hwins.holds⟩
  have hle := Finset.card_le_card hsub
  refine ⟨W, hW, ?_⟩
  rcases pair.acquire.ceiling_eq with heq | ⟨hneg, -⟩ <;> omega

section Counted

variable {threads : ι → ConnPc} {shared shared' : ConnRegistry} {pc : ConnPc}

/-- A step that leaves the counter alone, and the request on its side. -/
theorem SlotsCounted.stay (h : SlotsCounted pair reqs ⟨threads, shared⟩ key)
    (hcount : shared'.counter key = shared.counter key)
    (hholds : pair.acquireKey (reqs i) = key → (pc.Holds ↔ (threads i).Holds))
    (hwins : pair.acquireKey (reqs i) = key →
      (pc.Wins pair.acquire.ceiling ↔ (threads i).Wins pair.acquire.ceiling)) :
    SlotsCounted pair reqs ⟨Function.update threads i pc, shared'⟩ key := by
  obtain ⟨⟨S, hS, hcard⟩, ⟨W, hW, hle⟩⟩ := h
  refine ⟨⟨S, hS.stay (and_congr_right hholds), ?_⟩, ⟨W, hW.stay (and_congr_right hwins), hle⟩⟩
  show shared'.counter key = _
  rw [hcount]
  exact hcard

/-- A step that gives the slot back. -/
theorem SlotsCounted.leave (h : SlotsCounted pair reqs ⟨threads, shared⟩ key)
    (hcount : shared'.counter key = shared.counter key - 1)
    (hin : HoldsKey pair reqs key i (threads i)) (hout : ¬ pc.Holds) :
    SlotsCounted pair reqs ⟨Function.update threads i pc, shared'⟩ key := by
  obtain ⟨⟨S, hS, hcard⟩, ⟨W, hW, hle⟩⟩ := h
  obtain ⟨hS', hcard'⟩ := hS.leave (l := pc) hin fun h => hout h.2
  refine ⟨⟨S.erase i, hS', ?_⟩, ?_⟩
  · show shared'.counter key = _
    rw [hcount]
    dsimp only at hcard
    omega
  · by_cases hwins : WinsKey pair reqs key i (threads i)
    · obtain ⟨hW', hle'⟩ := hW.leave (l := pc) hwins fun h => hout h.2.holds
      exact ⟨W.erase i, hW', by omega⟩
    · exact ⟨W, hW.stay (iff_of_false (fun h => hout h.2.holds) hwins), hle⟩

/-- A step that raises the counter of a request that comes new. -/
theorem SlotsCounted.enter (h : SlotsCounted pair reqs ⟨threads, shared⟩ key)
    (hcount : shared'.counter key = shared.counter key + 1)
    (hkey : pair.acquireKey (reqs i) = key) (hpc : threads i = .start) :
    SlotsCounted pair reqs
      ⟨Function.update threads i (.added (shared.counter key)), shared'⟩ key := by
  have hout : ¬ (threads i).Holds := by
    rw [hpc]
    exact id
  refine ⟨?_, ?_⟩
  · obtain ⟨S, hS, hcard⟩ := h.holders
    obtain ⟨hS', hcard'⟩ := hS.enter (l := .added (shared.counter key)) (fun h => hout h.2)
      (show HoldsKey pair reqs key i (.added _) from ⟨hkey, trivial⟩)
    refine ⟨insert i S, hS', ?_⟩
    show shared'.counter key = _
    rw [hcount]
    dsimp only at hcard
    omega
  · by_cases hbelow : shared.counter key < pair.acquire.ceiling
    · obtain ⟨W, hW, hle⟩ := h.room hbelow
      obtain ⟨hW', hcard'⟩ := hW.enter (l := .added (shared.counter key))
        (fun h => hout h.2.holds)
        (show WinsKey pair reqs key i (.added _) from ⟨hkey, hbelow⟩)
      exact ⟨insert i W, hW', by omega⟩
    · obtain ⟨W, hW, hle⟩ := h.winners
      exact ⟨W, hW.stay (iff_of_false (fun h => hbelow h.2) fun h => hout h.2.holds), hle⟩

end Counted

/-- A step keeps the count of every key. -/
theorem SlotsInv.counted_step (hinv : SlotsInv pair reqs c)
    (hfire : (connSystem pair reqs).fire i c = some c')
    (hmatch : ∀ r, c'.threads i = .released r →
      pair.releaseKey (reqs i) = pair.acquireKey (reqs i)) (key : String) :
    SlotsCounted pair reqs c' key := by
  have hcounted := hinv.counted key
  obtain ⟨threads, shared⟩ := c
  obtain ⟨threads', shared'⟩ := c'
  have hcases := connStep_cases hfire
  dsimp only at hcases hmatch
  rcases hcases with
    ⟨hpc, rfl, rfl⟩ | ⟨inFlight, hpc, rfl, rfl⟩ | ⟨hpc, rfl, rfl⟩ | ⟨tries, hpc, rfl, rfl⟩ |
      ⟨tries, hpc, hpos, rfl, rfl⟩ | ⟨cur, tries, hpc, hcur, rfl, rfl⟩
  · -- `fetch_add`: on its own key the request is one more, other keys are not touched
    by_cases hkey : pair.acquireKey (reqs i) = key
    · subst hkey
      exact hcounted.enter (by rw [ConnRegistry.counter_insert, if_pos rfl]) rfl hpc
    · refine hcounted.stay ?_ (fun h => absurd h hkey) (fun h => absurd h hkey)
      rw [ConnRegistry.counter_insert, if_neg (Ne.symm hkey)]
  · -- the request stays counted, and whether it wins was decided by its `fetch_add`
    refine hcounted.stay rfl (fun _ => ?_) (fun _ => ?_)
    · rw [hpc]
      split <;> exact Iff.rfl
    · rw [hpc]
      split
      · rename_i hge
        exact iff_of_false id (not_lt_of_ge hge)
      · rename_i hge
        exact iff_of_true trivial (not_le.mp hge)
  · -- `fetch_sub` of a request that found no room
    by_cases hkey : pair.acquireKey (reqs i) = key
    · subst hkey
      refine hcounted.leave ?_ ⟨rfl, ?_⟩ id
      · rw [ConnRegistry.counter_insert, if_pos rfl]
      · rw [hpc]
        exact trivial
    · refine hcounted.stay ?_ (fun h => absurd h hkey) (fun h => absurd h hkey)
      rw [ConnRegistry.counter_insert, if_neg (Ne.symm hkey)]
  · -- the release only reads
    refine hcounted.stay rfl (fun _ => ?_) (fun _ => ?_) <;>
      rcases hpc with hpc | ⟨cur', tries', hpc⟩ <;> rw [hpc] <;> exact Iff.rfl
  · -- the release's compare-and-swap: it lowers the counter the acquire raised
    have hown := hmatch _ (Function.update_self ..)
    by_cases hkey : pair.acquireKey (reqs i) = key
    · subst hkey
      refine hcounted.leave ?_ ⟨rfl, ?_⟩ id
      · rw [hown, ConnRegistry.counter_insert, if_pos rfl]
      · rw [hpc]
        exact trivial
    · refine hcounted.stay ?_ (fun h => absurd h hkey) (fun h => absurd h hkey)
      rw [hown, ConnRegistry.counter_insert, if_neg (Ne.symm hkey)]
  · -- a request that holds its own counter up does not read it as zero
    have hread := hinv.reading i cur tries hpc (hmatch _ (Function.update_self ..))
    omega

/-- **One step keeps the slots**, as long as a request that is released finds its own counter. -/
theorem slotsInv_step (hinv : SlotsInv pair reqs c)
    (hfire : (connSystem pair reqs).fire i c = some c')
    (hmatch : ∀ r, c'.threads i = .released r →
      pair.releaseKey (reqs i) = pair.acquireKey (reqs i)) : SlotsInv pair reqs c' := by
  refine ⟨hinv.counted_step hfire hmatch, ?_, ?_⟩
  · intro j cur tries hj hown
    by_cases hji : j = i
    · subst hji
      rcases connStep_cases hfire with
        ⟨hpc, ht, hs⟩ | ⟨inFlight, hpc, hs, ht⟩ | ⟨hpc, ht, hs⟩ | ⟨tries', hpc, ht, hs⟩ |
          ⟨tries', hpc, hpos, ht, hs⟩ | ⟨cur', tries', hpc, hcur, ht, hs⟩ <;>
        rw [ht, Function.update_self] at hj
      · cases hj
      · split at hj <;> cases hj
      · cases hj
      · -- what is read is the counter this request is counted on
        obtain ⟨rfl, -⟩ := ConnPc.releasing.inj hj
        rw [hown]
        refine (hinv.counted _).counter_pos (i := j) ⟨rfl, ?_⟩
        rcases hpc with hpc | ⟨cur', tries', hpc⟩ <;> rw [hpc] <;> exact trivial
      · cases hj
      · cases hj
    · rw [(Interleave.System.fire_spec hfire).2 j hji] at hj
      exact hinv.reading j cur tries hj hown
  · intro j r hj
    by_cases hji : j = i
    · subst hji
      have hown := hmatch r hj
      rcases connStep_cases hfire with
        ⟨hpc, ht, hs⟩ | ⟨inFlight, hpc, hs, ht⟩ | ⟨hpc, ht, hs⟩ | ⟨tries', hpc, ht, hs⟩ |
          ⟨tries', hpc, hpos, ht, hs⟩ | ⟨cur', tries', hpc, hcur, ht, hs⟩ <;>
        rw [ht, Function.update_self] at hj
      · cases hj
      · split at hj <;> cases hj
      · cases hj
      · cases hj
      · rw [← ConnPc.released.inj hj, hown]
      · -- giving up means having read zero, which nobody who is counted does
        have hread := hinv.reading j cur' tries' hpc hown
        omega
    · rw [(Interleave.System.fire_spec hfire).2 j hji] at hj
      exact hinv.lowered j r hj

/-! ## Whole runs -/

/-- A request that is over stays as it is. -/
theorem released_final {r : Option String} {j : ι} (hfire : (connSystem pair reqs).fire i c = some c')
    (hj : c.threads j = .released r) : c'.threads j = .released r := by
  obtain ⟨hstep, hothers⟩ := Interleave.System.fire_spec hfire
  by_cases hji : j = i
  · subst hji
    rw [hj] at hstep
    cases hstep
  · rw [hothers j hji, hj]

/-- The slots are kept in every run whose released requests found their own counters. -/
theorem slotsInv_reaches (hreach : (connSystem pair reqs).Reaches connStart c)
    (hmatch : ∀ i r, c.threads i = .released r →
      pair.releaseKey (reqs i) = pair.acquireKey (reqs i)) : SlotsInv pair reqs c := by
  induction hreach with
  | refl => exact slotsInv_start
  | tail _ hlast ih =>
    -- who was released before is released now, so the hypothesis goes back along the run
    obtain ⟨i, hfire⟩ := hlast
    have hbefore := ih fun j r hj => hmatch j r (released_final hfire hj)
    exact slotsInv_step hbefore hfire (hmatch i)

/-- A release that lowered a counter lowered the one whose key it rendered. -/
theorem released_key (hreach : (connSystem pair reqs).Reaches connStart c) :
    ∀ i key, c.threads i = .released (some key) → pair.releaseKey (reqs i) = key := by
  refine Interleave.System.reaches_invariant (P := fun c => ∀ i key,
    c.threads i = .released (some key) → pair.releaseKey (reqs i) = key) ?_ hreach ?_
  · intro i c c' hinv hfire j key hj
    by_cases hji : j = i
    · subst hji
      rcases connStep_cases hfire with
        ⟨hpc, ht, hs⟩ | ⟨inFlight, hpc, hs, ht⟩ | ⟨hpc, ht, hs⟩ | ⟨tries', hpc, ht, hs⟩ |
          ⟨tries', hpc, hpos, ht, hs⟩ | ⟨cur', tries', hpc, hcur, ht, hs⟩ <;>
        rw [ht, Function.update_self] at hj
      · cases hj
      · split at hj <;> cases hj
      · cases hj
      · cases hj
      · exact Option.some.inj (ConnPc.released.inj hj)
      · cases hj
    · rw [(Interleave.System.fire_spec hfire).2 j hji] at hj
      exact hinv j key hj
  · intro i key h
    cases h

/-- **The limit is kept.**  Any number of requests go through a pair of nodes, in any order of their
    atomic steps, and each release renders the key its acquire rendered.  Then no counter is ever
    negative, no more than `conn + burst` requests are admitted on a key and not released, and a
    counter is zero when nobody is between its first acquire step and its release. -/
theorem limitConn_bound (hsame : ∀ i, pair.releaseKey (reqs i) = pair.acquireKey (reqs i))
    (hreach : (connSystem pair reqs).Reaches connStart c) (key : String) :
    0 ≤ c.shared.counter key ∧
    (∀ S : Finset ι, (∀ i ∈ S, pair.acquireKey (reqs i) = key ∧ (c.threads i).Admitted) →
      (S.card : Int) ≤ pair.acquire.conn.toInt + pair.acquire.burst.toInt) ∧
    ((∀ i, pair.acquireKey (reqs i) = key → ¬ (c.threads i).Holds) → c.shared.counter key = 0) := by
  obtain ⟨⟨H, hH, hcount⟩, ⟨W, hW, hle⟩⟩ :=
    (slotsInv_reaches hreach fun i _ _ => hsame i).counted key
  refine ⟨?_, ?_, ?_⟩
  · omega
  · intro S hS
    have hsub : S ⊆ W := hW.subset fun i hi => by
      obtain ⟨hkey, hadmitted⟩ := hS i hi
      exact ⟨hkey, hadmitted.wins⟩
    have hcard := Finset.card_le_card hsub
    exact le_trans (Int.ofNat_le.mpr hcard) hle
  · intro hnone
    obtain rfl := hH.eq_empty fun i h => hnone i h.1 h.2
    simpa using hcount

/-- **When no slot leaks.**  In every state of every run, each release lowered the counter its
    acquire raised iff each of them rendered its acquire's key: the key is a constant, or its
    template reads the same in the contexts before and after. -/
theorem noLeak_iff (hreach : (connSystem pair reqs).Reaches connStart c) :
    (∀ i r, c.threads i = .released r → r = some (pair.acquireKey (reqs i))) ↔
      ∀ i r, c.threads i = .released r →
        pair.acquire.keyConstant = true ∨
          Vars.interpolate (reqs i).releaseCtx pair.acquire.key =
            Vars.interpolate (reqs i).acquireCtx pair.acquire.key := by
  have hkeys : ∀ i, pair.releaseKey (reqs i) = pair.acquireKey (reqs i) ↔
      pair.acquire.keyConstant = true ∨ Vars.interpolate (reqs i).releaseCtx pair.acquire.key =
        Vars.interpolate (reqs i).acquireCtx pair.acquire.key := by
    intro i
    unfold ConnPair.releaseKey ConnPair.acquireKey LimitConnPlugin.resolveKey
    rw [pair.key_eq, pair.keyConstant_eq]
    by_cases hconst : pair.acquire.keyConstant = true
    · simp [hconst]
    · simp [hconst]
  constructor
  · intro h i r hi
    obtain rfl := h i r hi
    exact (hkeys i).mp (released_key hreach i _ hi)
  · intro h
    exact (slotsInv_reaches hreach fun i r hi => (hkeys i).mpr (h i r hi)).lowered

/-- A request alone on its pair is admitted, and counted. -/
theorem admitted_alone (pair : ConnPair) (reqs : ι → ConnRequest) (i : ι)
    (hceiling : 0 < pair.acquire.ceiling) :
    ∃ c, (connSystem pair reqs).Reaches connStart c ∧ c.threads i = .admitted ∧
      c.shared = (∅ : ConnRegistry).insert (pair.acquireKey (reqs i)) 1 := by
  have hzero : ConnRegistry.counter ∅ (pair.acquireKey (reqs i)) = 0 := by
    simp [ConnRegistry.counter]
  have h0 : (connSystem pair reqs).Reaches connStart connStart := .refl
  have h1 := h0.advance (i := i) rfl (by rw [connSystem]; exact rfl)
  have h2 := h1.advance (Function.update_self ..) (by rw [connSystem]; exact rfl)
  refine ⟨_, h2, ?_, ?_⟩
  · show Function.update _ _ _ _ = _
    rw [Function.update_self, hzero, if_neg (not_le.mpr hceiling)]
  · show (∅ : ConnRegistry).insert _ (ConnRegistry.counter ∅ _ + 1) = _
    rw [hzero]
    rfl

/-- A request whose key changes on the way keeps its slot for good: it is over, and the counter it
    raised still counts it. -/
theorem leaks_of_key_moved (pair : ConnPair) (reqs : ι → ConnRequest) (i : ι)
    (hceiling : 0 < pair.acquire.ceiling)
    (hmoved : pair.releaseKey (reqs i) ≠ pair.acquireKey (reqs i)) :
    ∃ c, (connSystem pair reqs).Reaches connStart c ∧ c.threads i = .released none ∧
      c.shared.counter (pair.acquireKey (reqs i)) = 1 := by
  obtain ⟨⟨threads, counters⟩, h2, hpc, rfl⟩ := admitted_alone pair reqs i hceiling
  have hread : ConnRegistry.counter ((∅ : ConnRegistry).insert (pair.acquireKey (reqs i)) 1)
      (pair.releaseKey (reqs i)) = 0 := by
    rw [ConnRegistry.counter_insert, if_neg hmoved]
    simp [ConnRegistry.counter]
  have h3 := h2.advance hpc (by rw [connSystem]; exact rfl)
  have h4 := h3.advance ((Function.update_self ..).trans (by rw [hread]))
    (by rw [connSystem]; exact rfl)
  refine ⟨_, h4, Function.update_self .., ?_⟩
  rw [ConnRegistry.counter_insert, if_pos rfl]

end Slots

/-! ## A pair with the default key -/

namespace LimitConnPlugin

/-- A node with nothing configured but its phase. -/
def defaultConfig (phase : String) : HashMap Json :=
  (∅ : HashMap Json).insert "phase" (.string phase)

/-- The node it configures. -/
def defaultNode (role : ConnRole) : LimitConnPlugin where
  role := role
  conn := 20
  conn_pos := by decide
  burst := 0
  burst_nonneg := by decide
  key := "$remote_addr"
  keyConstant := false
  rejectedCode := 503
  rejectedMsg := none

theorem resolveKey_default [CaseMapping] [JsonText] (role : ConnRole) (ctx : Context) :
    (defaultNode role).resolveKey ctx = (Vars.splitRemoteAddr ctx.request.remoteAddr).1 := by
  show Vars.interpolate ctx ("$" ++ "remote_addr") = _
  rw [Vars.interpolate_var ctx (by decide) (List.all_eq_true.mp (by decide))]
  rfl

end LimitConnPlugin

open LimitConnPlugin

/-- The two default nodes. -/
def defaultPair : ConnPair where
  acquire := defaultNode .acquire
  release := defaultNode .release
  key_eq := rfl
  keyConstant_eq := rfl

/-- The context of a request that comes from an address. -/
def contextFrom (remoteAddr : String) : Context :=
  Context.new { (default : GatewayRequest) with remoteAddr := remoteAddr }

/-- A request that comes over a proxy; a node that trusts it writes the client's own address in
    between the two nodes. -/
def proxiedRequest : ConnRequest where
  acquireCtx := contextFrom "10.0.0.1:5000"
  releaseCtx := contextFrom "203.0.113.7:5000"
  spurious _ := false

/-- A request that nobody changes. -/
def directRequest : ConnRequest := { proxiedRequest with releaseCtx := contextFrom "10.0.0.1:5000" }

theorem limitConn_bound_direct :
    let _ : CaseMapping := asciiCaseMapping
    let _ : JsonText := oneFieldText
    ∃ c, (connSystem defaultPair fun _ : Unit => directRequest).Reaches connStart c ∧
      c.threads () = .admitted ∧
      ∀ key, 0 ≤ c.shared.counter key ∧
        (∀ S : Finset Unit, (∀ i ∈ S, defaultPair.acquireKey directRequest = key ∧
          (c.threads i).Admitted) → (S.card : Int) ≤ 20) ∧
        ((∀ i : Unit, defaultPair.acquireKey directRequest = key → ¬ (c.threads i).Holds) →
          c.shared.counter key = 0) := by
  intro _ _
  obtain ⟨c, hreach, hpc, -⟩ :=
    admitted_alone defaultPair (fun _ : Unit => directRequest) () (by decide)
  exact ⟨c, hreach, hpc, limitConn_bound (fun _ => rfl) hreach⟩

theorem noLeak_iff_proxied :
    let _ : CaseMapping := asciiCaseMapping
    let _ : JsonText := oneFieldText
    ∃ c, (connSystem defaultPair fun _ : Unit => proxiedRequest).Reaches connStart c ∧
      c.threads () = .released none ∧
      ((∀ i r, c.threads i = .released r → r = some (defaultPair.acquireKey proxiedRequest)) ↔
        ∀ i r, c.threads i = .released r → defaultPair.acquire.keyConstant = true ∨
          Vars.interpolate proxiedRequest.releaseCtx defaultPair.acquire.key =
            Vars.interpolate proxiedRequest.acquireCtx defaultPair.acquire.key) := by
  intro _ _
  obtain ⟨c, hreach, hpc, -⟩ :=
    leaks_of_key_moved defaultPair (fun _ : Unit => proxiedRequest) () (by decide) (by
      show (defaultNode .release).resolveKey _ ≠ (defaultNode .acquire).resolveKey _
      rw [resolveKey_default, resolveKey_default]
      decide +kernel)
  exact ⟨c, hreach, hpc, noLeak_iff hreach⟩

/-- The proxied request is admitted and released, and the counter of `10.0.0.1` keeps counting
    it. -/
theorem proxied_request_leaks :
    let _ : CaseMapping := asciiCaseMapping
    let _ : JsonText := oneFieldText
    fromConfig (defaultConfig "acquire") = .ok defaultPair.acquire ∧
    fromConfig (defaultConfig "release") = .ok defaultPair.release ∧
    ∃ c, (connSystem defaultPair fun _ : Unit => proxiedRequest).Reaches connStart c ∧
      c.threads () = .released none ∧ c.shared.counter "10.0.0.1" = 1 ∧
      ¬ ∀ i r, c.threads i = .released r → r = some (defaultPair.acquireKey proxiedRequest) := by
  intro _ _
  have hkey : defaultPair.acquireKey proxiedRequest = "10.0.0.1" := by
    show (defaultNode .acquire).resolveKey _ = _
    rw [resolveKey_default]
    decide +kernel
  have hkey' : defaultPair.releaseKey proxiedRequest = "203.0.113.7" := by
    show (defaultNode .release).resolveKey _ = _
    rw [resolveKey_default]
    decide +kernel
  obtain ⟨c, hreach, hpc, hcount⟩ :=
    leaks_of_key_moved defaultPair (fun _ : Unit => proxiedRequest) () (by decide) (by
      rw [hkey, hkey']
      decide)
  refine ⟨rfl, rfl, c, hreach, hpc, hkey ▸ hcount, ?_⟩
  intro h
  cases h () none hpc

end Featherbit
