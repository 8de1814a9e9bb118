/-
  THE RESPONSE CACHE, step by step (`CacheRegistry` of `traffic/mod.rs`).

  A `get` reads its entry and holds a guard on the key while it asks the clock; then it drops the
  guard, and if the entry had expired it removes the key in a step of its own.  By then a `put` may
  have landed, and the `remove` takes what it wrote.  A `put` stamps its entry before it inserts it,
  and waits for the guards.

  `Option ι` are the threads: the calls `ι`, and the clock (`none`), which moves whenever it likes.
  The guard of an entry locks the whole shard of the map; here it locks the key, which leaves every
  order of steps that the shard's lock leaves.
-/
import Featherbit.Context
import Featherbit.Lib.Interleave

namespace Featherbit

/-- A cached upstream response. -/
structure CacheEntry where
  status : UInt16
  headers : HashMap (List String)
  body : Bytes
  expiresAt : Nat
deriving DecidableEq

/-- A call of the registry. -/
inductive CacheCall where
  | get (key : String)
  | put (key : String) (status : UInt16) (headers : HashMap (List String)) (body : Bytes) (ttl : Nat)

/-- The call writes the entry under the key. -/
def CacheCall.Writes (call : CacheCall) (key : String) (entry : CacheEntry) : Prop :=
  ∃ ttl, call = .put key entry.status entry.headers entry.body ttl

/-- Where a call is. -/
inductive CachePc where
  | start
  /-- `get` read this entry, at this time, and holds the guard -/
  | reading (entry : CacheEntry) (since : Nat)
  /-- `get` found its entry expired, and holds no guard any more -/
  | expired
  /-- `get` returned this -/
  | got (result : Option CacheEntry)
  /-- `put` is about to insert this entry -/
  | stamped (entry : CacheEntry)
  /-- `put` inserted this entry -/
  | stored (entry : CacheEntry)
deriving DecidableEq

/-- What the calls share: the map, the number of guards on each key, and the clock. -/
structure CacheState where
  entries : HashMap CacheEntry
  guards : HashMap Nat
  now : Nat

namespace CacheState

def guardsOn (s : CacheState) (key : String) : Nat := s.guards.getD key 0

def lock (s : CacheState) (key : String) : CacheState :=
  { s with guards := s.guards.insert key (s.guardsOn key + 1) }

def unlock (s : CacheState) (key : String) : CacheState :=
  { s with guards := s.guards.insert key (s.guardsOn key - 1) }

end CacheState

section System

variable {ι : Type} (calls : ι → CacheCall)

/-- The next atomic step of a call. -/
def CacheCall.step : CacheCall → CachePc → CacheState → Option (CachePc × CacheState)
  | .get key, .start, s =>
    match s.entries[key]? with
    | some entry => some (.reading entry s.now, s.lock key)
    | none => some (.got none, s)
  | .get key, .reading entry _, s =>
    if s.now < entry.expiresAt then some (.got (some entry), s.unlock key)
    else some (.expired, s.unlock key)
  | .get key, .expired, s =>
    if s.guardsOn key = 0 then some (.got none, { s with entries := s.entries.erase key }) else none
  | .put _ status headers body ttl, .start, s =>
    some (.stamped { status, headers, body, expiresAt := s.now + ttl }, s)
  | .put key _ _ _ _, .stamped entry, s =>
    if s.guardsOn key = 0 then some (.stored entry, { s with entries := s.entries.insert key entry })
    else none
  | _, _, _ => none

/-- Any number of calls, and the clock. -/
def cacheSystem : Interleave.System (Option ι) CachePc CacheState where
  step
    | none, pc, s => some (pc, { s with now := s.now + 1 })
    | some i, pc, s => (calls i).step pc s

/-- No call has come yet. -/
def cacheStart : Interleave.Config (Option ι) CachePc CacheState where
  threads _ := .start
  shared := { entries := ∅, guards := ∅, now := 0 }

/-- The thread is about to put something under the key. -/
def Puts (key : String) (t : Option ι) (c : Interleave.Config (Option ι) CachePc CacheState) : Prop :=
  ∃ i entry, t = some i ∧ c.threads t = .stamped entry ∧ ∃ status headers body ttl,
    calls i = .put key status headers body ttl

/-- In the runs whose steps meet `Q`: an entry written by a `put` is returned by every `get` that
    starts later and before the entry's expiry, unless another `put` has landed on the key. -/
def ServesFresh [DecidableEq ι]
    (Q : Option ι → Interleave.Config (Option ι) CachePc CacheState → Prop) : Prop :=
  ∀ c₀ c₁ c₂ c₃ c₄ p g key entry result,
    (cacheSystem calls).ReachesWhen Q cacheStart c₀ →
    c₀.threads (some p) = .stamped entry → (calls p).Writes key entry →
    (cacheSystem calls).fire (some p) c₀ = some c₁ →
    (cacheSystem calls).ReachesWhen (fun t c => Q t c ∧ ¬ Puts calls key t c) c₁ c₂ →
    c₂.threads (some g) = .start → calls g = .get key → c₂.shared.now < entry.expiresAt →
    (cacheSystem calls).fire (some g) c₂ = some c₃ →
    (cacheSystem calls).ReachesWhen Q c₃ c₄ →
    c₄.threads (some g) = .got result → result = some entry

/-- The step comes in time: a `get` asks the clock before the entry it read expires, if it read it
    before; and what it removes has expired. -/
def InTime (t : Option ι) (c : Interleave.Config (Option ι) CachePc CacheState) : Prop :=
  ∀ i key, t = some i → calls i = .get key →
    (∀ entry since, c.threads t = .reading entry since → since < entry.expiresAt →
      c.shared.now < entry.expiresAt) ∧
    (c.threads t = .expired → ∀ entry, c.shared.entries[key]? = some entry →
      entry.expiresAt ≤ c.shared.now)

end System

/-! ## One step -/

section Step

variable {ι : Type} [DecidableEq ι] {calls : ι → CacheCall} {t : Option ι}
  {c c' : Interleave.Config (Option ι) CachePc CacheState}

/-- What thread `t` did between two states. -/
inductive CacheMove (calls : ι → CacheCall) (t : Option ι)
    (c c' : Interleave.Config (Option ι) CachePc CacheState) : Prop where
  | tick (ht : t = none) (hpc : c'.threads t = c.threads t)
      (hentries : c'.shared.entries = c.shared.entries) (hnow : c'.shared.now = c.shared.now + 1)
  | read {i : ι} {key : String} {entry : CacheEntry} (ht : t = some i) (hcall : calls i = .get key)
      (hpc : c.threads t = .start) (hfound : c.shared.entries[key]? = some entry)
      (hpc' : c'.threads t = .reading entry c.shared.now)
      (hentries : c'.shared.entries = c.shared.entries) (hnow : c'.shared.now = c.shared.now)
  | miss {i : ι} {key : String} (ht : t = some i) (hcall : calls i = .get key)
      (hpc : c.threads t = .start) (hfound : c.shared.entries[key]? = none)
      (hpc' : c'.threads t = .got none)
      (hentries : c'.shared.entries = c.shared.entries) (hnow : c'.shared.now = c.shared.now)
  | hit {i : ι} {key : String} {entry : CacheEntry} {since : Nat} (ht : t = some i)
      (hcall : calls i = .get key) (hpc : c.threads t = .reading entry since)
      (hfresh : c.shared.now < entry.expiresAt) (hpc' : c'.threads t = .got (some entry))
      (hentries : c'.shared.entries = c.shared.entries) (hnow : c'.shared.now = c.shared.now)
  | expire {i : ι} {key : String} {entry : CacheEntry} {since : Nat} (ht : t = some i)
      (hcall : calls i = .get key) (hpc : c.threads t = .reading entry since)
      (hold : entry.expiresAt ≤ c.shared.now) (hpc' : c'.threads t = .expired)
      (hentries : c'.shared.entries = c.shared.entries) (hnow : c'.shared.now = c.shared.now)
  | remove {i : ι} {key : String} (ht : t = some i) (hcall : calls i = .get key)
      (hpc : c.threads t = .expired) (hpc' : c'.threads t = .got none)
      (hentries : c'.shared.entries = c.shared.entries.erase key)
      (hnow : c'.shared.now = c.shared.now)
  | stamp {i : ι} {key : String} {entry : CacheEntry} (ht : t = some i)
      (hcall : (calls i).Writes key entry) (hpc : c.threads t = .start)
      (hpc' : c'.threads t = .stamped entry)
      (hentries : c'.shared.entries = c.shared.entries) (hnow : c'.shared.now = c.shared.now)
  | insert {i : ι} {key : String} {entry : CacheEntry} (ht : t = some i)
      (hcall : ∃ status headers body ttl, calls i = .put key status headers body ttl)
      (hpc : c.threads t = .stamped entry) (hpc' : c'.threads t = .stored entry)
      (hentries : c'.shared.entries = c.shared.entries.insert key entry)
      (hnow : c'.shared.now = c.shared.now)

/-- A step is one of these moves. -/
theorem cacheMove_of_fire (h : (cacheSystem calls).fire t c = some c') : CacheMove calls t c c' := by
  obtain ⟨⟨pc, s⟩, hstep, rfl⟩ := Option.map_eq_some_iff.mp h
  have hself : Function.update c.threads t pc t = pc := Function.update_self ..
  cases t with
  | none =>
    obtain ⟨rfl, rfl⟩ := Prod.mk.inj (Option.some.inj hstep)
    exact .tick rfl hself rfl rfl
  | some i =>
    have hstep : (calls i).step (c.threads (some i)) c.shared = some (pc, s) := hstep
    cases hcall : calls i with
    | get key =>
      rw [hcall] at hstep
      cases hpc : c.threads (some i) with
      | start =>
        rw [hpc, CacheCall.step] at hstep
        cases hfound : c.shared.entries[key]? with
        | some entry =>
          rw [hfound] at hstep
          obtain ⟨rfl, rfl⟩ := Prod.mk.inj (Option.some.inj hstep)
          exact .read rfl hcall hpc hfound hself rfl rfl
        | none =>
          rw [hfound] at hstep
          obtain ⟨rfl, rfl⟩ := Prod.mk.inj (Option.some.inj hstep)
          exact .miss rfl hcall hpc hfound hself rfl rfl
      | reading entry since =>
        rw [hpc, CacheCall.step] at hstep
        split at hstep
        · rename_i hfresh
          obtain ⟨rfl, rfl⟩ := Prod.mk.inj (Option.some.inj hstep)
          exact .hit rfl hcall hpc hfresh hself rfl rfl
        · rename_i hold
          obtain ⟨rfl, rfl⟩ := Prod.mk.inj (Option.some.inj hstep)
          exact .expire rfl hcall hpc (Nat.not_lt.mp hold) hself rfl rfl
      | expired =>
        rw [hpc, CacheCall.step] at hstep
        split at hstep
        · obtain ⟨rfl, rfl⟩ := Prod.mk.inj (Option.some.inj hstep)
          exact .remove rfl hcall hpc hself rfl rfl
        · cases hstep
      | got | stamped | stored =>
        rw [hpc] at hstep
        cases hstep
    | put key status headers body ttl =>
      rw [hcall] at hstep
      cases hpc : c.threads (some i) with
      | start =>
        rw [hpc, CacheCall.step] at hstep
        obtain ⟨rfl, rfl⟩ := Prod.mk.inj (Option.some.inj hstep)
        exact .stamp rfl ⟨ttl, hcall⟩ hpc hself rfl rfl
      | stamped entry =>
        rw [hpc, CacheCall.step] at hstep
        split at hstep
        · obtain ⟨rfl, rfl⟩ := Prod.mk.inj (Option.some.inj hstep)
          exact .insert rfl ⟨status, headers, body, ttl, hcall⟩ hpc hself rfl rfl
        · cases hstep
      | got | reading | expired | stored =>
        rw [hpc] at hstep
        cases hstep

/-- The clock never goes back. -/
theorem now_le_of_fire (h : (cacheSystem calls).fire t c = some c') :
    c.shared.now ≤ c'.shared.now := by
  cases cacheMove_of_fire h with
  | tick _ _ _ hnow => omega
  | read _ _ _ _ _ _ hnow | miss _ _ _ _ _ _ hnow | hit _ _ _ _ _ _ hnow
  | expire _ _ _ _ _ _ hnow | remove _ _ _ _ _ hnow | stamp _ _ _ _ _ hnow
  | insert _ _ _ _ _ hnow => omega

end Step

/-! ## Where an entry comes from -/

section Origin

variable {ι : Type} [DecidableEq ι] {calls : ι → CacheCall} {t : Option ι} {key : String}
  {entry : CacheEntry} {c c' : Interleave.Config (Option ι) CachePc CacheState}

/-- Some call has stored the entry under the key. -/
def StoredAt (calls : ι → CacheCall) (c : Interleave.Config (Option ι) CachePc CacheState)
    (key : String) (entry : CacheEntry) : Prop :=
  ∃ j, c.threads (some j) = .stored entry ∧ (calls j).Writes key entry

/-- Every entry under a key was stored there, and so was every entry a `get` has read there. -/
structure CacheOrigin (calls : ι → CacheCall)
    (c : Interleave.Config (Option ι) CachePc CacheState) : Prop where
  entries : ∀ key entry, c.shared.entries[key]? = some entry → StoredAt calls c key entry
  reading : ∀ i key entry since, calls i = .get key → c.threads (some i) = .reading entry since →
    StoredAt calls c key entry
  got : ∀ i key entry, calls i = .get key → c.threads (some i) = .got (some entry) →
    StoredAt calls c key entry
  stamped : ∀ i entry, c.threads (some i) = .stamped entry → ∃ key, (calls i).Writes key entry

/-- A finished `put` stays as it is. -/
theorem StoredAt.step (h : StoredAt calls c key entry)
    (hfire : (cacheSystem calls).fire t c = some c') : StoredAt calls c' key entry := by
  obtain ⟨j, hpc, hwrites⟩ := h
  refine ⟨j, ?_, hwrites⟩
  by_cases ht : some j = t
  · subst ht
    cases cacheMove_of_fire hfire with
    | tick ht => cases ht
    | read ht _ hpc2 | miss ht _ hpc2 | hit ht _ hpc2 | expire ht _ hpc2 | remove ht _ hpc2
    | stamp ht _ hpc2 | insert ht _ hpc2 =>
      rw [hpc] at hpc2
      cases hpc2
  · rw [(Interleave.System.fire_spec hfire).2 (some j) ht, hpc]

omit [DecidableEq ι] in
theorem cacheOrigin_start : CacheOrigin calls cacheStart where
  entries := by
    intro key entry h
    simp [cacheStart] at h
  reading := by
    intro i key entry since _ h
    cases h
  got := by
    intro i key entry _ h
    cases h
  stamped := by
    intro i entry h
    cases h

/-- What a step leaves in the map was there before, or is what it stored. -/
theorem CacheOrigin.entries_step (horigin : CacheOrigin calls c)
    (hfire : (cacheSystem calls).fire t c = some c') {key : String} {entry : CacheEntry}
    (hfound : c'.shared.entries[key]? = some entry) : StoredAt calls c' key entry := by
  have hbefore : c.shared.entries[key]? = some entry → StoredAt calls c' key entry :=
    fun h => (horigin.entries key entry h).step hfire
  cases cacheMove_of_fire hfire with
  | tick _ _ hentries | read _ _ _ _ _ hentries | miss _ _ _ _ _ hentries
  | hit _ _ _ _ _ hentries | expire _ _ _ _ _ hentries | stamp _ _ _ _ hentries =>
    rw [hentries] at hfound
    exact hbefore hfound
  | @remove i key' ht hcall hpc hpc' hentries =>
    rw [hentries, HashMap.get_erase] at hfound
    split at hfound
    · cases hfound
    · exact hbefore hfound
  | @insert i key' entry' ht hcall hpc hpc' hentries =>
    rw [hentries, HashMap.get_insert] at hfound
    split at hfound
    · rename_i hkey
      subst hkey
      obtain rfl := Option.some.inj hfound
      subst ht
      refine ⟨i, hpc', ?_⟩
      -- the entry was stamped by this very call
      obtain ⟨key', ttl, hwrites⟩ := horigin.stamped i entry' hpc
      obtain ⟨status, headers, body, ttl', hcall⟩ := hcall
      rw [hwrites] at hcall
      obtain ⟨rfl, -⟩ := CacheCall.put.inj hcall
      exact ⟨ttl, hwrites⟩
    · exact hbefore hfound

/-- **One step keeps every origin.** -/
theorem cacheOrigin_step (horigin : CacheOrigin calls c)
    (hfire : (cacheSystem calls).fire t c = some c') : CacheOrigin calls c' := by
  have hothers := (Interleave.System.fire_spec hfire).2
  refine ⟨fun key entry => horigin.entries_step hfire, ?_, ?_, ?_⟩
  · -- what is being read was in the table, or was being read before
    intro i key entry since hcall hpc
    by_cases ht : some i = t
    · subst ht
      cases cacheMove_of_fire hfire with
      | tick ht => cases ht
      | @read i' key' entry' ht hcall' _ hfound hpc' =>
        obtain rfl := Option.some.inj ht
        rw [hcall] at hcall'
        obtain rfl := CacheCall.get.inj hcall'
        rw [hpc] at hpc'
        obtain ⟨rfl, -⟩ := CachePc.reading.inj hpc'
        exact (horigin.entries key entry hfound).step hfire
      | miss _ _ _ _ hpc' | hit _ _ _ _ hpc' | expire _ _ _ _ hpc' | remove _ _ _ hpc'
      | stamp _ _ _ hpc' | insert _ _ _ hpc' =>
        rw [hpc] at hpc'
        cases hpc'
    · rw [hothers (some i) ht] at hpc
      exact (horigin.reading i key entry since hcall hpc).step hfire
  · -- what is returned was being read
    intro i key entry hcall hpc
    by_cases ht : some i = t
    · subst ht
      cases cacheMove_of_fire hfire with
      | tick ht => cases ht
      | @hit i' key' entry' since ht _ hpc2 _ hpc' =>
        rw [hpc] at hpc'
        obtain rfl := Option.some.inj (CachePc.got.inj hpc')
        exact (horigin.reading i key entry since hcall hpc2).step hfire
      | read _ _ _ _ hpc' | miss _ _ _ _ hpc' | expire _ _ _ _ hpc' | remove _ _ _ hpc'
      | stamp _ _ _ hpc' | insert _ _ _ hpc' =>
        rw [hpc] at hpc'
        cases hpc'
    · rw [hothers (some i) ht] at hpc
      exact (horigin.got i key entry hcall hpc).step hfire
  · -- only the call that writes stamps
    intro i entry hpc
    by_cases ht : some i = t
    · subst ht
      cases cacheMove_of_fire hfire with
      | tick ht => cases ht
      | @stamp i' key' entry' ht hwrites _ hpc' =>
        obtain rfl := Option.some.inj ht
        rw [hpc] at hpc'
        obtain rfl := CachePc.stamped.inj hpc'
        exact ⟨key', hwrites⟩
      | read _ _ _ _ hpc' | miss _ _ _ _ hpc' | hit _ _ _ _ hpc' | expire _ _ _ _ hpc'
      | remove _ _ _ hpc' | insert _ _ _ hpc' =>
        rw [hpc] at hpc'
        cases hpc'
    · rw [hothers (some i) ht] at hpc
      exact horigin.stamped i entry hpc

/-- In every run, an entry that a `get` returns was stored under its key. -/
theorem storedAt_of_got (hreach : (cacheSystem calls).Reaches cacheStart c) {i : ι}
    (hcall : calls i = .get key) (hgot : c.threads (some i) = .got (some entry)) :
    StoredAt calls c key entry :=
  (Interleave.System.reaches_invariant (fun _ _ _ h hfire => cacheOrigin_step h hfire) hreach
    cacheOrigin_start).got i key entry hcall hgot

end Origin

/-! ## An entry stays until it expires -/

section Fresh

variable {ι : Type} [DecidableEq ι] {calls : ι → CacheCall} {t : Option ι} {key : String}
  {entry : CacheEntry} {c c' : Interleave.Config (Option ι) CachePc CacheState}

/-- The entry is under the key, or it has expired. -/
def Kept (key : String) (entry : CacheEntry)
    (c : Interleave.Config (Option ι) CachePc CacheState) : Prop :=
  c.shared.entries[key]? = some entry ∨ entry.expiresAt ≤ c.shared.now

/-- **One step keeps an entry**, if it comes in time and puts nothing under the key. -/
theorem kept_step (hkept : Kept key entry c) (htime : InTime calls t c)
    (hputs : ¬ Puts calls key t c) (hfire : (cacheSystem calls).fire t c = some c') :
    Kept key entry c' := by
  rcases hkept with hfound | hold
  · cases cacheMove_of_fire hfire with
    | tick _ _ hentries | read _ _ _ _ _ hentries | miss _ _ _ _ _ hentries
    | hit _ _ _ _ _ hentries | expire _ _ _ _ _ hentries | stamp _ _ _ _ hentries =>
      left
      rw [hentries, hfound]
    | @remove i key' ht hcall hpc hpc' hentries hnow =>
      by_cases hkey : key = key'
      · -- the entry that is removed has expired
        subst hkey
        right
        rw [hnow]
        exact (htime i key ht hcall).2 hpc entry hfound
      · left
        rw [hentries, HashMap.get_erase, if_neg hkey, hfound]
    | @insert i key' entry' ht hcall hpc hpc' hentries hnow =>
      by_cases hkey : key = key'
      · subst hkey
        exact absurd ⟨i, entry', ht, hpc, hcall⟩ hputs
      · left
        rw [hentries, HashMap.get_insert, if_neg hkey, hfound]
  · have hnow := now_le_of_fire hfire
    right
    omega

/-- A `get` that read the entry before its expiry returns it, or has not asked the clock yet. -/
def Returns (g : ι) (entry : CacheEntry)
    (c : Interleave.Config (Option ι) CachePc CacheState) : Prop :=
  (∃ since, c.threads (some g) = .reading entry since ∧ since < entry.expiresAt) ∨
    c.threads (some g) = .got (some entry)

theorem returns_step {g : ι} (hcall : calls g = .get key) (hreturns : Returns g entry c)
    (htime : InTime calls t c) (hfire : (cacheSystem calls).fire t c = some c') :
    Returns g entry c' := by
  by_cases ht : t = some g
  · subst ht
    rcases hreturns with ⟨since, hpc, hsince⟩ | hpc
    · have hfresh := (htime g key rfl hcall).1 entry since hpc hsince
      cases cacheMove_of_fire hfire with
      | tick ht => cases ht
      | read ht _ hpc2 | miss ht _ hpc2 | remove ht _ hpc2 | stamp ht _ hpc2
      | insert ht _ hpc2 =>
        rw [hpc] at hpc2
        cases hpc2
      | hit ht _ hpc2 _ hpc' =>
        rw [hpc] at hpc2
        obtain ⟨rfl, -⟩ := CachePc.reading.inj hpc2
        exact Or.inr hpc'
      | expire ht _ hpc2 hold =>
        rw [hpc] at hpc2
        obtain ⟨rfl, -⟩ := CachePc.reading.inj hpc2
        omega
    · cases cacheMove_of_fire hfire with
      | tick ht => cases ht
      | read ht _ hpc2 | miss ht _ hpc2 | remove ht _ hpc2 | stamp ht _ hpc2
      | insert ht _ hpc2 | hit ht _ hpc2 | expire ht _ hpc2 =>
        rw [hpc] at hpc2
        cases hpc2
  · unfold Returns
    rw [(Interleave.System.fire_spec hfire).2 (some g) (Ne.symm ht)]
    exact hreturns

/-- **Fresh entries are served**, in every run whose steps all come in time. -/
theorem servesFresh_of_inTime (calls : ι → CacheCall) : ServesFresh calls (InTime calls) := by
  intro c₀ c₁ c₂ c₃ c₄ p g key entry result _ hstamped hwrites hput hquiet hstart hget hfresh hfire
    hrest hgot
  -- the entry is there once its `put` has inserted it, and when the `get` reads
  have hinserted : Kept key entry c₁ := by
    cases cacheMove_of_fire hput with
    | tick ht => cases ht
    | read ht _ hpc | miss ht _ hpc | hit ht _ hpc | expire ht _ hpc | remove ht _ hpc
    | stamp ht _ hpc =>
      rw [hstamped] at hpc
      cases hpc
    | @insert i key' entry' ht hcall hpc _ hentries =>
      obtain rfl := Option.some.inj ht
      rw [hstamped] at hpc
      obtain rfl := CachePc.stamped.inj hpc
      obtain ⟨ttl, hwrites⟩ := hwrites
      obtain ⟨status, headers, body, ttl', hcall⟩ := hcall
      rw [hwrites] at hcall
      obtain ⟨rfl, -⟩ := CacheCall.put.inj hcall
      left
      rw [hentries, HashMap.get_insert, if_pos rfl]
  have hthere : Kept key entry c₂ :=
    Interleave.System.reachesWhen_invariant (P := Kept key entry)
      (fun t c c' hkept hstep hfire => kept_step hkept hstep.1 hstep.2 hfire) hquiet hinserted
  have hfound : c₂.shared.entries[key]? = some entry := hthere.resolve_right (by omega)
  have hread : Returns g entry c₃ := by
    cases cacheMove_of_fire hfire with
    | tick ht => cases ht
    | @miss i key' ht hcall _ hmiss =>
      obtain rfl := Option.some.inj ht
      rw [hget] at hcall
      obtain rfl := CacheCall.get.inj hcall
      rw [hfound] at hmiss
      cases hmiss
    | hit ht _ hpc | expire ht _ hpc | remove ht _ hpc | insert ht _ hpc =>
      rw [hstart] at hpc
      cases hpc
    | stamp ht hcall =>
      obtain rfl := Option.some.inj ht
      obtain ⟨ttl, hcall⟩ := hcall
      rw [hget] at hcall
      cases hcall
    | @read i key' entry' ht hcall _ hread hpc' =>
      obtain rfl := Option.some.inj ht
      rw [hget] at hcall
      obtain rfl := CacheCall.get.inj hcall
      rw [hfound] at hread
      obtain rfl := Option.some.inj hread
      exact Or.inl ⟨_, hpc', hfresh⟩
  have hlast : Returns g entry c₄ :=
    Interleave.System.reachesWhen_invariant (P := Returns g entry)
      (fun t c c' hreturns htime hfire => returns_step hget hreturns htime hfire) hrest hread
  rcases hlast with ⟨since, hpc, -⟩ | hpc
  · rw [hgot] at hpc
    cases hpc
  · rw [hgot] at hpc
    exact CachePc.got.inj hpc

/-- What a `get` removes is gone, fresh or not: the next `get` misses. -/
theorem misses_of_remove {i g : ι} (hcall : calls i = .get key)
    (hpc : c.threads (some i) = .expired) (hfire : (cacheSystem calls).fire (some i) c = some c')
    (hget : calls g = .get key) (hstart : c.threads (some g) = .start) :
    ∃ c'', (cacheSystem calls).fire (some g) c' = some c'' ∧ c''.threads (some g) = .got none := by
  have hne : (some g : Option ι) ≠ some i := by
    intro h
    rw [h, hpc] at hstart
    cases hstart
  have hstart' : c'.threads (some g) = .start := by
    rw [(Interleave.System.fire_spec hfire).2 (some g) hne, hstart]
  have hgone : c'.shared.entries[key]? = none := by
    cases cacheMove_of_fire hfire with
    | tick ht => cases ht
    | read ht _ hpc2 | miss ht _ hpc2 | hit ht _ hpc2 | expire ht _ hpc2 | stamp ht _ hpc2
    | insert ht _ hpc2 =>
      rw [hpc] at hpc2
      cases hpc2
    | @remove i' key' ht hcall' _ _ hentries =>
      obtain rfl := Option.some.inj ht
      rw [hcall] at hcall'
      obtain rfl := CacheCall.get.inj hcall'
      rw [hentries, HashMap.get_erase, if_pos rfl]
  have hstep : (cacheSystem calls).step (some g) (c'.threads (some g)) c'.shared =
      some (.got none, c'.shared) := by
    show (calls g).step _ _ = _
    rw [hget, hstart', CacheCall.step, hgone]
  refine ⟨⟨Function.update c'.threads (some g) (.got none), c'.shared⟩, ?_, Function.update_self ..⟩
  rw [Interleave.System.fire, hstep]
  rfl

/-- A `put` and then a `get`, with nobody else about: the entry is returned. -/
theorem hit_after_put {p g : ι} (hne : g ≠ p) {status : UInt16} {headers : HashMap (List String)}
    {body : Bytes} {ttl : Nat} (hput : calls p = .put key status headers body ttl) (httl : 0 < ttl)
    (hget : calls g = .get key) :
    ∃ c, (cacheSystem calls).Reaches cacheStart c ∧
      c.threads (some p) = .stored ⟨status, headers, body, ttl⟩ ∧
      c.threads (some g) = .got (some ⟨status, headers, body, ttl⟩) := by
  have hpg : (some g : Option ι) ≠ some p := fun h => hne (Option.some.inj h)
  have h0 : (cacheSystem calls).Reaches cacheStart ⟨fun _ => .start, ⟨∅, ∅, 0⟩⟩ := .refl
  have h1 := h0.advance (i := some p) rfl (by
    show (calls p).step _ _ = _
    rw [hput]
    exact rfl)
  have h2 := h1.advance (i := some p) (Function.update_self ..) (by
    show (calls p).step _ _ = _
    rw [hput]
    exact rfl)
  have hread : ∀ (s : CacheState) (entry : CacheEntry), s.entries[key]? = some entry →
      (cacheSystem calls).step (some g) .start s = some (.reading entry s.now, s.lock key) := by
    intro s entry hentry
    show (calls g).step _ _ = _
    rw [hget, CacheCall.step, hentry]
  have h3 := h2.advance (i := some g)
    (by rw [Function.update_of_ne hpg, Function.update_of_ne hpg])
    (hread _ ⟨status, headers, body, 0 + ttl⟩ (by
      rw [HashMap.get_insert, if_pos rfl]))
  have h4 := h3.advance (i := some g) (Function.update_self ..) (by
    show (calls g).step _ _ = _
    rw [hget, CacheCall.step, if_pos (by show 0 < 0 + ttl; omega)])
  rw [Nat.zero_add] at h4
  refine ⟨_, h4, ?_, Function.update_self ..⟩
  show Function.update _ _ _ _ = _
  rw [Function.update_of_ne hpg.symm, Function.update_of_ne hpg.symm, Function.update_self]

end Fresh

/-! ## A store that refreshes an expired entry -/

/-- A lookup of an expired entry, a store that refreshes it, and a lookup after that. -/
inductive RefreshCall where
  | oldPut
  | oldGet
  | newPut
  | newGet
deriving DecidableEq

/-- All of one key; an entry lives for one tick. -/
def refreshCalls : RefreshCall → CacheCall
  | .oldPut => .put "k" 200 ∅ [1] 1
  | .newPut => .put "k" 200 ∅ [2] 1
  | .oldGet | .newGet => .get "k"

/-- The lookup finds the old entry expired, the store lands, and the lookup goes on to remove. -/
def refreshSchedule : List (Option RefreshCall) :=
  [some .oldPut, some .oldPut, none, some .oldGet, some .oldGet, some .newPut, some .newPut,
    some .oldGet, some .newGet]

/-- The state after the first `n` steps. -/
def refreshState (n : Nat) : Interleave.Config (Option RefreshCall) CachePc CacheState :=
  ((cacheSystem refreshCalls).run (refreshSchedule.take n) cacheStart).getD cacheStart

/-- The fresh entry is there after its store, and gone for the lookup that comes next, at a time
    before its expiry. -/
theorem refreshed_entry_lost :
    (refreshState 7).shared.entries["k"]? = some ⟨200, ∅, [2], 2⟩ ∧
    (refreshState 9).threads (some .newGet) = .got none ∧ (refreshState 9).shared.now = 1 ∧
    ¬ ServesFresh refreshCalls fun _ _ => True := by
  refine ⟨by decide, by decide, by decide, fun h => ?_⟩
  have hnone := h (refreshState 6) (refreshState 7) (refreshState 8) (refreshState 9)
    (refreshState 9) .newPut .newGet "k" ⟨200, ∅, [2], 2⟩ none
    (Interleave.System.reachesWhen_of_runWhen (refreshSchedule.take 6) rfl) (by decide) ⟨1, rfl⟩ rfl
    (Relation.ReflTransGen.single ⟨some .oldGet, ⟨trivial, ?_⟩, rfl⟩) (by decide) rfl (by decide)
    rfl .refl (by decide)
  · cases hnone
  · rintro ⟨i, entry, -, hpc, -⟩
    rw [show (refreshState 7).threads (some .oldGet) = .expired by decide] at hpc
    cases hpc

end Featherbit
