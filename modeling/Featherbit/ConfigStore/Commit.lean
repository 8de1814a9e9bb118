/-
  AN ADMIN COMMIT TO ETCD (`EtcdConfigStore::commit`), call by call.

  A commit validates the candidate, ranges the prefix, and then makes its writes one call at a
  time: a put for every resource, and a delete for every key the candidate dropped.  There is no
  etcd transaction around them.  Any call may fail, and ends the commit; a write that fails may
  still have reached etcd (`writeLost`).  Only after the last write is the candidate applied to
  the node itself.

  The writes are fixed once the range is answered (`Plans`), but for the order of the deletes,
  which the source leaves to a `HashSet`.  `CommitInv` says how far along the plan a commit is;
  what a reader of the prefix can see follows from it.
-/
import Featherbit.ConfigStore.Etcd

namespace Featherbit

/-- Why a commit answers an error: the candidate is rejected, or an etcd call failed. -/
inductive CommitError where
  | config (e : ConfigError)
  | etcd (message : String)

/-- Where a commit is. -/
inductive CommitPc where
  | start (gw : GatewayConfig)
  /-- the candidate is valid -/
  | validated (gw : GatewayConfig)
  /-- the range is answered, these writes are still to be made -/
  | writing (gw : GatewayConfig) (todo : List EtcdOp)
  /-- every write is made, and the candidate is about to be applied -/
  | written (gw : GatewayConfig)
  | returned (result : Except CommitError Unit)

/-- What a commit works on: the keyspace, and the live tables of its node. -/
structure CommitState (σ : Type) where
  pc : CommitPc
  kvs : Content
  live : Tables σ

namespace EtcdConfigStore

variable (store : EtcdConfigStore) (codec : Codec)

/-- The keys a commit deletes, in one order: those ranged that no put is for. -/
def staleKeys (gw : GatewayConfig) (current : List (String × Bytes)) : List String :=
  (current.map (·.1)).filter fun key => decide (key ∉ (store.puts codec gw).map (·.1))

/-- `ops` are the writes of a commit that ranged `kvs`: the puts, then the deletes in some order. -/
def Plans (gw : GatewayConfig) (kvs : Content) (ops : List EtcdOp) : Prop :=
  ∃ (current : List (String × Bytes)) (stale : List String), store.rangePrefix kvs = .ok current ∧
    stale.Perm (store.staleKeys codec gw current) ∧
    ops = (store.puts codec gw).map (fun kv => .put kv.1 kv.2) ++ stale.map .delete

end EtcdConfigStore

section Steps

variable {σ : Type} (env : Env) (factory : PluginFactory σ) (codec : Codec)
  (store : EtcdConfigStore)

/-- One call of a commit, or one of its local steps. -/
inductive CommitStep : CommitState σ → CommitState σ → Prop where
  | accept {gw kvs live} (h : validateGateway env factory gw = .ok ()) :
      CommitStep ⟨.start gw, kvs, live⟩ ⟨.validated gw, kvs, live⟩
  | reject {gw e kvs live} (h : validateGateway env factory gw = .error e) :
      CommitStep ⟨.start gw, kvs, live⟩ ⟨.returned (.error (.config e)), kvs, live⟩
  | range {gw ops kvs live} (h : store.Plans codec gw kvs ops) :
      CommitStep ⟨.validated gw, kvs, live⟩ ⟨.writing gw ops, kvs, live⟩
  | rangeInvalid {gw e kvs live} (h : store.rangePrefix kvs = .error e) :
      CommitStep ⟨.validated gw, kvs, live⟩ ⟨.returned (.error (.etcd e)), kvs, live⟩
  | rangeFails {gw e kvs live} :
      CommitStep ⟨.validated gw, kvs, live⟩ ⟨.returned (.error (.etcd e)), kvs, live⟩
  | write {gw op todo kvs live} :
      CommitStep ⟨.writing gw (op :: todo), kvs, live⟩ ⟨.writing gw todo, op.apply kvs, live⟩
  | writeFails {gw op todo e kvs live} :
      CommitStep ⟨.writing gw (op :: todo), kvs, live⟩ ⟨.returned (.error (.etcd e)), kvs, live⟩
  | writeLost {gw op todo e kvs live} :
      CommitStep ⟨.writing gw (op :: todo), kvs, live⟩
        ⟨.returned (.error (.etcd e)), op.apply kvs, live⟩
  | wrote {gw kvs live} : CommitStep ⟨.writing gw [], kvs, live⟩ ⟨.written gw, kvs, live⟩
  | apply {gw kvs live} :
      CommitStep ⟨.written gw, kvs, live⟩
        ⟨.returned ((applyGateway env factory live gw).1.mapError .config), kvs,
          (applyGateway env factory live gw).2⟩

/-- The states of a commit of `gw`, with no other write to the prefix in between. -/
def CommitRuns (gw : GatewayConfig) (kvs : Content) (live : Tables σ) : CommitState σ → Prop :=
  Relation.ReflTransGen (CommitStep env factory codec store) ⟨.start gw, kvs, live⟩

end Steps

/-! ## How far a commit is -/

section Invariant

variable {σ : Type} {env : Env} {factory : PluginFactory σ} {codec : Codec}
  {store : EtcdConfigStore} {gw : GatewayConfig} {kvs : Content} {live : Tables σ}
  {s s' : CommitState σ}

/-- The writes made so far are a first part of a plan. -/
def Underway (store : EtcdConfigStore) (codec : Codec) (gw : GatewayConfig) (kvs now : Content)
    (todo : List EtcdOp) : Prop :=
  ∃ done, store.Plans codec gw kvs (done ++ todo) ∧ now = EtcdOp.applyAll kvs done

/-- What holds of a commit of `gw` that began with the keyspace `kvs` and the tables `live`. -/
def CommitInv (env : Env) (factory : PluginFactory σ) (codec : Codec) (store : EtcdConfigStore)
    (gw : GatewayConfig) (kvs : Content) (live : Tables σ) (s : CommitState σ) : Prop :=
  match s.pc with
  | .start gw' => gw' = gw ∧ s.kvs = kvs ∧ s.live = live
  | .validated gw' =>
    gw' = gw ∧ validateGateway env factory gw = .ok () ∧ s.kvs = kvs ∧ s.live = live
  | .writing gw' todo =>
    gw' = gw ∧ validateGateway env factory gw = .ok () ∧
      Underway store codec gw kvs s.kvs todo ∧ s.live = live
  | .written gw' =>
    gw' = gw ∧ validateGateway env factory gw = .ok () ∧
      Underway store codec gw kvs s.kvs [] ∧ s.live = live
  | .returned (.error (.config _)) => s.kvs = kvs ∧ s.live = live
  | .returned (.error (.etcd _)) =>
    (s.kvs = kvs ∨ ∃ todo, Underway store codec gw kvs s.kvs todo) ∧ s.live = live
  | .returned (.ok ()) =>
    Underway store codec gw kvs s.kvs [] ∧ buildTables env factory gw = .ok s.live

/-- A write that is made moves from what is to do to what is done. -/
theorem Underway.write {now : Content} {op : EtcdOp} {todo : List EtcdOp}
    (h : Underway store codec gw kvs now (op :: todo)) :
    Underway store codec gw kvs (op.apply now) todo := by
  obtain ⟨done, hplan, rfl⟩ := h
  refine ⟨done ++ [op], ?_, ?_⟩
  · rw [List.append_assoc]
    exact hplan
  · rw [EtcdOp.applyAll_concat]

/-- **One step keeps the invariant.** -/
theorem commitInv_step (h : CommitInv env factory codec store gw kvs live s)
    (hstep : CommitStep env factory codec store s s') :
    CommitInv env factory codec store gw kvs live s' := by
  cases hstep with
  | accept hok =>
    obtain ⟨rfl, hkvs, hlive⟩ := h
    exact ⟨rfl, hok, hkvs, hlive⟩
  | reject =>
    obtain ⟨-, hkvs, hlive⟩ := h
    exact ⟨hkvs, hlive⟩
  | range hplan =>
    obtain ⟨rfl, hok, hkvs, hlive⟩ := h
    refine ⟨rfl, hok, ⟨[], ?_, hkvs⟩, hlive⟩
    obtain rfl : _ = kvs := hkvs
    exact hplan
  | rangeInvalid | rangeFails =>
    obtain ⟨-, -, hkvs, hlive⟩ := h
    exact ⟨Or.inl hkvs, hlive⟩
  | write =>
    obtain ⟨rfl, hok, hunder, hlive⟩ := h
    exact ⟨rfl, hok, hunder.write, hlive⟩
  | writeFails =>
    obtain ⟨rfl, hok, hunder, hlive⟩ := h
    exact ⟨Or.inr ⟨_, hunder⟩, hlive⟩
  | writeLost =>
    obtain ⟨rfl, hok, hunder, hlive⟩ := h
    exact ⟨Or.inr ⟨_, hunder.write⟩, hlive⟩
  | wrote => exact h
  | apply =>
    obtain ⟨rfl, hok, hunder, hlive⟩ := h
    -- a validated candidate is applied
    obtain ⟨tables, htables⟩ := validateGateway_eq_ok.mp hok
    simp only [applyGateway, htables]
    exact ⟨hunder, htables⟩

theorem commitInv_of_runs (h : CommitRuns env factory codec store gw kvs live s) :
    CommitInv env factory codec store gw kvs live s := by
  induction h with
  | refl => exact ⟨rfl, rfl, rfl⟩
  | tail _ hstep ih => exact commitInv_step ih hstep

end Invariant

/-! ## What is under a key -/

section Moments

variable {codec : Codec} {store : EtcdConfigStore} {gw : GatewayConfig} {kvs now : Content}
  {todo : List EtcdOp}

/-- What the candidate puts under a key, the last time it does. -/
def EtcdConfigStore.target (store : EtcdConfigStore) (codec : Codec) (gw : GatewayConfig)
    (key : Bytes) : Option Bytes :=
  (Keyed.lookupLast (fun kv => asBytes kv.1) key (store.puts codec gw)).map (·.2)

theorem target_eq_none {key : Bytes} :
    store.target codec gw key = none ↔ ∀ kv ∈ store.puts codec gw, asBytes kv.1 ≠ key := by
  rw [EtcdConfigStore.target, Option.map_eq_none_iff, Keyed.lookupLast_eq_none]

/-- A key that is deleted is one of the prefix, and no put is for it. -/
theorem stale_spec {current : List (String × Bytes)} {stale : List String}
    (hrange : store.rangePrefix kvs = .ok current)
    (hperm : stale.Perm (store.staleKeys codec gw current)) {key : Bytes} :
    key ∈ stale.map asBytes ↔
      asBytes store.base <+: key ∧ kvs[key]? ≠ none ∧ store.target codec gw key = none := by
  have htarget : ∀ d : String, d ∉ (store.puts codec gw).map (·.1) ↔
      store.target codec gw (asBytes d) = none := by
    intro d
    rw [target_eq_none]
    simp only [ne_eq, asBytes_inj, List.mem_map, not_exists, not_and]
  have hstale : ∀ d, d ∈ stale ↔
      d ∈ current.map (·.1) ∧ store.target codec gw (asBytes d) = none := by
    intro d
    rw [hperm.mem_iff, EtcdConfigStore.staleKeys, List.mem_filter, decide_eq_true_iff, htarget]
  constructor
  · intro h
    obtain ⟨d, hd, rfl⟩ := List.mem_map.mp h
    obtain ⟨hcur, hnone⟩ := (hstale d).mp hd
    obtain ⟨⟨d', value⟩, hpair, rfl⟩ := List.mem_map.mp hcur
    obtain ⟨hkvs, hbase⟩ := (EtcdConfigStore.mem_rangePrefix hrange).mp hpair
    exact ⟨hbase, by simp [hkvs], hnone⟩
  · rintro ⟨hbase, hkvs, hnone⟩
    obtain ⟨value, hvalue⟩ := Option.ne_none_iff_exists'.mp hkvs
    obtain ⟨d, rfl, hpair⟩ := EtcdConfigStore.exists_of_rangePrefix hrange hvalue hbase
    have hd : d ∈ stale := (hstale d).mpr ⟨List.mem_map_of_mem hpair, hnone⟩
    exact List.mem_map_of_mem hd

/-- The keyspace after the puts and some deletes. -/
theorem getElem?_puts_deletes (dels : List String) (key : Bytes) :
    (EtcdOp.applyAll kvs
        ((store.puts codec gw).map (fun kv => .put kv.1 kv.2) ++ dels.map .delete))[key]? =
      if key ∈ dels.map asBytes then none else (store.target codec gw key).or kvs[key]? := by
  rw [EtcdOp.getElem?_applyAll, Keyed.lookupLast_append, Keyed.lookupLast_map, Keyed.lookupLast_map]
  show ((Option.map EtcdOp.delete (Keyed.lookupLast (fun d => asBytes d) key dels)).or _).elim _ _ = _
  by_cases hkey : key ∈ dels.map asBytes
  · rw [if_pos hkey]
    cases hlast : Keyed.lookupLast (fun d => asBytes d) key dels with
    | none =>
      obtain ⟨d, hd, hdkey⟩ := List.mem_map.mp hkey
      exact absurd hdkey (Keyed.lookupLast_eq_none.mp hlast d hd)
    | some d => rfl
  · have hnone : Keyed.lookupLast (fun d => asBytes d) key dels = none :=
      Keyed.lookupLast_eq_none.mpr fun d hd hdkey => hkey (hdkey ▸ List.mem_map_of_mem hd)
    rw [if_neg hkey, hnone, EtcdConfigStore.target]
    show (Option.map _ (Keyed.lookupLast (fun kv => asBytes kv.1) key (store.puts codec gw))).elim _ _ = _
    cases Keyed.lookupLast (fun kv => asBytes kv.1) key (store.puts codec gw) <;> rfl

/-- What a commit has done under a key so far: nothing, one of its puts, or, when the puts are all
    made and none was for the key, its delete. -/
def Moment (store : EtcdConfigStore) (codec : Codec) (gw : GatewayConfig) (kvs now : Content)
    (key : Bytes) : Prop :=
  now[key]? = kvs[key]? ∨
  (∃ kv ∈ store.puts codec gw, asBytes kv.1 = key ∧ now[key]? = some kv.2) ∨
  (asBytes store.base <+: key ∧ store.target codec gw key = none ∧ now[key]? = none ∧
    ∀ kv ∈ store.puts codec gw, now[asBytes kv.1]? = store.target codec gw (asBytes kv.1))

theorem moment_of_underway (h : Underway store codec gw kvs now todo) (key : Bytes) :
    Moment store codec gw kvs now key := by
  obtain ⟨done, ⟨current, stale, hrange, hperm, hops⟩, rfl⟩ := h
  rcases List.append_eq_append_iff.mp hops with ⟨rest, hputs, -⟩ | ⟨rest, hdone, hdels⟩
  · -- only puts so far
    obtain ⟨made, _, hsplit, hmade, -⟩ := List.map_eq_append_iff.mp hputs
    have hnow : (EtcdOp.applyAll kvs done)[key]? =
        (Keyed.lookupLast (fun kv => asBytes kv.1) key made).elim kvs[key]? (fun kv => some kv.2) := by
      rw [← hmade, EtcdOp.getElem?_applyAll, Keyed.lookupLast_map]
      show (Option.map _ (Keyed.lookupLast (fun kv => asBytes kv.1) key made)).elim _ _ = _
      cases Keyed.lookupLast (fun kv => asBytes kv.1) key made <;> rfl
    rw [Moment, hnow]
    cases hlast : Keyed.lookupLast (fun kv => asBytes kv.1) key made with
    | none => exact Or.inl rfl
    | some kv =>
      obtain ⟨hmem, hkey⟩ := Keyed.key_of_lookupLast hlast
      have hput : kv ∈ store.puts codec gw := by
        rw [hsplit]
        exact List.mem_append_left _ hmem
      exact Or.inr (Or.inl ⟨kv, hput, hkey, rfl⟩)
  · -- every put is made
    obtain ⟨gone, left, rfl, hgone, -⟩ := List.map_eq_append_iff.mp hdels
    have hnow := @getElem?_puts_deletes codec store gw kvs gone
    have hspec : ∀ k, k ∈ gone.map asBytes →
        asBytes store.base <+: k ∧ store.target codec gw k = none := by
      intro k hk
      have hk' : k ∈ (gone ++ left).map asBytes := by
        rw [List.map_append]
        exact List.mem_append_left _ hk
      obtain ⟨hbase, -, hnone⟩ := (stale_spec hrange hperm).mp hk'
      exact ⟨hbase, hnone⟩
    rw [Moment, hdone, ← hgone]
    by_cases hkey : key ∈ gone.map asBytes
    · refine Or.inr (Or.inr ⟨(hspec key hkey).1, (hspec key hkey).2, ?_, ?_⟩)
      · rw [hnow, if_pos hkey]
      · intro kv hkv
        have hput : store.target codec gw (asBytes kv.1) ≠ none :=
          fun hnone => target_eq_none.mp hnone kv hkv rfl
        obtain ⟨value, hvalue⟩ := Option.ne_none_iff_exists'.mp hput
        rw [hnow, if_neg (fun hmem => hput (hspec _ hmem).2), hvalue]
        rfl
    · rw [hnow, if_neg hkey]
      cases htarget : store.target codec gw key with
      | none => exact Or.inl rfl
      | some value =>
        obtain ⟨kv, hlast, rfl⟩ := Option.map_eq_some_iff.mp htarget
        obtain ⟨hmem, hkv⟩ := Keyed.key_of_lookupLast hlast
        exact Or.inr (Or.inl ⟨kv, hmem, hkv, rfl⟩)

/-- After the last write the prefix holds the candidate, and nothing else has changed. -/
theorem getElem?_of_written (h : Underway store codec gw kvs now []) (key : Bytes) :
    now[key]? = if asBytes store.base <+: key then store.target codec gw key else kvs[key]? := by
  obtain ⟨done, ⟨current, stale, hrange, hperm, hops⟩, rfl⟩ := h
  rw [List.append_nil] at hops
  rw [hops, getElem?_puts_deletes]
  have hspec := @stale_spec codec store gw kvs current stale hrange hperm key
  by_cases hbase : asBytes store.base <+: key
  · rw [if_pos hbase]
    cases htarget : store.target codec gw key with
    | some value =>
      rw [if_neg (fun hmem => by simp [(hspec.mp hmem).2.2] at htarget)]
      rfl
    | none =>
      by_cases hkvs : kvs[key]? = none
      · simp [hkvs]
      · rw [if_pos (hspec.mpr ⟨hbase, hkvs, htarget⟩)]
  · have hnone : store.target codec gw key = none :=
      target_eq_none.mpr fun kv hkv hkey =>
        hbase (hkey ▸ EtcdConfigStore.base_isPrefix_of_mem_puts hkv)
    rw [if_neg hbase, if_neg (fun hmem => hbase (hspec.mp hmem).1), hnone]
    rfl

end Moments

/-! ## What a load in between sees -/

/-- Every resource of `seen` is one of `old` or one of `gw`. -/
structure GatewayConfig.DrawnFrom (seen old gw : GatewayConfig) : Prop where
  routes : ∀ r ∈ seen.routes, r ∈ old.routes ∨ r ∈ gw.routes
  policies : ∀ p ∈ seen.policies, p ∈ old.policies ∨ p ∈ gw.policies
  consumers : ∀ c ∈ seen.consumers, c ∈ old.consumers ∨ c ∈ gw.consumers

section Load

variable {codec : Codec} {store : EtcdConfigStore} {gw old : GatewayConfig} {kvs now : Content}

/-- A category of pairs some of which are old and some put. -/
theorem reads_mixed {α : Type} {cat keyPrefix : String} {serde : Serde α}
    {pairs pairs0 puts : List (String × Bytes)} {as0 xs : List α}
    (hmix : ∀ kv ∈ pairs, kv ∈ pairs0 ∨ kv ∈ puts)
    (hold : EtcdConfigStore.Reads keyPrefix cat serde pairs0 as0)
    (hput : ∀ kv ∈ puts, EtcdConfigStore.category keyPrefix kv.1 = some cat →
      ∃ x ∈ xs, serde.fromSlice kv.2 = .ok x) :
    ∃ as, EtcdConfigStore.Reads keyPrefix cat serde pairs as ∧ ∀ a ∈ as, a ∈ as0 ∨ a ∈ xs := by
  have hread : ∀ kv ∈ pairs, EtcdConfigStore.category keyPrefix kv.1 = some cat →
      ∃ a, serde.fromSlice kv.2 = .ok a ∧ (a ∈ as0 ∨ a ∈ xs) := by
    intro kv hkv hcat
    rcases hmix kv hkv with hmem | hmem
    · have hrow : kv ∈ pairs0.filter
          fun kv => decide (EtcdConfigStore.category keyPrefix kv.1 = some cat) :=
        List.mem_filter.mpr ⟨hmem, decide_eq_true hcat⟩
      obtain ⟨a, ha, hread⟩ := TryFold.exists_result hold hrow
      exact ⟨a, hread, Or.inl ha⟩
    · obtain ⟨x, hx, hread⟩ := hput kv hmem hcat
      exact ⟨x, hread, Or.inr hx⟩
  obtain ⟨as, has⟩ := EtcdConfigStore.exists_reads fun kv hkv hcat =>
    (hread kv hkv hcat).imp fun _ h => h.1
  refine ⟨as, has, fun a ha => ?_⟩
  obtain ⟨kv, hkv, hcat, hkva⟩ := (EtcdConfigStore.mem_of_reads has).mp ha
  obtain ⟨b, hb, hmem⟩ := hread kv hkv hcat
  obtain rfl : a = b := Except.ok.inj (hkva.symm.trans hb)
  exact hmem

/-- Where the old config could be loaded, so can what a commit has made of it. -/
theorem load_of_moments (hround : codec.RoundTrips gw)
    (hmoment : ∀ key, Moment store codec gw kvs now key)
    (hold : store.loadAll codec kvs = .ok old) :
    ∃ seen, store.loadAll codec now = .ok seen ∧ seen.DrawnFrom old gw := by
  obtain ⟨pairs0, hrange0, hgw0⟩ := EtcdConfigStore.loadAll_eq_ok.mp hold
  obtain ⟨hroutes0, hpolicies0, hconsumers0⟩ := EtcdConfigStore.gatewayFromKvs_eq_ok.mp hgw0
  obtain ⟨pairs, hrange⟩ : ∃ pairs, store.rangePrefix now = .ok pairs := by
    refine EtcdConfigStore.exists_rangePrefix fun key value hkey hbase => ?_
    rcases hmoment key with hsame | ⟨kv, -, hkv, -⟩ | ⟨-, -, hnone, -⟩
    · rw [hsame] at hkey
      obtain ⟨s, hs, -⟩ := EtcdConfigStore.exists_of_rangePrefix hrange0 hkey hbase
      exact ⟨s, hs⟩
    · exact ⟨kv.1, hkv.symm⟩
    · rw [hnone] at hkey
      nomatch hkey
  have hmix : ∀ kv ∈ pairs, kv ∈ pairs0 ∨ kv ∈ store.puts codec gw := by
    rintro ⟨key, value⟩ hkv
    obtain ⟨hkey, hbase⟩ := (EtcdConfigStore.mem_rangePrefix hrange).mp hkv
    rcases hmoment (asBytes key) with hsame | ⟨⟨key', value'⟩, hput, heq, hnow⟩ | ⟨-, -, hnone, -⟩
    · exact Or.inl ((EtcdConfigStore.mem_rangePrefix hrange0).mpr ⟨hsame ▸ hkey, hbase⟩)
    · obtain rfl : key' = key := asBytes_inj.mp heq
      obtain rfl : value' = value := Option.some.inj (hnow.symm.trans hkey)
      exact Or.inr hput
    · rw [hnone] at hkey
      nomatch hkey
  have hput := fun kv (hkv : kv ∈ store.puts codec gw) =>
    EtcdConfigStore.read_of_mem_puts hround hkv
  obtain ⟨rs, hrs, hrsFrom⟩ := reads_mixed hmix hroutes0 fun kv hkv => (hput kv hkv).1
  obtain ⟨ps, hps, hpsFrom⟩ := reads_mixed hmix hpolicies0 fun kv hkv => (hput kv hkv).2.1
  obtain ⟨cs, hcs, hcsFrom⟩ := reads_mixed hmix hconsumers0 fun kv hkv => (hput kv hkv).2.2
  refine ⟨⟨rs, ps, cs⟩, ?_, ⟨hrsFrom, hpsFrom, hcsFrom⟩⟩
  exact EtcdConfigStore.loadAll_eq_ok.mpr
    ⟨pairs, hrange, EtcdConfigStore.gatewayFromKvs_eq_ok.mpr ⟨hrs, hps, hcs⟩⟩

end Load

/-! ## A commit is gradual -/

section Gradual

variable {σ : Type} {env : Env} {factory : PluginFactory σ} {codec : Codec}
  {store : EtcdConfigStore} {gw : GatewayConfig} {kvs : Content} {live : Tables σ}
  {s : CommitState σ}

/-- A commit has made none of its writes, or a first part of them. -/
theorem underway_of_runs (hrun : CommitRuns env factory codec store gw kvs live s) :
    s.kvs = kvs ∨ ∃ todo, Underway store codec gw kvs s.kvs todo := by
  have hinv := commitInv_of_runs hrun
  obtain ⟨pc, now, live'⟩ := s
  cases pc with
  | start gw' => exact Or.inl hinv.2.1
  | validated gw' => exact Or.inl hinv.2.2.1
  | writing gw' todo => exact Or.inr ⟨todo, hinv.2.2.1⟩
  | written gw' => exact Or.inr ⟨[], hinv.2.2.1⟩
  | returned result =>
    cases result with
    | ok => exact Or.inr ⟨[], hinv.1⟩
    | error e =>
      cases e with
      | config e => exact Or.inl hinv.1
      | etcd e => exact hinv.1

/-- **A commit changes the prefix write by write.**  At every moment, and so wherever a failed call
    ended it: the writes made are a first part of a plan; each key holds what it held before, or
    what was put there, or, once every put is made, nothing because the candidate dropped it; and
    a load sees no resource that is neither an old one nor one of the candidate.  A candidate that
    is rejected has changed nothing, and a commit that succeeds has left the candidate, and only
    it, under the prefix. -/
theorem commit_is_gradual (hrun : CommitRuns env factory codec store gw kvs live s) :
    (s.kvs = kvs ∨ ∃ todo, Underway store codec gw kvs s.kvs todo) ∧
    (∀ key, Moment store codec gw kvs s.kvs key) ∧
    (codec.RoundTrips gw → ∀ old, store.loadAll codec kvs = .ok old →
      ∃ seen, store.loadAll codec s.kvs = .ok seen ∧ seen.DrawnFrom old gw) ∧
    (∀ e, s.pc = .returned (.error (.config e)) → s.kvs = kvs) ∧
    (s.pc = .returned (.ok ()) → ∀ key, s.kvs[key]? =
      if asBytes store.base <+: key then store.target codec gw key else kvs[key]?) := by
  have hprogress := underway_of_runs hrun
  have hmoment : ∀ key, Moment store codec gw kvs s.kvs key := by
    intro key
    rcases hprogress with hsame | ⟨todo, hunder⟩
    · exact Or.inl (by rw [hsame])
    · exact moment_of_underway hunder key
  have hinv := commitInv_of_runs hrun
  refine ⟨hprogress, hmoment, fun hround old => load_of_moments hround hmoment, ?_, ?_⟩
  · intro e hpc
    rw [CommitInv, hpc] at hinv
    exact hinv.1
  · intro hpc key
    rw [CommitInv, hpc] at hinv
    exact getElem?_of_written hinv.1 key

end Gradual

/-! ## A put that fails -/

/-- The JSON of some values, written and read. -/
def Serde.ofTexts {α : Type} [DecidableEq α] (texts : List (α × String)) : Serde α where
  toVec a := ((Keyed.lookup (·.1) a texts).map fun row => asBytes row.2).getD []
  fromSlice bytes :=
    match Keyed.lookup (fun row => asBytes row.2) bytes texts with
    | some row => .ok row.1
    | none => .error "expected value at line 1 column 1"

/-- Different texts are told apart. -/
theorem Serde.ofTexts_roundTrips {α : Type} [DecidableEq α] {texts : List (α × String)}
    (hnodup : (texts.map (·.2)).Nodup) {a : α} (ha : a ∈ texts.map (·.1)) :
    (Serde.ofTexts texts).fromSlice ((Serde.ofTexts texts).toVec a) = .ok a := by
  obtain ⟨row, hrow, rfl⟩ := List.mem_map.mp ha
  obtain ⟨written, hwritten⟩ : ∃ written, Keyed.lookup (·.1) row.1 texts = some written :=
    Keyed.exists_lookup hrow
  obtain ⟨hmem, hfst⟩ := Keyed.key_of_lookup hwritten
  obtain ⟨found, hfound⟩ :
      ∃ found, Keyed.lookup (fun r => asBytes r.2) (asBytes written.2) texts = some found :=
    Keyed.exists_lookup hmem
  obtain ⟨hmem', htext⟩ := Keyed.key_of_lookup hfound
  obtain rfl : found = written := List.inj_on_of_nodup_map hnodup hmem' hmem (asBytes_inj.mp htext)
  simp only [Serde.ofTexts, hwritten, Option.map_some, Option.getD_some, hfound, hfst]

/-- A codec for the consumers `a` and `b`. -/
def twoConsumersCodec : Codec where
  route := .ofTexts []
  policy := .ofTexts []
  consumer := .ofTexts [
    ({ name := "a" }, "\x7b\"name\":\"a\",\"credentials\":\x7b\x7d\x7d"),
    ({ name := "b" }, "\x7b\"name\":\"b\",\"credentials\":\x7b\x7d\x7d")]

def twoConsumers : GatewayConfig where
  consumers := [{ name := "a" }, { name := "b" }]

/-- The store of the default prefix. -/
def featherbitStore : EtcdConfigStore := .new "/featherbit/"

/-- The JSON of consumer `a`. -/
def consumerA : Bytes := asBytes "\x7b\"name\":\"a\",\"credentials\":\x7b\x7d\x7d"

/-- The commit of two consumers to an empty keyspace, between its two puts. -/
theorem commit_halfway : ∃ op,
    CommitRuns (fun _ => none) unknownTypes twoConsumersCodec featherbitStore twoConsumers ∅
      emptyTables
      ⟨.writing twoConsumers [op], EtcdOp.applyAll ∅ [.put "/featherbit/consumers/a" consumerA],
        emptyTables⟩ := by
  have hrange : featherbitStore.rangePrefix ∅ = .ok [] := rfl
  exact ⟨_, .tail (.tail (.tail .refl (.accept rfl)) (.range ⟨[], [], hrange, .nil, rfl⟩)) .write⟩

/-- A load between the two puts sees `a` alone, and if the second put fails it stays so. -/
theorem failed_commit_leaves_a_part :
    validateGateway (fun _ => none) (unknownTypes (σ := Unit)) twoConsumers = .ok () ∧
    ∃ (s s' : CommitState Unit) (seen : GatewayConfig),
      CommitRuns (fun _ => none) unknownTypes twoConsumersCodec featherbitStore twoConsumers ∅
        emptyTables s ∧
      (∃ op, s.pc = .writing twoConsumers [op]) ∧
      featherbitStore.loadAll twoConsumersCodec s.kvs = .ok seen ∧
      featherbitStore.loadAll twoConsumersCodec ∅ ≠ .ok seen ∧ seen ≠ twoConsumers ∧
      CommitRuns (fun _ => none) unknownTypes twoConsumersCodec featherbitStore twoConsumers ∅
        emptyTables s' ∧
      (∃ e, s'.pc = .returned (.error e)) ∧
      featherbitStore.rangePrefix s'.kvs ≠ featherbitStore.rangePrefix ∅ := by
  obtain ⟨op, hrun⟩ := commit_halfway
  have hfailed := hrun.tail (@CommitStep.writeFails _ _ _ _ _ _ _ _
    "etcd /v3/kv/put returned status 503: " _ _)
  refine ⟨rfl, _, _, { consumers := [{ name := "a" }] }, hrun, ⟨op, rfl⟩, rfl, ?_, ?_, hfailed,
    ⟨_, rfl⟩, ?_⟩
  · intro h
    have hconsumers := congrArg GatewayConfig.consumers (Except.ok.inj h)
    nomatch hconsumers
  · intro h
    have hlength := congrArg (fun gw => gw.consumers.length) h
    nomatch hlength
  · intro h
    have hpairs := Except.ok.inj (h : Except.ok [("/featherbit/consumers/a", consumerA)] = .ok [])
    nomatch hpairs

/-- The state between the two puts. -/
theorem commit_is_gradual_twoConsumers :
    ∃ s : CommitState Unit, s.kvs ≠ ∅ ∧
      ∃ seen, featherbitStore.loadAll twoConsumersCodec s.kvs = .ok seen ∧
        seen.DrawnFrom {} twoConsumers := by
  obtain ⟨op, hrun⟩ := commit_halfway
  have hround : twoConsumersCodec.RoundTrips twoConsumers :=
    ⟨nofun, nofun, fun c hc => Serde.ofTexts_roundTrips (by decide) hc⟩
  obtain ⟨-, -, hload, -⟩ := commit_is_gradual hrun
  refine ⟨_, ?_, hload hround {} rfl⟩
  intro h
  have hkey := congrArg (fun kvs : Content => kvs[asBytes "/featherbit/consumers/a"]?) h
  simp [EtcdOp.applyAll, EtcdOp.apply] at hkey

end Featherbit
