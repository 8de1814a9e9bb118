/-
  FROM ONE NODE TO ANOTHER THROUGH ETCD.

  A commit turns the lists of a config into a map from keys to JSON, and a load turns the map back
  into lists, in key order.  Of resources that share a name the last one put is what a load finds
  (`Keyed.KeepsLast`), and the routes come back in the bytewise order of their names: in etcd mode
  that order, and not the order of declaration, says which of several matching routes wins.
-/
import Featherbit.ConfigStore.Commit

namespace Featherbit

open EtcdConfigStore

/-- Bytewise order of names. -/
def nameLE (a b : String) : Bool := (compare (asBytes a) (asBytes b)).isLE

/-! ## What is put under a resource's key -/

section Target

variable {store : EtcdConfigStore} {codec : Codec} {gw : GatewayConfig}

/-- What the puts of one category leave under a key of a category. -/
theorem lookupLast_resourceKey {α : Type} {cat cat' : String} (hcat : '/' ∉ cat.toList)
    (hcat' : '/' ∉ cat'.toList) (name : α → String) (f : α → Bytes) (xs : List α) (n : String) :
    (Keyed.lookupLast (fun kv : String × Bytes => asBytes kv.1)
        (asBytes (store.resourceKey cat n))
        (xs.map fun x => (store.resourceKey cat' (name x), f x))).map (·.2) =
      if cat' = cat then (Keyed.lookupLast name n xs).map f else none := by
  rw [Keyed.lookupLast_map]
  split
  · rename_i heq
    subst heq
    simp only [asBytes_inj, Keyed.lookupLast, Keyed.lookup, resourceKey_inj, Option.map_map]
    rfl
  · rename_i hne
    rw [Option.map_eq_none_iff, Option.map_eq_none_iff, Keyed.lookupLast_eq_none]
    intro x _ heq
    have hcats := congrArg (category store.keyPrefix) (asBytes_inj.mp heq)
    rw [category_resourceKey hcat', category_resourceKey hcat] at hcats
    exact hne (Option.some.inj hcats)

theorem target_resourceKey {cat : String} (hcat : '/' ∉ cat.toList) (n : String) :
    store.target codec gw (asBytes (store.resourceKey cat n)) =
      (if "consumers" = cat then
        (Keyed.lookupLast ConsumerConfig.name n gw.consumers).map codec.consumer.toVec
      else none).or
      ((if "policies" = cat then
        (Keyed.lookupLast PolicyConfig.name n gw.policies).map codec.policy.toVec
      else none).or
      (if "routes" = cat then
        (Keyed.lookupLast RouteConfig.name n gw.routes).map codec.route.toVec
      else none)) := by
  simp only [target, puts, routeKey_eq, policyKey_eq, consumerKey_eq]
  rw [Keyed.lookupLast_append, Keyed.lookupLast_append, Option.map_or, Option.map_or,
    lookupLast_resourceKey hcat (by decide), lookupLast_resourceKey hcat (by decide),
    lookupLast_resourceKey hcat (by decide)]

end Target

/-! ## What is loaded -/

/-- The resources `as` loaded of the resources `xs` put: of each name the last, in name order. -/
structure Delivered {α : Type} (name : α → String) (xs as : List α) : Prop where
  keepsLast : Keyed.KeepsLast name xs as
  sorted : as.Pairwise fun a b => compare (asBytes (name a)) (asBytes (name b)) = .lt

theorem Delivered.nodup {α : Type} {name : α → String} {xs as : List α}
    (h : Delivered name xs as) : as.Nodup := by
  refine h.sorted.imp fun {a b} hlt heq => ?_
  rw [heq, Std.ReflOrd.compare_self] at hlt
  nomatch hlt

section Load

variable {store : EtcdConfigStore} {now : Content} {pairs : List (String × Bytes)}

/-- One category of a keyspace that holds the last resource of each name under its key. -/
theorem exists_delivered {α : Type} (cat : String) (name : α → String) {serde : Serde α}
    {xs : List α} (hcat : '/' ∉ cat.toList) (hrange : store.rangePrefix now = .ok pairs)
    (hunder : ∀ n, now[asBytes (store.resourceKey cat n)]? =
      (Keyed.lookupLast name n xs).map serde.toVec)
    (hround : ∀ x ∈ xs, serde.fromSlice (serde.toVec x) = .ok x) :
    ∃ as, Reads store.keyPrefix cat serde pairs as ∧ Delivered name xs as := by
  have hread : ∀ kv ∈ pairs.filter fun kv => decide (category store.keyPrefix kv.1 = some cat),
      ∃ a, serde.fromSlice kv.2 = .ok a ∧ kv.1 = store.resourceKey cat (name a) ∧
        Keyed.lookupLast name (name a) xs = some a := by
    rintro ⟨key, value⟩ hkv
    rw [List.mem_filter, decide_eq_true_iff] at hkv
    obtain ⟨n, rfl⟩ := eq_of_category hkv.2
    have hnow := ((mem_rangePrefix hrange).mp hkv.1).1
    rw [hunder] at hnow
    obtain ⟨a, hlast, rfl⟩ := Option.map_eq_some_iff.mp hnow
    obtain ⟨hmem, rfl⟩ := Keyed.key_of_lookupLast hlast
    exact ⟨a, hround a hmem, rfl, hlast⟩
  obtain ⟨as, has⟩ := TryFold.exists_results hread
  have hreads : Reads store.keyPrefix cat serde pairs as := has.imp fun _ _ h => h.1
  refine ⟨as, hreads, ⟨fun a => ?_⟩, ?_⟩
  · constructor
    · intro ha
      obtain ⟨kv, -, -, -, hlast⟩ := TryFold.exists_row has ha
      exact hlast
    · intro hlast
      have hpair : (store.resourceKey cat (name a), serde.toVec a) ∈ pairs := by
        rw [mem_rangePrefix hrange, hunder, hlast]
        exact ⟨rfl, base_isPrefix⟩
      exact (mem_of_reads hreads).mpr
        ⟨_, hpair, category_resourceKey hcat _, hround a (Keyed.key_of_lookupLast hlast).1⟩
  · have hkeys : (pairs.filter fun kv =>
        decide (category store.keyPrefix kv.1 = some cat)).map (·.1) =
          as.map fun a => store.resourceKey cat (name a) := by
      rw [← List.forall₂_eq_eq_eq, List.forall₂_map_left_iff, List.forall₂_map_right_iff]
      exact has.imp fun _ _ h => h.2.1
    have hsorted : ((pairs.filter fun kv =>
        decide (category store.keyPrefix kv.1 = some cat)).map (·.1)).Pairwise
          fun a b => compare (asBytes a) (asBytes b) = .lt :=
      List.pairwise_map.mpr ((rangePrefix_sorted hrange).filter _)
    rw [hkeys] at hsorted
    refine (List.pairwise_map.mp hsorted).imp fun h => ?_
    rwa [compare_resourceKey] at h

/-- The resources of `loaded` are those of `gw`, of each name the last. -/
structure Arrived (gw loaded : GatewayConfig) : Prop where
  routes : Delivered RouteConfig.name gw.routes loaded.routes
  policies : Delivered PolicyConfig.name gw.policies loaded.policies
  consumers : Delivered ConsumerConfig.name gw.consumers loaded.consumers

/-- **A load after a commit.** -/
theorem load_of_written {codec : Codec} {gw : GatewayConfig} {kvs : Content}
    (hround : codec.RoundTrips gw) (h : Underway store codec gw kvs now []) :
    ∃ loaded, store.loadAll codec now = .ok loaded ∧ Arrived gw loaded := by
  have hnow : ∀ cat n, now[asBytes (store.resourceKey cat n)]? =
      store.target codec gw (asBytes (store.resourceKey cat n)) := by
    intro cat n
    rw [getElem?_of_written h, if_pos base_isPrefix]
  obtain ⟨pairs, hrange⟩ : ∃ pairs, store.rangePrefix now = .ok pairs := by
    refine exists_rangePrefix fun key value hkey hbase => ?_
    rw [getElem?_of_written h, if_pos hbase] at hkey
    obtain ⟨kv, hlast, -⟩ := Option.map_eq_some_iff.mp hkey
    exact ⟨kv.1, (Keyed.key_of_lookupLast hlast).2.symm⟩
  obtain ⟨routes, hroutes, hroutes'⟩ := exists_delivered "routes" RouteConfig.name
    (by decide) hrange (fun n => by rw [hnow, target_resourceKey (by decide)]; simp) hround.route
  obtain ⟨policies, hpolicies, hpolicies'⟩ := exists_delivered "policies"
    PolicyConfig.name (by decide) hrange
    (fun n => by rw [hnow, target_resourceKey (by decide)]; simp) hround.policy
  obtain ⟨consumers, hconsumers, hconsumers'⟩ := exists_delivered "consumers"
    ConsumerConfig.name (by decide) hrange
    (fun n => by rw [hnow, target_resourceKey (by decide)]; simp) hround.consumer
  refine ⟨⟨routes, policies, consumers⟩, ?_, ⟨hroutes', hpolicies', hconsumers'⟩⟩
  exact loadAll_eq_ok.mpr
    ⟨pairs, hrange, gatewayFromKvs_eq_ok.mpr ⟨hroutes, hpolicies, hconsumers⟩⟩

end Load

/-! ## Applying what was loaded -/

section Apply

variable {σ : Type} {env : Env} {factory : PluginFactory σ} {gw loaded : GatewayConfig}
  {tables delivered : Tables σ}

/-- A route is bound to the same graph. -/
theorem Arrived.binds_iff (h : Arrived gw loaded) {route : RouteConfig} {graph : CompiledGraph σ} :
    loaded.Binds env factory route graph ↔ gw.Binds env factory route graph := by
  have hpolicy : loaded.policyAt route.policy = gw.policyAt route.policy :=
    h.policies.keepsLast.lookupLast route.policy
  rw [GatewayConfig.Binds, hpolicy]
  rfl

theorem Arrived.route_mem (h : Arrived gw loaded) {r : RouteConfig} (hr : r ∈ loaded.routes) :
    r ∈ gw.routes :=
  (Keyed.key_of_lookupLast ((h.routes.keepsLast.mem r).mp hr)).1

/-- What was accepted is accepted when it is loaded. -/
theorem Arrived.build (h : Arrived gw loaded) (hbuild : buildTables env factory gw = .ok tables) :
    ∃ delivered, buildTables env factory loaded = .ok delivered := by
  obtain ⟨-, hconsumers, hroutes⟩ := buildTables_eq_ok.mp hbuild
  have hperm : loaded.consumers.Perm gw.consumers :=
    h.consumers.keepsLast.perm (ConsumerStore.names_nodup hconsumers) h.consumers.nodup
  obtain ⟨store, hstore⟩ := ConsumerStore.fromConfig_ok_perm hperm.symm ⟨_, hconsumers⟩
  have hpolicies : ∀ p ∈ loaded.policies, ∃ graph, p.CompilesTo env factory graph := by
    intro p hp
    have hmem := (Keyed.key_of_lookupLast ((h.policies.keepsLast.mem p).mp hp)).1
    exact (compileRoutes_eq_ok.mp hroutes).1 p hmem
  have hbound : ∀ r ∈ loaded.routes, ∃ entry : RouteConfig × CompiledGraph σ,
      entry.1 = r ∧ loaded.Binds env factory r entry.2 := by
    intro r hr
    obtain ⟨graph, hentry⟩ := exists_entry hroutes (h.route_mem hr)
    exact ⟨(r, graph), rfl, h.binds_iff.mpr (binds_of_mem hroutes hentry).2⟩
  obtain ⟨table, htable⟩ := TryFold.exists_results hbound
  exact ⟨⟨loaded, store, table⟩,
    buildTables_eq_ok.mpr ⟨rfl, hstore, compileRoutes_eq_ok.mpr ⟨hpolicies, htable⟩⟩⟩

/-- With distinct route names, the two tables have the same entries. -/
theorem Arrived.mem_table (h : Arrived gw loaded) (hnames : (gw.routes.map (·.name)).Nodup)
    (hbuild : buildTables env factory gw = .ok tables)
    (hdelivered : buildTables env factory loaded = .ok delivered)
    {entry : RouteConfig × CompiledGraph σ} :
    entry ∈ delivered.routes ↔ entry ∈ tables.routes := by
  have hperm : loaded.routes.Perm gw.routes := h.routes.keepsLast.perm hnames h.routes.nodup
  rw [mem_table_iff (buildTables_eq_ok.mp hdelivered).2.2,
    mem_table_iff (buildTables_eq_ok.mp hbuild).2.2, hperm.mem_iff, h.binds_iff]

end Apply

/-! ## Which route is selected -/

section Select

variable [CaseMapping] {σ : Type} {env : Env} {factory : PluginFactory σ}
  {gw loaded : GatewayConfig} {tables delivered : Tables σ}

/-- `entry` matches the request, and no matching route of the table has a smaller name. -/
structure LeastMatch (table : RouteTable σ) (req : RequestHead)
    (entry : RouteConfig × CompiledGraph σ) : Prop where
  mem : entry ∈ table
  isMatch : matchesRoute entry.1.matchRule req = true
  least : ∀ e ∈ table, matchesRoute e.1.matchRule req = true → nameLE entry.1.name e.1.name = true

/-- The first match of a table in name order is the least. -/
theorem leastMatch_of_sorted {table : RouteTable σ} {req : RequestHead}
    (hsorted : table.Pairwise fun a b =>
      compare (asBytes a.1.name) (asBytes b.1.name) = .lt)
    {entry : RouteConfig × CompiledGraph σ} (h : selectRoute table req = some entry) :
    LeastMatch table req entry := by
  obtain ⟨hmatch, before, after, rfl, hbefore⟩ := List.find?_eq_some_iff_append.mp h
  refine ⟨by simp, hmatch, fun e he hematch => ?_⟩
  rcases List.mem_append.mp he with he | he
  · have hnot := hbefore e he
    rw [hematch] at hnot
    nomatch hnot
  · rcases List.mem_cons.mp he with rfl | he
    · rw [nameLE, Std.ReflOrd.compare_self]
      rfl
    · obtain ⟨-, hrest, -⟩ := List.pairwise_append.mp hsorted
      have hlt := (List.pairwise_cons.mp hrest).1 e he
      rw [nameLE, hlt]
      rfl

/-- With distinct names and one graph for a route there is one least match. -/
theorem LeastMatch.unique (hnames : (gw.routes.map (·.name)).Nodup)
    (hbuild : buildTables env factory gw = .ok tables) {req : RequestHead}
    {e e' : RouteConfig × CompiledGraph σ} (h : LeastMatch tables.routes req e)
    (h' : LeastMatch tables.routes req e') : e = e' := by
  have hroutes := (buildTables_eq_ok.mp hbuild).2.2
  obtain ⟨hmem, hbinds⟩ := binds_of_mem hroutes h.mem
  obtain ⟨hmem', hbinds'⟩ := binds_of_mem hroutes h'.mem
  have hle := h.least e' h'.mem h'.isMatch
  have hge := h'.least e h.mem h.isMatch
  have hname : e.1.name = e'.1.name := by
    rw [← asBytes_inj]
    cases hc : compare (asBytes e.1.name) (asBytes e'.1.name) with
    | eq => exact Std.LawfulEqCmp.eq_of_compare hc
    | lt =>
      rw [nameLE, Std.OrientedCmp.gt_of_lt hc] at hge
      nomatch hge
    | gt =>
      rw [nameLE, hc] at hle
      nomatch hle
  have hroute : e.1 = e'.1 := List.inj_on_of_nodup_map hnames hmem hmem' hname
  rw [← hroute] at hbinds'
  exact Prod.ext hroute (hbinds.unique hbinds')

/-- **The loaded config selects the least match.** -/
theorem Arrived.selects (h : Arrived gw loaded) (hnames : (gw.routes.map (·.name)).Nodup)
    (hbuild : buildTables env factory gw = .ok tables)
    (hdelivered : buildTables env factory loaded = .ok delivered) (req : RequestHead) :
    ((selectRoute delivered.routes req).isSome = (selectRoute tables.routes req).isSome) ∧
    ∀ entry, selectRoute delivered.routes req = some entry ↔
      LeastMatch tables.routes req entry := by
  have hmem : ∀ entry, entry ∈ delivered.routes ↔ entry ∈ tables.routes :=
    fun entry => h.mem_table hnames hbuild hdelivered
  have hsorted : delivered.routes.Pairwise fun a b =>
      compare (asBytes a.1.name) (asBytes b.1.name) = .lt := by
    have hroutes := h.routes.sorted
    rw [← routes_of_table (buildTables_eq_ok.mp hdelivered).2.2] at hroutes
    exact List.pairwise_map.mp hroutes
  have hleast : ∀ entry, selectRoute delivered.routes req = some entry →
      LeastMatch tables.routes req entry := by
    intro entry hselect
    obtain ⟨hin, hmatch, hle⟩ := leastMatch_of_sorted hsorted hselect
    exact ⟨(hmem entry).mp hin, hmatch, fun e he => hle e ((hmem e).mpr he)⟩
  have hsome : (selectRoute delivered.routes req).isSome = (selectRoute tables.routes req).isSome := by
    rw [Bool.eq_iff_iff, selectRoute, selectRoute, List.find?_isSome, List.find?_isSome]
    simp only [hmem]
  refine ⟨hsome, fun entry => ⟨hleast entry, fun hentry => ?_⟩⟩
  have hany : (selectRoute delivered.routes req).isSome := by
    rw [selectRoute, List.find?_isSome]
    exact ⟨entry, (hmem entry).mpr hentry.mem, hentry.isMatch⟩
  obtain ⟨e, he⟩ := Option.isSome_iff_exists.mp hany
  rw [he, (hleast e he).unique hnames hbuild hentry]

end Select

/-! ## A commit that succeeds -/

section Succeeds

variable {σ : Type} {env : Env} {factory : PluginFactory σ} {codec : Codec}
  {store : EtcdConfigStore} {gw : GatewayConfig} {kvs : Content} {live : Tables σ}

/-- The writes of a commit, when none fails. -/
theorem writes_run (live : Tables σ) (todo : List EtcdOp) :
    Relation.ReflTransGen (CommitStep env factory codec store) ⟨.writing gw todo, kvs, live⟩
      ⟨.writing gw [], EtcdOp.applyAll kvs todo, live⟩ := by
  induction todo generalizing kvs with
  | nil => exact .refl
  | cons op todo ih => exact .head .write ih

/-- A valid candidate is committed when no call fails. -/
theorem exists_commit (hvalid : validateGateway env factory gw = .ok ())
    (hrange : ∃ current, store.rangePrefix kvs = .ok current) :
    ∃ s, CommitRuns env factory codec store gw kvs live s ∧ s.pc = .returned (.ok ()) := by
  obtain ⟨current, hcurrent⟩ := hrange
  have hplan : store.Plans codec gw kvs ((store.puts codec gw).map (fun kv => .put kv.1 kv.2) ++
      (store.staleKeys codec gw current).map .delete) := ⟨current, _, hcurrent, .refl _, rfl⟩
  have hwritten := (((Relation.ReflTransGen.refl (r := CommitStep env factory codec store)).tail
    (.accept hvalid)).tail (.range hplan)).trans (writes_run live _)
  obtain ⟨tables, htables⟩ := validateGateway_eq_ok.mp hvalid
  refine ⟨_, (hwritten.tail .wrote).tail .apply, ?_⟩
  simp only [applyGateway, htables]
  rfl

/-- **Delivery through etcd.**  A valid config committed to an empty prefix can be loaded by any
    node, and applied.  It has the same consumers, and, where no two policies and no two routes
    share a name, the same policies and routes.  A request then selects some route iff it did
    before, and it selects the one with the least name among the declared routes that match,
    with the same graph. -/
theorem delivery_through_etcd [CaseMapping] (hvalid : validateGateway env factory gw = .ok ())
    (hround : codec.RoundTrips gw)
    (hempty : ∀ key, asBytes store.base <+: key → kvs[key]? = none) :
    (∃ s, CommitRuns env factory codec store gw kvs live s ∧ s.pc = .returned (.ok ())) ∧
    ∀ s, CommitRuns env factory codec store gw kvs live s → s.pc = .returned (.ok ()) →
      ∃ loaded delivered, store.loadAll codec s.kvs = .ok loaded ∧
        buildTables env factory loaded = .ok delivered ∧
        buildTables env factory gw = .ok s.live ∧
        loaded.consumers.Perm gw.consumers ∧
        ((gw.policies.map (·.name)).Nodup → loaded.policies.Perm gw.policies) ∧
        ((gw.routes.map (·.name)).Nodup → loaded.routes.Perm gw.routes ∧ ∀ req,
          (selectRoute delivered.routes req).isSome = (selectRoute s.live.routes req).isSome ∧
          ∀ entry, selectRoute delivered.routes req = some entry ↔
            LeastMatch s.live.routes req entry) := by
  have hrange : ∃ current, store.rangePrefix kvs = .ok current := by
    refine exists_rangePrefix fun key value hkey hbase => ?_
    rw [hempty key hbase] at hkey
    nomatch hkey
  refine ⟨exists_commit hvalid hrange, fun s hrun hpc => ?_⟩
  have hinv := commitInv_of_runs hrun
  rw [CommitInv, hpc] at hinv
  obtain ⟨hunder, hbuild⟩ := hinv
  obtain ⟨loaded, hload, harrived⟩ := load_of_written hround hunder
  obtain ⟨delivered, hdelivered⟩ := harrived.build hbuild
  have hconsumers := ConsumerStore.names_nodup (buildTables_eq_ok.mp hbuild).2.1
  refine ⟨loaded, delivered, hload, hdelivered, hbuild, ?_, fun hnames => ?_, fun hnames => ?_⟩
  · exact harrived.consumers.keepsLast.perm hconsumers harrived.consumers.nodup
  · exact harrived.policies.keepsLast.perm hnames harrived.policies.nodup
  · exact ⟨harrived.routes.keepsLast.perm hnames harrived.routes.nodup,
      harrived.selects hnames hbuild hdelivered⟩

end Succeeds

/-! ## Two routes that match alike -/

/-- Two routes that match every request, declared against the order of their names. -/
def twoRoutes : GatewayConfig where
  routes := [{ name := "b", matchRule := {}, policy := "p" },
    { name := "a", matchRule := {}, policy := "p" }]
  policies := [structuralPolicy none]

/-- A codec for their resources. -/
def twoRoutesCodec : Codec where
  route := .ofTexts [
    ({ name := "a", matchRule := {}, policy := "p" },
      "\x7b\"name\":\"a\",\"match\":\x7b\"path\":null,\"methods\":[],\"headers\":\x7b\x7d," ++
      "\"host\":null\x7d,\"policy\":\"p\"\x7d"),
    ({ name := "b", matchRule := {}, policy := "p" },
      "\x7b\"name\":\"b\",\"match\":\x7b\"path\":null,\"methods\":[],\"headers\":\x7b\x7d," ++
      "\"host\":null\x7d,\"policy\":\"p\"\x7d")]
  policy := .ofTexts [
    (structuralPolicy none,
      "\x7b\"name\":\"p\",\"error_handler\":null,\"nodes\":[" ++
      "\x7b\"id\":\"listener\",\"type\":\"listener\",\"config\":\x7b\x7d\x7d," ++
      "\x7b\"id\":\"client\",\"type\":\"client\",\"config\":\x7b\x7d\x7d]," ++
      "\"edges\":[\x7b\"from\":\"listener.out\",\"to\":\"client.in\"\x7d]\x7d")]
  consumer := .ofTexts []

theorem twoRoutes_roundTrips : twoRoutesCodec.RoundTrips twoRoutes where
  route r hr := Serde.ofTexts_roundTrips (by decide) (List.mem_reverse.mp hr)
  policy p hp := Serde.ofTexts_roundTrips (by decide) hp
  consumer c hc := nomatch hc

theorem twoRoutes_valid :
    validateGateway (fun _ => none) (createPlugin (σ := Unit) unknownTypes) twoRoutes = .ok () := by
  obtain ⟨graph, hgraph, -⟩ := structuralPolicy_compiles none (by decide)
  have hbound : ∀ r : RouteConfig, r.policy = "p" →
      twoRoutes.Binds (fun _ => none) (createPlugin (σ := Unit) unknownTypes) r graph :=
    fun r hr => ⟨structuralPolicy none, by rw [hr]; rfl, hgraph⟩
  have hpolicies : ∀ p ∈ twoRoutes.policies, ∃ graph, p.CompilesTo (fun _ => none)
      (createPlugin (σ := Unit) unknownTypes) graph := by
    intro p hp
    rw [List.mem_singleton.mp hp]
    exact ⟨graph, hgraph⟩
  refine validateGateway_eq_ok.mpr ⟨⟨twoRoutes, {}, twoRoutes.routes.map (·, graph)⟩, ?_⟩
  refine buildTables_eq_ok.mpr ⟨rfl, rfl, compileRoutes_eq_ok.mpr ⟨hpolicies, ?_⟩⟩
  exact .cons ⟨rfl, hbound _ rfl⟩ (.cons ⟨rfl, hbound _ rfl⟩ .nil)

/-- A commit of the two routes to an empty keyspace, and its load. -/
theorem delivery_through_etcd_twoRoutes :
    ∃ (s : CommitState Unit) (loaded : GatewayConfig),
      CommitRuns (fun _ => none) (createPlugin unknownTypes) twoRoutesCodec featherbitStore
        twoRoutes ∅ emptyTables s ∧
      featherbitStore.loadAll twoRoutesCodec s.kvs = .ok loaded ∧
      loaded.routes.Perm twoRoutes.routes := by
  let _ : CaseMapping := asciiCaseMapping
  obtain ⟨⟨s, hrun, hpc⟩, hall⟩ := @delivery_through_etcd _ _ _ _ featherbitStore _ ∅ emptyTables _
    twoRoutes_valid twoRoutes_roundTrips (by simp)
  obtain ⟨loaded, _, hload, -, -, -, -, hroutes⟩ := hall s hrun hpc
  exact ⟨s, loaded, hrun, hload, (hroutes (by decide)).1⟩

/-- The node that committed them selects `b`, and a node that loads them selects `a`. -/
theorem loaded_routes_select_by_name :
    ∃ (s : CommitState Unit) (loaded : GatewayConfig) (delivered : Tables Unit)
      (req : RequestHead),
      validateGateway (fun _ => none) (createPlugin (σ := Unit) unknownTypes) twoRoutes = .ok () ∧
      CommitRuns (fun _ => none) (createPlugin unknownTypes) twoRoutesCodec featherbitStore
        twoRoutes ∅ emptyTables s ∧
      s.pc = .returned (.ok ()) ∧
      featherbitStore.loadAll twoRoutesCodec s.kvs = .ok loaded ∧
      buildTables (fun _ => none) (createPlugin unknownTypes) loaded = .ok delivered ∧
      (@selectRoute asciiCaseMapping _ delivered.routes req).map (·.1) ≠
        (@selectRoute asciiCaseMapping _ s.live.routes req).map (·.1) := by
  let _ : CaseMapping := asciiCaseMapping
  obtain ⟨s, hrun, hpc⟩ := @exists_commit _ _ _ twoRoutesCodec featherbitStore _ ∅ emptyTables
    twoRoutes_valid ⟨[], rfl⟩
  have hinv := commitInv_of_runs hrun
  rw [CommitInv, hpc] at hinv
  obtain ⟨hunder, hbuild⟩ := hinv
  obtain ⟨loaded, hload, harrived⟩ := load_of_written twoRoutes_roundTrips hunder
  obtain ⟨delivered, hdelivered⟩ := harrived.build hbuild
  refine ⟨s, loaded, delivered, ⟨"/", "GET", [], ""⟩, twoRoutes_valid, hrun, hpc, hload, hdelivered,
    fun hsame => ?_⟩
  have htable := routes_of_table (buildTables_eq_ok.mp hbuild).2.2
  have hdeclared : (@selectRoute asciiCaseMapping _ s.live.routes ⟨"/", "GET", [], ""⟩).map (·.1) =
      some { name := "b", matchRule := {}, policy := "p" } := by
    rw [selectRoute_route, htable]
    rfl
  rw [hdeclared] at hsame
  obtain ⟨entry, hentry, hname⟩ := Option.map_eq_some_iff.mp hsame
  -- so `b` would be the least match, but `a` matches too
  have hleast := ((harrived.selects (by decide) hbuild hdelivered _).2 entry).mp hentry
  obtain ⟨other, hother, hother'⟩ : ∃ other ∈ s.live.routes,
      other.1 = { name := "a", matchRule := {}, policy := "p" } := by
    rw [← List.mem_map, htable]
    decide
  have hle := hleast.least other hother (by rw [hother']; rfl)
  rw [hname, hother'] at hle
  exact absurd hle (by decide)

end Featherbit
