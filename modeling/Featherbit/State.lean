/-
  THE LIVE TABLES (`state.rs`): the gateway config, the consumer store and the route table built
  from it, and the functions that build them.

  `compileRoutes` fills a map from policy name to graph by inserts, so a route is bound to the
  LAST policy of its policy's name (`policyAt`).  `compileRoutes_eq_ok` says when it succeeds and
  what it then returns; later modules use only that.
-/
import Featherbit.Lib.Keyed
import Featherbit.Consumers
import Featherbit.Routing
import Featherbit.Graph.Compiled

namespace Featherbit

/-- Why a config is rejected.  The source prints the second form as
    `Invalid policy '{name}': {errors:?}`; the list is kept as it is here. -/
inductive ConfigError where
  | text (message : String)
  | invalidPolicy (name : String) (errors : List String)
deriving DecidableEq

/-- The graph table of a gateway. -/
abbrev RouteTable (σ : Type) := List (RouteConfig × CompiledGraph σ)

/-- The three tables the data plane and the Admin API read. -/
structure Tables (σ : Type) where
  gateway : GatewayConfig
  consumers : ConsumerStore
  routes : RouteTable σ

namespace GatewayConfig

/-- The policy a name is bound to: the last one declared with it. -/
def policyAt (gateway : GatewayConfig) (name : String) : Option PolicyConfig :=
  Keyed.lookupLast (·.name) name gateway.policies

end GatewayConfig

/-- The tables of an empty gateway. -/
def emptyTables : Tables Unit := ⟨{}, {}, []⟩

section Compile

variable {σ : Type} (env : Env) (factory : PluginFactory σ)

/-- One policy: validated, compiled, and entered under its name. -/
def enterPolicy (policyMap : HashMap (CompiledGraph σ)) (policy : PolicyConfig) :
    Except ConfigError (HashMap (CompiledGraph σ)) :=
  match validatePolicy policy with
  | .error errors => .error (.invalidPolicy policy.name errors)
  | .ok () =>
    match compilePolicy env factory policy with
    | .error message => .error (.text message)
    | .ok compiled => .ok (policyMap.insert policy.name compiled)

/-- One route, bound to its policy's graph. -/
def bindRoute (policyMap : HashMap (CompiledGraph σ)) (route : RouteConfig) :
    Except ConfigError (RouteConfig × CompiledGraph σ) :=
  match policyMap[route.policy]? with
  | some graph => .ok (route, graph)
  | none =>
    .error (.text ("Route '" ++ route.name ++ "' references unknown policy '" ++ route.policy ++ "'"))

/-- `SharedState::compile_routes`. -/
def compileRoutes (gateway : GatewayConfig) : Except ConfigError (RouteTable σ) := do
  let policyMap ← gateway.policies.foldlM (enterPolicy env factory) ∅
  gateway.routes.mapM (bindRoute policyMap)

/-- `ConsumerStore::from_config`, with its error as a config error. -/
def buildConsumers (consumers : List ConsumerConfig) : Except ConfigError ConsumerStore :=
  match ConsumerStore.fromConfig consumers with
  | .ok store => .ok store
  | .error message => .error (.text message)

/-- The fallible work of `apply_gateway`, all done before any swap. -/
def buildTables (gateway : GatewayConfig) : Except ConfigError (Tables σ) := do
  let consumers ← buildConsumers gateway.consumers
  let routes ← compileRoutes env factory gateway
  pure { gateway := gateway, consumers := consumers, routes := routes }

/-- `SharedState::validate_gateway`. -/
def validateGateway (gateway : GatewayConfig) : Except ConfigError Unit := do
  let _ ← buildConsumers gateway.consumers
  let _ ← compileRoutes env factory gateway
  pure ()

/-- `SharedState::apply_gateway` as one caller sees it, with no other call in between. -/
def applyGateway (tables : Tables σ) (gateway : GatewayConfig) :
    Except ConfigError Unit × Tables σ :=
  match buildTables env factory gateway with
  | .ok built => (.ok (), built)
  | .error e => (.error e, tables)

end Compile

/-! ## What is built -/

section Built

variable {σ : Type} {env : Env} {factory : PluginFactory σ}

/-- The validator accepts the policy and it compiles to `graph`. -/
def PolicyConfig.CompilesTo (env : Env) (factory : PluginFactory σ) (p : PolicyConfig)
    (graph : CompiledGraph σ) : Prop :=
  validatePolicy p = .ok () ∧ compilePolicy env factory p = .ok graph

theorem enterPolicy_eq_ok {m m' : HashMap (CompiledGraph σ)} {p : PolicyConfig} :
    enterPolicy env factory m p = .ok m' ↔
      ∃ graph, p.CompilesTo env factory graph ∧ m' = m.insert p.name graph := by
  unfold enterPolicy PolicyConfig.CompilesTo
  cases hv : validatePolicy p with
  | error errors => simp
  | ok u =>
    cases hc : compilePolicy env factory p with
    | error message => simp
    | ok graph => simp [eq_comm]

/-- The policy loop: it succeeds iff every policy is accepted, and the map then holds under each
    name the graph of the last policy of that name.  Induction from the end of the list, since
    the last insert wins. -/
theorem enterPolicies_spec :
    ∀ {policies : List PolicyConfig},
      ((∃ m, policies.foldlM (enterPolicy env factory) ∅ = .ok m) ↔
        ∀ p ∈ policies, ∃ graph, p.CompilesTo env factory graph) ∧
      ∀ {m}, policies.foldlM (enterPolicy env factory) ∅ = .ok m → ∀ name graph,
        m[name]? = some graph ↔ ∃ p, Keyed.lookupLast (·.name) name policies = some p ∧
          p.CompilesTo env factory graph := by
  intro policies
  induction policies using List.reverseRecOn with
  | nil =>
    refine ⟨⟨fun _ => by simp, fun _ => ⟨∅, rfl⟩⟩, ?_⟩
    intro m h name graph
    obtain rfl := Except.ok.inj h
    simp [Keyed.lookupLast, Keyed.lookup]
  | append_singleton policies p ih =>
    obtain ⟨hok, hmap⟩ := ih
    constructor
    · constructor
      · rintro ⟨m, h⟩
        obtain ⟨m0, h0, hp⟩ := TryFold.foldlM_concat_eq_ok.mp h
        obtain ⟨graph, hgraph, -⟩ := enterPolicy_eq_ok.mp hp
        intro q hq
        rcases List.mem_append.mp hq with hq | hq
        · exact hok.mp ⟨m0, h0⟩ q hq
        · rw [List.mem_singleton.mp hq]
          exact ⟨graph, hgraph⟩
      · intro hall
        obtain ⟨m0, h0⟩ := hok.mpr fun q hq => hall q (List.mem_append_left _ hq)
        obtain ⟨graph, hgraph⟩ := hall p (by simp)
        exact ⟨_, TryFold.foldlM_concat_eq_ok.mpr ⟨m0, h0, enterPolicy_eq_ok.mpr ⟨graph, hgraph, rfl⟩⟩⟩
    · intro m h name graph
      obtain ⟨m0, h0, hp⟩ := TryFold.foldlM_concat_eq_ok.mp h
      obtain ⟨graph0, hgraph0, rfl⟩ := enterPolicy_eq_ok.mp hp
      rw [Keyed.lookupLast_concat, HashMap.get_insert]
      by_cases hname : p.name = name
      · simp only [hname, if_true, Option.some.injEq, exists_eq_left']
        exact ⟨fun h => h ▸ hgraph0, fun h => Except.ok.inj (hgraph0.2.symm.trans h.2)⟩
      · rw [if_neg fun h => hname h.symm, if_neg hname]
        exact hmap h0 name graph

/-- The graph a route is bound to. -/
def GatewayConfig.Binds (gateway : GatewayConfig) (env : Env) (factory : PluginFactory σ)
    (route : RouteConfig) (graph : CompiledGraph σ) : Prop :=
  ∃ p, gateway.policyAt route.policy = some p ∧ p.CompilesTo env factory graph

/-- **What `compile_routes` returns.**  It succeeds iff every policy is accepted and every route
    has a policy; the table then lists the routes as declared, each with the graph of the last
    policy of its policy's name. -/
theorem compileRoutes_eq_ok {gateway : GatewayConfig} {routes : RouteTable σ} :
    compileRoutes env factory gateway = .ok routes ↔
      (∀ p ∈ gateway.policies, ∃ graph, p.CompilesTo env factory graph) ∧
      List.Forall₂ (fun route entry => entry.1 = route ∧ gateway.Binds env factory route entry.2)
        gateway.routes routes := by
  obtain ⟨hok, hmap⟩ := @enterPolicies_spec σ env factory gateway.policies
  have hbind : ∀ {m route entry}, gateway.policies.foldlM (enterPolicy env factory) ∅ = .ok m →
      (bindRoute m route = .ok entry ↔
        entry.1 = route ∧ gateway.Binds env factory route entry.2) := by
    intro m route entry hm
    have hroute := hmap hm route.policy
    unfold bindRoute
    cases hg : m[route.policy]? with
    | none =>
      have hnone : ∀ graph, ¬ gateway.Binds env factory route graph := by
        intro graph hb
        rw [hg] at hroute
        nomatch (hroute graph).mpr hb
      simp [hnone]
    | some graph =>
      rw [hg] at hroute
      have hgraph : ∀ graph', gateway.Binds env factory route graph' ↔ graph = graph' := by
        intro graph'
        rw [← Option.some.injEq]
        exact (hroute graph').symm
      obtain ⟨route', graph'⟩ := entry
      simp [hgraph, eq_comm]
  have hdo : compileRoutes env factory gateway = .ok routes ↔
      ∃ m, gateway.policies.foldlM (enterPolicy env factory) ∅ = .ok m ∧
        gateway.routes.mapM (bindRoute m) = .ok routes := by
    unfold compileRoutes
    cases gateway.policies.foldlM (enterPolicy env factory) ∅ <;> simp [bind, Except.bind]
  rw [hdo, ← hok]
  constructor
  · rintro ⟨m, hm, hroutes⟩
    refine ⟨⟨m, hm⟩, ?_⟩
    exact (TryFold.mapM_eq_ok.mp hroutes).imp fun _ _ h => (hbind hm).mp h
  · rintro ⟨⟨m, hm⟩, hroutes⟩
    refine ⟨m, hm, TryFold.mapM_eq_ok.mpr ?_⟩
    exact hroutes.imp fun _ _ h => (hbind hm).mpr h

/-- Every entry of the table is a declared route with the graph it is bound to. -/
theorem binds_of_mem {gateway : GatewayConfig} {routes : RouteTable σ}
    (h : compileRoutes env factory gateway = .ok routes) {entry : RouteConfig × CompiledGraph σ}
    (hentry : entry ∈ routes) :
    entry.1 ∈ gateway.routes ∧ gateway.Binds env factory entry.1 entry.2 := by
  obtain ⟨route, hroute, rfl, hbinds⟩ := TryFold.exists_row (compileRoutes_eq_ok.mp h).2 hentry
  exact ⟨hroute, hbinds⟩

/-- Every declared route has its entry in the table. -/
theorem exists_entry {gateway : GatewayConfig} {routes : RouteTable σ}
    (h : compileRoutes env factory gateway = .ok routes) {route : RouteConfig}
    (hroute : route ∈ gateway.routes) : ∃ graph, (route, graph) ∈ routes := by
  obtain ⟨⟨route', graph⟩, hentry, rfl, -⟩ :=
    TryFold.exists_result (compileRoutes_eq_ok.mp h).2 hroute
  exact ⟨graph, hentry⟩

theorem GatewayConfig.Binds.unique {gateway : GatewayConfig} {route : RouteConfig}
    {graph graph' : CompiledGraph σ} (h : gateway.Binds env factory route graph)
    (h' : gateway.Binds env factory route graph') : graph = graph' := by
  obtain ⟨p, hp, -, hgraph⟩ := h
  obtain ⟨p', hp', -, hgraph'⟩ := h'
  obtain rfl : p = p' := Option.some.inj (hp.symm.trans hp')
  exact Except.ok.inj (hgraph.symm.trans hgraph')

/-- The entries of the table are the declared routes with their graphs. -/
theorem mem_table_iff {gateway : GatewayConfig} {routes : RouteTable σ}
    (h : compileRoutes env factory gateway = .ok routes) {entry : RouteConfig × CompiledGraph σ} :
    entry ∈ routes ↔ entry.1 ∈ gateway.routes ∧ gateway.Binds env factory entry.1 entry.2 := by
  constructor
  · exact binds_of_mem h
  · rintro ⟨hroute, hbinds⟩
    obtain ⟨graph, hmem⟩ := exists_entry h hroute
    have hgraph : graph = entry.2 := (binds_of_mem h hmem).2.unique hbinds
    rw [hgraph] at hmem
    exact hmem

/-- The table lists the routes as declared. -/
theorem routes_of_table {gateway : GatewayConfig} {routes : RouteTable σ}
    (h : compileRoutes env factory gateway = .ok routes) :
    routes.map (·.1) = gateway.routes := by
  rw [eq_comm, ← List.forall₂_eq_eq_eq, List.forall₂_map_right_iff]
  exact (compileRoutes_eq_ok.mp h).2.imp fun _ _ h => h.1.symm

/-- What `buildTables` has built. -/
theorem buildTables_eq_ok {gateway : GatewayConfig} {tables : Tables σ} :
    buildTables env factory gateway = .ok tables ↔
      tables.gateway = gateway ∧ ConsumerStore.fromConfig gateway.consumers = .ok tables.consumers ∧
        compileRoutes env factory gateway = .ok tables.routes := by
  unfold buildTables buildConsumers
  cases hc : ConsumerStore.fromConfig gateway.consumers with
  | error message => simp [bind, Except.bind]
  | ok store =>
    cases hr : compileRoutes env factory gateway with
    | error e => simp [bind, Except.bind]
    | ok routes =>
      obtain ⟨gateway', store', routes'⟩ := tables
      simp [bind, Except.bind, pure, Except.pure, eq_comm]

/-- Validation and the fallible work of an apply accept the same configs. -/
theorem validateGateway_eq_ok {gateway : GatewayConfig} :
    validateGateway env factory gateway = .ok () ↔
      ∃ tables, buildTables env factory gateway = .ok tables := by
  unfold validateGateway buildTables
  cases buildConsumers gateway.consumers with
  | error message => simp [bind, Except.bind]
  | ok store =>
    cases compileRoutes env factory gateway with
    | error e => simp [bind, Except.bind]
    | ok routes => simp [bind, Except.bind, pure, Except.pure]

end Built

/-! ## A policy of structural nodes -/

/-- A policy of structural nodes, with or without a catch-all. -/
def structuralPolicy (handler : Option String) : PolicyConfig where
  name := "p"
  errorHandler := handler
  nodes := [{ id := "listener", nodeType := "listener" }, { id := "client", nodeType := "client" }]
  edges := [{ «from» := "listener.out", «to» := "client.in" }]

/-- With a catch-all or without, the policy is accepted, and its graph shows which it was. -/
theorem structuralPolicy_compiles (handler : Option String)
    (hv : validatePolicy (structuralPolicy handler) = .ok ()) :
    ∃ graph, (structuralPolicy handler).CompilesTo (fun _ => none)
        (createPlugin (σ := Unit) unknownTypes) graph ∧ graph.catchAllHandler = handler := by
  obtain ⟨graph, hgraph⟩ : ∃ graph, compilePolicy (fun _ => none)
      (createPlugin (σ := Unit) unknownTypes) (structuralPolicy handler) = .ok graph := ⟨_, rfl⟩
  exact ⟨graph, ⟨hv, hgraph⟩, (compiled_of_compile hgraph).catchAll⟩

end Featherbit
