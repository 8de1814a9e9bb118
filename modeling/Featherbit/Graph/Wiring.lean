/-
  DOES THE COMPILED GRAPH KEEP THE DECLARED ONE?

  The compiler fills its maps by plain inserts, `success` and `out` share one of them, and the
  loop never leaves a client by a success edge.  What is kept is therefore said per node with an
  id of its own (`wiring_kept`): its entry is its own plugin, of its own type; and a declared edge
  is followed on its outcome, exactly to its target, when the edges that leave the node on that
  outcome do not contradict each other.  A client's success ends the walk whatever edges it has.
-/
import Featherbit.Graph.WalkGraph

namespace Featherbit

/-- The outcome of a plugin execution. -/
def PluginResult.outcome : PluginResult → Outcome
  | .ok _ => .success
  | .error _ => .error

/-- Where an iteration of the loop went: the next node id, or out of the loop. -/
def wentTo {σ : Type} : LoopState σ ⊕ LoopExit σ → Option String
  | .inl s => some s.currentNodeId
  | .inr _ => none

/-- After node `id` ends with outcome `o` the walk goes to `dest`; with `none` it ends. -/
def CompiledGraph.GoesTo [CaseMapping] {σ : Type} (g : CompiledGraph σ) (id : String) (o : Outcome)
    (dest : Option String) : Prop :=
  ∀ (s : LoopState σ) (node : Plugin σ), s.currentNodeId = id → g.nodes[id]? = some node →
    PluginResult.outcome (node.execute s.ctx ∅ s.world).1 = o → wentTo (g.iteration s) = dest

/-- The graph holds a node of its own type for every declared node, and the walk follows every
    declared edge on its outcome. -/
def KeepsWiring [CaseMapping] {σ : Type} (p : PolicyConfig) (g : CompiledGraph σ) : Prop :=
  (∀ n ∈ p.nodes, ∃ plugin, g.nodes[n.id]? = some plugin ∧ plugin.pluginType = n.nodeType) ∧
  (∀ e ∈ p.edges, ∃ o, e.Leaves e.source o ∧ g.GoesTo e.source o (some e.target))

section Kept

variable {σ : Type} {env : Env} {factory : PluginFactory σ} {p : PolicyConfig}
  {g : CompiledGraph σ}

/-- The loop goes where the policy's `next` says. -/
theorem goesTo_next [CaseMapping] (hg : Compiled env factory p g) (id : String) (o : Outcome) :
    g.GoesTo id o (p.next id o) := by
  rintro s node rfl hnode ho
  have hwent : ∀ {v w}, g.visit s.currentNodeId s.ctx s.world = (v, w) →
      wentTo (g.iteration s) = v.next := by
    intro v w hv
    cases hn : v.next with
    | none => rw [CompiledGraph.iteration_of_end hv hn]; rfl
    | some next => rw [CompiledGraph.iteration_of_next hv hn]; rfl
  rcases g.visit_cases s.currentNodeId s.ctx s.world with
    ⟨h, -⟩ | ⟨node', output, w, h, hexec, hv⟩ | ⟨node', err, w, h, hexec, hv⟩
  · rw [hnode] at h
    nomatch h
  · obtain rfl := Option.some.inj (hnode.symm.trans h)
    rw [hexec] at ho
    obtain rfl : Outcome.success = o := ho
    exact (hwent hv).trans (hg.nextOnSuccess s.currentNodeId)
  · obtain rfl := Option.some.inj (hnode.symm.trans h)
    rw [hexec] at ho
    obtain rfl : Outcome.error = o := ho
    exact (hwent hv).trans (hg.nextOnError s.currentNodeId)

/-- Two declared nodes with an id that is declared once are one. -/
theorem PolicyConfig.eq_of_id_eq {n m : NodeConfig} (huniq : p.nodeIds.count n.id = 1)
    (hn : n ∈ p.nodes) (hm : m ∈ p.nodes) (hid : m.id = n.id) : m = n := by
  have hlen : (p.nodes.filter fun x => x.id = n.id).length = 1 := by
    rw [← huniq, nodeIds, List.count_eq_countP, List.countP_map, List.countP_eq_length_filter]
    rfl
  obtain ⟨x, hx⟩ := List.length_eq_one_iff.mp hlen
  have hn' : n ∈ p.nodes.filter fun x => x.id = n.id := by simp [hn]
  have hm' : m ∈ p.nodes.filter fun x => x.id = n.id := by simp [hm, hid]
  rw [hx, List.mem_singleton] at hn' hm'
  exact hm'.trans hn'.symm

/-- A node with an id of its own is the one entered under it. -/
theorem PolicyConfig.nodeAt_of_unique {n : NodeConfig} (huniq : p.nodeIds.count n.id = 1)
    (hn : n ∈ p.nodes) : p.nodeAt n.id = some n := by
  obtain ⟨m, hm⟩ := Option.isSome_iff_exists.mp
    ((nodeAt_isSome n.id).mpr (List.mem_map_of_mem hn))
  obtain ⟨hmem, hid⟩ := mem_of_nodeAt hm
  rw [hm, eq_of_id_eq huniq hn hmem hid]

theorem PolicyConfig.isClient_iff_of_unique {n : NodeConfig} (huniq : p.nodeIds.count n.id = 1)
    (hn : n ∈ p.nodes) : p.IsClient n.id ↔ n.nodeType = "client" := by
  constructor
  · intro h
    obtain ⟨m, hm, hid⟩ := List.mem_map.mp h
    obtain ⟨hmem, htype⟩ := List.mem_filter.mp hm
    rw [← eq_of_id_eq huniq hn hmem hid]
    exact of_decide_eq_true htype
  · intro h
    exact List.mem_map_of_mem (List.mem_filter.mpr ⟨hn, decide_eq_true h⟩)

/-- The edge indexed for a node and an outcome leads where all edges leaving it so lead. -/
theorem PolicyConfig.edgeAt_target {e : EdgeConfig} {id : String} {o : Outcome} (he : e ∈ p.edges)
    (hl : e.Leaves id o) (hagree : ∀ e' ∈ p.edges, e'.Leaves id o → e'.target = e.target) :
    (p.edgeAt id o).map (·.target) = some e.target := by
  cases h : p.edgeAt id o with
  | none =>
    have hnot := List.find?_eq_none.mp h e (List.mem_reverse.mpr he)
    exact absurd (decide_eq_true hl) hnot
  | some e' =>
    obtain ⟨hmem, hl'⟩ := edgeAt_eq_some h
    exact congrArg some (hagree e' hmem hl')

/-- **What the compiler keeps.**  A node with an id of its own has its own plugin under it.  An
    edge leaving it is followed on its outcome to its target, unless another edge leaving it on
    that outcome leads elsewhere; only a client's success ends the walk in spite of its edges. -/
theorem wiring_kept [CaseMapping] (hg : compilePolicy env factory p = .ok g) {n : NodeConfig}
    (hn : n ∈ p.nodes) (huniq : p.nodeIds.count n.id = 1) :
    (∃ plugin, factory.create n.nodeType (interpolateConfig env n.config) = .ok plugin ∧
      g.nodes[n.id]? = some plugin ∧ plugin.pluginType = n.nodeType) ∧
    ∀ e ∈ p.edges, e.source = n.id → ∃ o, e.Leaves n.id o ∧
      ((∀ e' ∈ p.edges, e'.Leaves n.id o → e'.target = e.target) →
        g.GoesTo n.id o
          (if o = .success ∧ n.nodeType = "client" then none else some e.target)) := by
  have hcomp := compiled_of_compile hg
  constructor
  · have hbuilt := hcomp.built n hn
    have hnode := hcomp.nodes n.id
    rw [PolicyConfig.nodeAt_of_unique huniq hn] at hnode
    cases hf : factory.create n.nodeType (interpolateConfig env n.config) with
    | error m => simp [NodeConfig.plugin, hf, Except.toOption] at hbuilt
    | ok plugin =>
      refine ⟨plugin, rfl, ?_, factory.typed hf⟩
      rw [hnode]
      simp [NodeConfig.plugin, hf, Except.toOption]
  · intro e he hsource
    obtain ⟨o, ho⟩ := Option.isSome_iff_exists.mp (hcomp.ports e he)
    have hl : e.Leaves n.id o := ⟨hsource, ho⟩
    refine ⟨o, hl, fun hagree => ?_⟩
    have htarget := PolicyConfig.edgeAt_target he hl hagree
    have hgoes := goesTo_next hcomp n.id o
    have hclient := PolicyConfig.isClient_iff_of_unique huniq hn
    cases o with
    | success =>
      by_cases hc : n.nodeType = "client"
      · simpa [PolicyConfig.next, hclient, hc] using hgoes
      · simpa [PolicyConfig.next, hclient, hc, htarget] using hgoes
    | error =>
      simpa [PolicyConfig.next, htarget] using hgoes

/-- A node that can end with the outcome of one of its edges, and then goes elsewhere. -/
theorem not_keeps_of_edge [CaseMapping] (hg : Compiled env factory p g) (e : EdgeConfig)
    (o : Outcome) (node : Plugin σ) (ctx : Context) (w : σ) (he : e ∈ p.edges)
    (ho : portOutcome (endpointPort e.from) = some o) (hnode : g.nodes[e.source]? = some node)
    (hrun : PluginResult.outcome (node.execute ctx ∅ w).1 = o)
    (hne : p.next e.source o ≠ some e.target) : ¬ KeepsWiring p g := by
  rintro ⟨-, hedges⟩
  obtain ⟨o', ⟨-, ho'⟩, hgoes⟩ := hedges e he
  obtain rfl : o = o' := Option.some.inj (ho.symm.trans ho')
  let s : LoopState σ := { ctx := ctx, recorder := none, currentNodeId := e.source, world := w }
  have h1 := hgoes s node rfl hnode hrun
  have h2 := goesTo_next hg e.source o s node rfl hnode hrun
  exact hne (h2.symm.trans h1)

end Kept

/-! ## Where the declared graph is not kept -/

/-- An accepted policy of structural nodes that compiles to a graph without its wiring. -/
def LosesWiring (p : PolicyConfig) : Prop :=
  validatePolicy p = .ok () ∧
    ∃ g : CompiledGraph Unit,
      compilePolicy (fun _ => none) (createPlugin unknownTypes) p = .ok g ∧
        ∀ _ : CaseMapping, ¬ KeepsWiring p g

/-- A client with a success edge. -/
def clientContinues : PolicyConfig where
  name := "client-continues"
  nodes :=
    [{ id := "listener", nodeType := "listener" }, { id := "client", nodeType := "client" },
      { id := "other", nodeType := "client" }]
  edges :=
    [{ «from» := "listener.out", «to» := "client.in" },
      { «from» := "client.out", «to» := "other.in" }]

/-- Two nodes of one id. -/
def declaredTwice : PolicyConfig where
  name := "declared-twice"
  nodes :=
    [{ id := "listener", nodeType := "listener" }, { id := "client", nodeType := "client" },
      { id := "client", nodeType := "listener" }]
  edges := [{ «from» := "listener.out", «to» := "client.in" }]

/-- Two edges that leave the listener on its success, under the two names of the port. -/
def aliasedPorts : PolicyConfig where
  name := "aliased-ports"
  nodes :=
    [{ id := "listener", nodeType := "listener" }, { id := "client", nodeType := "client" },
      { id := "other", nodeType := "client" }]
  edges :=
    [{ «from» := "listener.out", «to» := "client.in" },
      { «from» := "listener.success", «to» := "other.in" }]

/-- The listener of `clientContinues` keeps its plugin and its edge. -/
theorem wiring_kept_clientContinues :
    ∃ g : CompiledGraph Unit,
      compilePolicy (fun _ => none) (createPlugin unknownTypes) clientContinues = .ok g ∧
      (∃ plugin, g.nodes["listener"]? = some plugin ∧ plugin.pluginType = "listener") ∧
      ∀ _ : CaseMapping, g.GoesTo "listener" .success (some "client") := by
  obtain ⟨g, hg⟩ : ∃ g, compilePolicy (fun _ => none) (createPlugin (σ := Unit) unknownTypes)
      clientContinues = .ok g := ⟨_, rfl⟩
  have hkept := fun cm : CaseMapping =>
    @wiring_kept Unit _ _ _ _ cm hg { id := "listener", nodeType := "listener" } (by decide)
      (by decide)
  obtain ⟨plugin, -, hnode, htype⟩ := (hkept asciiCaseMapping).1
  refine ⟨g, hg, ⟨plugin, hnode, htype⟩, fun cm => ?_⟩
  obtain ⟨o, hl, hgoes⟩ :=
    (hkept cm).2 { «from» := "listener.out", «to» := "client.in" } (by decide) (by decide)
  obtain rfl : Outcome.success = o := Option.some.inj (Eq.trans (by decide) hl.2)
  exact hgoes (by decide)

theorem wiring_not_kept :
    LosesWiring clientContinues ∧ LosesWiring declaredTwice ∧ LosesWiring aliasedPorts := by
  refine ⟨⟨by decide, ?_⟩, ⟨by decide, ?_⟩, ⟨by decide, ?_⟩⟩
  · obtain ⟨g, hg⟩ : ∃ g, compilePolicy (fun _ => none) (createPlugin (σ := Unit) unknownTypes)
        clientContinues = .ok g := ⟨_, rfl⟩
    have hcomp := compiled_of_compile hg
    refine ⟨g, hg, fun _ => ?_⟩
    exact not_keeps_of_edge hcomp { «from» := "client.out", «to» := "other.in" } .success
      clientPlugin (Context.new default) () (by decide) (by decide) (hcomp.nodes "client") rfl
      (by decide)
  · obtain ⟨g, hg⟩ : ∃ g, compilePolicy (fun _ => none) (createPlugin (σ := Unit) unknownTypes)
        declaredTwice = .ok g := ⟨_, rfl⟩
    have hcomp := compiled_of_compile hg
    refine ⟨g, hg, fun _ => ?_⟩
    rintro ⟨hnodes, -⟩
    obtain ⟨plugin, hplugin, htype⟩ := hnodes { id := "client", nodeType := "client" } (by decide)
    have hlast : some listenerPlugin = some plugin := (hcomp.nodes "client").symm.trans hplugin
    rw [← Option.some.inj hlast] at htype
    exact absurd htype (by decide)
  · obtain ⟨g, hg⟩ : ∃ g, compilePolicy (fun _ => none) (createPlugin (σ := Unit) unknownTypes)
        aliasedPorts = .ok g := ⟨_, rfl⟩
    have hcomp := compiled_of_compile hg
    refine ⟨g, hg, fun _ => ?_⟩
    exact not_keeps_of_edge hcomp { «from» := "listener.out", «to» := "client.in" } .success
      listenerPlugin (Context.new default) () (by decide) (by decide) (hcomp.nodes "listener") rfl
      (by decide)

end Featherbit
