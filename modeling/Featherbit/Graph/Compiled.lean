/-
  WHAT A COMPILED GRAPH HOLDS, read off the policy.

  `compilePolicy` fills its tables by plain inserts, so a later node or edge replaces an earlier
  one with the same key: each table is "the last entry of the list with that key".  The
  definitions below say this on the policy alone (`nodeAt`, `successEdge`, `errorEdge`,
  `entryId`), `Compiled` ties a graph to them, and `compiled_of_compile` is the one lemma later
  modules use: none of them unfolds the compiler again.

  `WalkEdge` is the resulting directed graph on node ids (success edges except out of clients,
  error edges, and the catch-all jump), `Visits` the ids a walk can come to.
-/
import Featherbit.Lib.TryFold
import Featherbit.Graph.Engine

namespace Featherbit

namespace PolicyConfig

variable (p : PolicyConfig)

/-- The node entered under an id: the last one declared with it. -/
def nodeAt (id : String) : Option NodeConfig := p.nodes.reverse.find? fun n => n.id = id

/-- The listener whose edge starts the pipeline: the last one declared. -/
def listenerId : Option String :=
  (p.nodes.reverse.find? fun n => n.nodeType = "listener").map (·.id)

/-- A client node has this id. -/
def IsClient (id : String) : Prop := id ∈ p.idsOfType "client"

instance (id : String) : Decidable (p.IsClient id) :=
  inferInstanceAs (Decidable (id ∈ p.idsOfType "client"))

end PolicyConfig

/-- The outcome of a node that an edge leaves it on. -/
inductive Outcome where
  | success
  | error
deriving DecidableEq

/-- The outcome a source port stands for; `success` and `out` are one. -/
def portOutcome : String → Option Outcome
  | "success" | "out" => some .success
  | "error" => some .error
  | _ => none

namespace EdgeConfig

/-- The node id an edge leaves. -/
def source (e : EdgeConfig) : String := endpointNode e.from

/-- The node id an edge leads to. -/
def target (e : EdgeConfig) : String := endpointNode e.to

/-- The edge leaves `id` on this outcome. -/
def Leaves (e : EdgeConfig) (id : String) (o : Outcome) : Prop :=
  e.source = id ∧ portOutcome (endpointPort e.from) = some o

instance (e : EdgeConfig) (id : String) (o : Outcome) : Decidable (e.Leaves id o) :=
  inferInstanceAs (Decidable (_ ∧ _))

end EdgeConfig

namespace PolicyConfig

variable (p : PolicyConfig)

/-- The edge indexed for a node and an outcome: the last one declared. -/
def edgeAt (id : String) (o : Outcome) : Option EdgeConfig :=
  p.edges.reverse.find? fun e => e.Leaves id o

/-- The first node executed for a listener: the target of its success/out edge, else itself. -/
def entryOf (listener : String) : String :=
  ((p.edgeAt listener .success).map (·.target)).getD listener

end PolicyConfig

/-! ## The compiler's loops -/

section Loops

variable {σ : Type} {env : Env} {factory : PluginFactory σ}

/-- The plugin a node compiles to, when the factory accepts its config. -/
def NodeConfig.plugin (env : Env) (factory : PluginFactory σ) (n : NodeConfig) :
    Option (Plugin σ) :=
  (factory.create n.nodeType (interpolateConfig env n.config)).toOption

/-- A node has the plugin of its type. -/
theorem NodeConfig.plugin_typed {n : NodeConfig}
    {plugin : Plugin σ} (h : n.plugin env factory = some plugin) : plugin.pluginType = n.nodeType := by
  unfold NodeConfig.plugin at h
  cases hcreate : factory.create n.nodeType (interpolateConfig env n.config) with
  | error message =>
    rw [hcreate] at h
    cases h
  | ok built =>
    rw [hcreate] at h
    obtain rfl := Option.some.inj h
    exact factory.typed hcreate

theorem compileNode_ok {t t' : NodeTables σ} {n : NodeConfig}
    (h : compileNode env factory t n = .ok t') :
    ∃ plugin, n.plugin env factory = some plugin ∧
      t' = { nodes := t.nodes.insert n.id plugin
             listenerNodeId := if n.nodeType = "listener" then some n.id else t.listenerNodeId
             terminalNodeIds :=
               if n.nodeType = "client" then t.terminalNodeIds.insert n.id
               else t.terminalNodeIds } := by
  unfold compileNode at h
  cases hf : factory.create n.nodeType (interpolateConfig env n.config) with
  | error e => rw [hf] at h; nomatch h
  | ok plugin =>
    rw [hf] at h
    refine ⟨plugin, by simp only [NodeConfig.plugin, hf]; rfl, ?_⟩
    exact (Except.ok.inj h).symm

/-- The node loop: each table holds, at each id, what the last node with that id put there.
    Induction from the end of the list, since the last insert wins. -/
theorem compileNodes_spec :
    ∀ {nodes : List NodeConfig} {t : NodeTables σ},
      nodes.foldlM (compileNode env factory) {} = .ok t →
      (∀ n ∈ nodes, (n.plugin env factory).isSome) ∧
      (∀ id, t.nodes[id]? =
        (nodes.reverse.find? fun n => n.id = id).bind (NodeConfig.plugin env factory)) ∧
      t.listenerNodeId = (nodes.reverse.find? fun n => n.nodeType = "listener").map (·.id) ∧
      (∀ id, id ∈ t.terminalNodeIds ↔ ∃ n ∈ nodes, n.nodeType = "client" ∧ n.id = id) := by
  intro nodes
  induction nodes using List.reverseRecOn with
  | nil =>
    intro t h
    obtain rfl := Except.ok.inj h
    simp
  | append_singleton nodes n ih =>
    intro t h
    obtain ⟨t0, hl, hn⟩ := TryFold.foldlM_concat_eq_ok.mp h
    obtain ⟨hbuilt, hnodes, hlistener, hterm⟩ := ih hl
    obtain ⟨plugin, hplugin, rfl⟩ := compileNode_ok hn
    -- the last node is the first one to be found in the reversed list
    refine ⟨?_, ?_, ?_, ?_⟩
    · intro m hm
      rcases List.mem_append.mp hm with hm | hm
      · exact hbuilt m hm
      · rw [List.mem_singleton.mp hm, hplugin]; rfl
    · intro id
      simp only [List.reverse_append, List.reverse_cons, List.reverse_nil, List.nil_append,
        List.singleton_append, List.find?_cons, Std.ExtTreeMap.getElem?_insert]
      by_cases hid : n.id = id
      · simp [hid, hplugin]
      · simp [hid, hnodes id]
    · simp only [List.reverse_append, List.reverse_cons, List.reverse_nil, List.nil_append,
        List.singleton_append, List.find?_cons]
      by_cases ht : n.nodeType = "listener"
      · simp [ht]
      · simp [ht, hlistener]
    · intro id
      by_cases ht : n.nodeType = "client"
      · simp only [ht, if_true, Std.ExtTreeSet.mem_insert, hterm id, List.mem_append,
          List.mem_singleton, Std.compare_eq_iff_eq]
        constructor
        · rintro (rfl | ⟨m, hm, hmt, hmid⟩)
          · exact ⟨n, Or.inr rfl, ht, rfl⟩
          · exact ⟨m, Or.inl hm, hmt, hmid⟩
        · rintro ⟨m, hm | rfl, hmt, hmid⟩
          · exact Or.inr ⟨m, hm, hmt, hmid⟩
          · exact Or.inl hmid
      · simp only [ht, if_false, hterm id, List.mem_append, List.mem_singleton]
        constructor
        · rintro ⟨m, hm, hmt, hmid⟩
          exact ⟨m, Or.inl hm, hmt, hmid⟩
        · rintro ⟨m, hm | rfl, hmt, hmid⟩
          · exact ⟨m, hm, hmt, hmid⟩
          · exact absurd hmt ht

theorem indexEdge_ok {t t' : EdgeTables} {e : EdgeConfig} (h : indexEdge t e = .ok t') :
    (portOutcome (endpointPort e.from) = some .success ∧
      t' = { t with successEdges := t.successEdges.insert e.source e.target }) ∨
    (portOutcome (endpointPort e.from) = some .error ∧
      t' = { t with errorEdges := t.errorEdges.insert e.source e.target }) := by
  unfold indexEdge at h
  split at h
  · rename_i hp
    exact Or.inl ⟨by rw [hp]; rfl, (Except.ok.inj h).symm⟩
  · rename_i hp
    exact Or.inl ⟨by rw [hp]; rfl, (Except.ok.inj h).symm⟩
  · rename_i hp
    exact Or.inr ⟨by rw [hp]; rfl, (Except.ok.inj h).symm⟩
  · nomatch h

/-- The edge loop: each table holds, at each id, the target of the last edge leaving that id on
    the table's outcome. -/
theorem indexEdges_spec :
    ∀ {edges : List EdgeConfig} {t : EdgeTables}, edges.foldlM indexEdge {} = .ok t →
      (∀ e ∈ edges, (portOutcome (endpointPort e.from)).isSome) ∧
      (∀ id, t.successEdges[id]? =
        (edges.reverse.find? fun e => e.Leaves id .success).map (·.target)) ∧
      (∀ id, t.errorEdges[id]? =
        (edges.reverse.find? fun e => e.Leaves id .error).map (·.target)) := by
  intro edges
  induction edges using List.reverseRecOn with
  | nil =>
    intro t h
    obtain rfl := Except.ok.inj h
    simp
  | append_singleton edges e ih =>
    intro t h
    obtain ⟨t0, hl, he⟩ := TryFold.foldlM_concat_eq_ok.mp h
    obtain ⟨hports, hsucc, herr⟩ := ih hl
    have hmem : ∀ {P : EdgeConfig → Prop}, (∀ x ∈ edges, P x) → P e →
        ∀ x ∈ edges ++ [e], P x := by
      intro P h1 h2 x hx
      rcases List.mem_append.mp hx with hx | hx
      · exact h1 x hx
      · rw [List.mem_singleton.mp hx]; exact h2
    rcases indexEdge_ok he with ⟨hp, rfl⟩ | ⟨hp, rfl⟩
    · refine ⟨hmem hports (by rw [hp]; rfl), fun id => ?_, fun id => ?_⟩
      · by_cases hid : e.source = id
        · simp [EdgeConfig.Leaves, hp, hid]
        · simp [EdgeConfig.Leaves, hid, Std.ExtTreeMap.getElem?_insert, hsucc id]
      · simp [EdgeConfig.Leaves, hp, herr id]
    · refine ⟨hmem hports (by rw [hp]; rfl), fun id => ?_, fun id => ?_⟩
      · simp [EdgeConfig.Leaves, hp, hsucc id]
      · by_cases hid : e.source = id
        · simp [EdgeConfig.Leaves, hp, hid]
        · simp [EdgeConfig.Leaves, hid, Std.ExtTreeMap.getElem?_insert, herr id]

/-- Where every plugin can be built, the node loop ends well. -/
theorem compileNodes_total :
    ∀ {nodes : List NodeConfig} {t : NodeTables σ},
      (∀ n ∈ nodes, (n.plugin env factory).isSome) →
      ∃ t', nodes.foldlM (compileNode env factory) t = .ok t' := by
  intro nodes
  induction nodes with
  | nil => intro t _; exact ⟨t, rfl⟩
  | cons n nodes ih =>
    intro t hb
    have hn := hb n List.mem_cons_self
    cases hf : factory.create n.nodeType (interpolateConfig env n.config) with
    | error m => simp [NodeConfig.plugin, hf, Except.toOption] at hn
    | ok plugin =>
      obtain ⟨t', ht'⟩ := ih fun m hm => hb m (List.mem_cons_of_mem n hm)
      refine ⟨t', ?_⟩
      rw [List.foldlM_cons]
      unfold compileNode
      rw [hf]
      exact ht'

/-- Where every source port is known, the edge loop ends well. -/
theorem indexEdges_total :
    ∀ {edges : List EdgeConfig} {t : EdgeTables},
      (∀ e ∈ edges, (portOutcome (endpointPort e.from)).isSome) →
      ∃ t', edges.foldlM indexEdge t = .ok t' := by
  intro edges
  induction edges with
  | nil => intro t _; exact ⟨t, rfl⟩
  | cons e edges ih =>
    intro t hp
    have he : ∃ t1, indexEdge t e = .ok t1 := by
      have h := hp e List.mem_cons_self
      unfold indexEdge
      unfold portOutcome at h
      split
      · exact ⟨_, rfl⟩
      · exact ⟨_, rfl⟩
      · exact ⟨_, rfl⟩
      · split at h <;> simp_all
    obtain ⟨t1, ht1⟩ := he
    obtain ⟨t', ht'⟩ := ih (t := t1) fun x hx => hp x (List.mem_cons_of_mem e hx)
    exact ⟨t', by rw [List.foldlM_cons, ht1]; exact ht'⟩

end Loops

/-! ## The compiled graph -/

section Compiled

variable {σ : Type}

/-- The graph `g` holds what the policy `p` declares. -/
structure Compiled (env : Env) (factory : PluginFactory σ) (p : PolicyConfig)
    (g : CompiledGraph σ) : Prop where
  /-- every node's plugin was built -/
  built : ∀ n ∈ p.nodes, (n.plugin env factory).isSome
  /-- every edge leaves a known port -/
  ports : ∀ e ∈ p.edges, (portOutcome (endpointPort e.from)).isSome
  nodes : ∀ id, g.nodes[id]? = (p.nodeAt id).bind (NodeConfig.plugin env factory)
  success : ∀ id, g.successEdges[id]? = (p.edgeAt id .success).map (·.target)
  error : ∀ id, g.errorEdges[id]? = (p.edgeAt id .error).map (·.target)
  terminal : ∀ id, g.terminalNodeIds.contains id = decide (p.IsClient id)
  entry : ∃ l, p.listenerId = some l ∧ g.entryNodeId = p.entryOf l
  catchAll : g.catchAllHandler = p.errorHandler

/-- The walk begins behind the listener. -/
theorem Compiled.entry_of_listener {env : Env} {factory : PluginFactory σ} {p : PolicyConfig}
    {g : CompiledGraph σ} (h : Compiled env factory p g) {l : String} (hl : p.listenerId = some l) :
    g.entryNodeId = p.entryOf l := by
  obtain ⟨l', hl', hentry⟩ := h.entry
  rw [hentry, Option.some.inj (hl.symm.trans hl')]

theorem compiled_of_compile {env : Env} {factory : PluginFactory σ} {p : PolicyConfig}
    {g : CompiledGraph σ} (h : compilePolicy env factory p = .ok g) : Compiled env factory p g := by
  unfold compilePolicy at h
  cases hn : p.nodes.foldlM (compileNode env factory) {} with
  | error m => rw [hn] at h; nomatch h
  | ok t =>
    rw [hn] at h
    obtain ⟨hbuilt, hnodes, hlistener, hterm⟩ := compileNodes_spec hn
    cases hl : t.listenerNodeId with
    | none => simp [hl, bind, Except.bind] at h
    | some l =>
      cases he : p.edges.foldlM indexEdge {} with
      | error m => simp [hl, he, bind, Except.bind] at h
      | ok e =>
        obtain ⟨hports, hsucc, herr⟩ := indexEdges_spec he
        simp only [hl, he, bind, Except.bind, pure, Except.pure, Except.ok.injEq] at h
        subst h
        refine ⟨hbuilt, hports, hnodes, hsucc, herr, fun id => ?_, ⟨l, ?_, ?_⟩, rfl⟩
        · rw [Bool.eq_iff_iff, Std.ExtTreeSet.contains_iff_mem, hterm id, decide_eq_true_iff]
          simp [PolicyConfig.IsClient, PolicyConfig.idsOfType, and_assoc]
        · rw [← hl, hlistener]; rfl
        · show e.successEdges[l]?.getD l = p.entryOf l
          rw [hsucc l]; rfl

/-- Whether a policy compiles is decided by its plugins, its listener and its ports: where every
    plugin can be built and some graph was compiled, a graph is compiled. -/
theorem compiles_of_compiled {τ : Type} {env env' : Env} {factory : PluginFactory σ}
    {factory' : PluginFactory τ} {p : PolicyConfig} {g : CompiledGraph σ}
    (hg : Compiled env factory p g) (hb : ∀ n ∈ p.nodes, (n.plugin env' factory').isSome) :
    ∃ g', compilePolicy env' factory' p = .ok g' := by
  obtain ⟨t, ht⟩ := compileNodes_total (t := {}) hb
  obtain ⟨e, he⟩ := indexEdges_total (t := {}) hg.ports
  obtain ⟨l, hl, -⟩ := hg.entry
  have htl : t.listenerNodeId = some l := (compileNodes_spec ht).2.2.1.trans hl
  exact ⟨_, by simp only [compilePolicy, ht, he, htl, bind, Except.bind, pure, Except.pure]; rfl⟩

end Compiled

end Featherbit
