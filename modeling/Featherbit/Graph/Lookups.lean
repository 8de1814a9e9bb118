/-
  DOES THE WALK FIND EVERY NODE IT LOOKS UP?

  The validator checks that edges reference declared nodes, reading an endpoint up to its FIRST
  dot; the compiler indexes the edge under the text up to its LAST dot.  For an endpoint with two
  dots the two disagree, and the id the walk goes to is one the validator never looked at.

  `walks_find_nodes_iff` says exactly when this matters: an accepted policy never reaches the
  engine's `NODE_NOT_FOUND` branch iff every edge a walk can take names a declared node before
  its last dot.  The catch-all and the listener fallback are covered by the validator.
-/
import Featherbit.Graph.WalkGraph

namespace Featherbit

open Relation

namespace PolicyConfig

variable (p : PolicyConfig)

/-- Whatever the plugins do, every node id a walk of `p` looks up is a key of `nodes`. -/
def WalksFindNodes : Prop :=
  ∀ (_ : CaseMapping) (σ : Type) (env : Env) (factory : PluginFactory σ) (g : CompiledGraph σ),
    compilePolicy env factory p = .ok g →
    ∀ (ctx : Context) (recorder : Option TraceRecorder) (w : σ) (s : LoopState σ),
      Loop.Heads g.iteration (g.start ctx recorder w) s → s.currentNodeId ∈ g.nodes

/-- A walk can take the edge `e`: it is the edge indexed for the listener that starts the
    pipeline, or for a declared node the walk visits and an outcome on which it goes on. -/
def Walkable (e : EdgeConfig) : Prop :=
  (∃ l, p.listenerId = some l ∧ p.edgeAt l .success = some e) ∨
  (p.Visits e.source ∧ e.source ∈ p.nodeIds ∧
    (p.edgeAt e.source .error = some e ∨
      (p.edgeAt e.source .success = some e ∧ ¬ p.IsClient e.source)))

/-- Every edge a walk can take names a declared node before its last dot. -/
def EdgesResolve : Prop := ∀ e ∈ p.edges, p.Walkable e → e.target ∈ p.nodeIds

variable {p}

/-- The id a walk edge leads to is the target of a walkable edge, or the catch-all. -/
theorem walkable_of_walkEdge {a b : String} (ha : p.Visits a) (h : p.WalkEdge a b) :
    (∃ e ∈ p.edges, p.Walkable e ∧ e.target = b) ∨ p.errorHandler = some b := by
  obtain ⟨hmem, o, hnext⟩ := h
  cases o with
  | success =>
    by_cases hc : p.IsClient a
    · simp [next, hc] at hnext
    · simp only [next, if_neg hc] at hnext
      obtain ⟨e, he, rfl⟩ := Option.map_eq_some_iff.mp hnext
      obtain ⟨hedge, rfl, -⟩ := edgeAt_eq_some he
      exact Or.inl ⟨e, hedge, Or.inr ⟨ha, hmem, Or.inr ⟨he, hc⟩⟩, rfl⟩
  | error =>
    rcases Option.or_eq_some_iff.mp hnext with h1 | ⟨-, h2⟩
    · obtain ⟨e, he, rfl⟩ := Option.map_eq_some_iff.mp h1
      obtain ⟨hedge, rfl, -⟩ := edgeAt_eq_some he
      exact Or.inl ⟨e, hedge, Or.inr ⟨ha, hmem, Or.inl he⟩, rfl⟩
    · exact Or.inr h2

/-- A walk that can take an edge visits its target. -/
theorem visits_target {e : EdgeConfig} (h : p.Walkable e) : p.Visits e.target := by
  rcases h with ⟨l, hl, he⟩ | ⟨⟨l, hl, hwalk⟩, hmem, hnext⟩
  · refine ⟨l, hl, ?_⟩
    have hentry : p.entryOf l = e.target := by simp [entryOf, he]
    rw [hentry]
  · refine ⟨l, hl, hwalk.tail ⟨hmem, ?_⟩⟩
    rcases hnext with he | ⟨he, hc⟩
    · exact ⟨.error, by simp [next, he]⟩
    · exact ⟨.success, by simp [next, he, hc]⟩

/-- The listener that starts the pipeline is a declared node. -/
theorem listenerId_mem {l : String} (hl : p.listenerId = some l) : l ∈ p.nodeIds := by
  obtain ⟨n, hn, rfl⟩ := Option.map_eq_some_iff.mp hl
  exact List.mem_map_of_mem (List.mem_reverse.mp (List.mem_of_find?_eq_some hn))

/-- Where the walkable edges resolve, everything visited is declared: the listener fallback and
    the catch-all always are. -/
theorem visits_mem (hv : Accepted p) (hres : p.EdgesResolve) {id : String} (hid : p.Visits id) :
    id ∈ p.nodeIds := by
  obtain ⟨l, hl, hwalk⟩ := hid
  cases hwalk with
  | refl =>
    cases he : p.edgeAt l .success with
    | none =>
      have hentry : p.entryOf l = l := by simp [entryOf, he]
      rw [hentry]
      exact listenerId_mem hl
    | some e =>
      have hentry : p.entryOf l = e.target := by simp [entryOf, he]
      rw [hentry]
      exact hres e (edgeAt_eq_some he).1 (Or.inl ⟨l, hl, he⟩)
  | tail hwalk hstep =>
    rcases walkable_of_walkEdge ⟨l, hl, hwalk⟩ hstep with ⟨e, hedge, he, rfl⟩ | hcatch
    · exact hres e hedge he
    · exact hv.handler _ hcatch

/-- Endpoints that both readings agree on always resolve in an accepted policy. -/
theorem edgesResolve_of_agree (hv : Accepted p)
    (h : ∀ e ∈ p.edges, endpointNode e.to = validatedNode e.to) : p.EdgesResolve := by
  intro e he _
  show endpointNode e.to ∈ p.nodeIds
  rw [h e he]
  exact hv.target e he

end PolicyConfig

/-- **When the walk finds its nodes.**  For an accepted policy that compiles, no behaviour of the
    plugins makes the walk look up an unknown id iff every walkable edge resolves. -/
theorem walks_find_nodes_iff {p : PolicyConfig} (hv : validatePolicy p = .ok ())
    (hc : p.Compiles) : p.WalksFindNodes ↔ p.EdgesResolve := by
  constructor
  · -- a walkable edge is taken for some outcomes, and then its target is looked up
    intro hfind e _ he
    obtain ⟨g, hg⟩ := outcomeFactory_compiles hc
    have hcomp := compiled_of_compile hg
    let _ : CaseMapping := asciiCaseMapping
    let ctx := Context.new default
    obtain ⟨w, s, hheads, hs⟩ := visits_heads hcomp (PolicyConfig.visits_target he) ctx none
    have hmem := hfind _ _ _ _ g hg ctx none w s hheads
    rwa [hs, hcomp.mem_nodes] at hmem
  · intro hres _ σ env factory g hg ctx recorder w s hheads
    have hcomp := compiled_of_compile hg
    rw [hcomp.mem_nodes]
    exact PolicyConfig.visits_mem (accepted_of_validate hv) hres (heads_visits hcomp hheads)

/-- A policy the validator accepts since `client` is declared, while the compiler's entry node is
    `client.backup`. -/
def dottedTarget : PolicyConfig where
  name := "dotted"
  nodes := [{ id := "listener", nodeType := "listener" }, { id := "client", nodeType := "client" }]
  edges := [{ «from» := "listener.out", «to» := "client.backup.in" }]

theorem dottedTarget_compiles : dottedTarget.Compiles :=
  ⟨Unit, fun _ => none, createPlugin unknownTypes, _, rfl⟩

theorem walks_find_nodes_iff_dottedTarget :
    dottedTarget.WalksFindNodes ↔ dottedTarget.EdgesResolve :=
  walks_find_nodes_iff (by decide) dottedTarget_compiles

/-- The walk of `dottedTarget` looks up an id that is not there. -/
theorem dottedTarget_misses :
    validatePolicy dottedTarget = .ok () ∧ dottedTarget.Compiles ∧
      ¬ dottedTarget.WalksFindNodes := by
  refine ⟨by decide, dottedTarget_compiles, fun h => ?_⟩
  obtain ⟨g, hg⟩ : ∃ g, compilePolicy (fun _ => none) (createPlugin (σ := Unit) unknownTypes)
      dottedTarget = .ok g := ⟨_, rfl⟩
  have hcomp := compiled_of_compile hg
  have hentry := hcomp.entry_of_listener (l := "listener") (by decide)
  have hmiss : g.entryNodeId ∉ g.nodes := by
    rw [hcomp.mem_nodes, hentry]
    decide
  exact hmiss (h asciiCaseMapping _ _ _ g hg (Context.new default) none () _ .refl)

end Featherbit
