/-
  DOES THE WALK END?

  Nothing in the validator or the compiler looks for cycles: success edges, error edges and the
  catch-all may lead back to a node that has already run, and the loop of the engine has no limit
  of its own.  `walks_end_iff` gives the exact condition: a walk ends under every assignment of
  outcomes iff no cycle of the walk graph can be reached from the entry node.  When that holds the
  bound is uniform: each node runs at most once, so the loop leaves within one iteration more than
  there are nodes (the last one may be a failed lookup).
-/
import Featherbit.Graph.WalkGraph

namespace Featherbit

namespace PolicyConfig

variable (p : PolicyConfig)

/-- Whatever the plugins do, the loop leaves within `bound` iterations. -/
def WalksEndWithin (bound : Nat) : Prop :=
  ∀ (_ : CaseMapping) (σ : Type) (env : Env) (factory : PluginFactory σ) (g : CompiledGraph σ),
    compilePolicy env factory p = .ok g →
    ∀ (ctx : Context) (recorder : Option TraceRecorder) (w : σ),
      ∃ exit, g.run bound ctx recorder w = some exit

/-- Whatever the plugins do, the loop leaves at some time. -/
def WalksEnd : Prop :=
  ∀ (_ : CaseMapping) (σ : Type) (env : Env) (factory : PluginFactory σ) (g : CompiledGraph σ),
    compilePolicy env factory p = .ok g →
    ∀ (ctx : Context) (recorder : Option TraceRecorder) (w : σ),
      ∃ fuel exit, g.run fuel ctx recorder w = some exit

/-- No cycle of the walk graph can be reached from the entry node. -/
def AcyclicWalk : Prop :=
  ∀ l, p.listenerId = some l → Walk.CycleFree p.WalkEdge (p.entryOf l)

variable {p}

/-- Pigeonhole on the declared ids: an acyclic walk runs each node at most once. -/
theorem walksEndWithin_of_acyclic (h : p.AcyclicWalk) : p.WalksEndWithin (p.nodes.length + 1) := by
  intro _ σ env factory g hg ctx recorder w
  have hcomp := compiled_of_compile hg
  rcases Loop.iterate_or_turns g.iteration (p.nodes.length + 1) (g.start ctx recorder w) with
    hexit | ⟨f, hf0, hf⟩
  · exact hexit
  · have hwalk : ∀ i, i < p.nodes.length + 1 →
        p.WalkEdge (f i).currentNodeId (f (i + 1)).currentNodeId :=
      fun i hi => turn_walkEdge hcomp (hf i hi)
    obtain ⟨l, hl, hentry⟩ := hcomp.entry
    have hfree : Walk.CycleFree p.WalkEdge (f 0).currentNodeId := by
      rw [hf0, show (g.start ctx recorder w).currentNodeId = p.entryOf l from hentry]
      exact h l hl
    have hle : p.nodes.length + 1 ≤ p.nodeIds.length :=
      Walk.walk_length_le (f := fun i => (f i).currentNodeId) hwalk (fun i hi => (hwalk i hi).1)
        hfree
    rw [nodeIds, List.length_map] at hle
    omega

/-- A reachable cycle is followed for ever, for some outcomes. -/
theorem acyclic_of_walksEnd (hc : p.Compiles) (h : p.WalksEnd) : p.AcyclicWalk := by
  intro l hl c hreach hcycle
  obtain ⟨g, hg⟩ := outcomeFactory_compiles hc
  have hcomp := compiled_of_compile hg
  have hentry := hcomp.entry_of_listener hl
  obtain ⟨f, hf0, hf⟩ := Walk.exists_stream_of_cycle hreach hcycle
  let _ : CaseMapping := asciiCaseMapping
  obtain ⟨w, hnone⟩ :=
    run_none_of_stream hcomp (hf0.trans hentry.symm) hf (Context.new default) none
  obtain ⟨fuel, exit, hexit⟩ := h _ _ _ _ g hg (Context.new default) none w
  rw [hnone fuel] at hexit
  nomatch hexit

end PolicyConfig

/-- **When the walk ends.**  Every walk of a policy that compiles ends iff no cycle can be reached
    from its entry, and then within one iteration more than the policy has nodes. -/
theorem walks_end_iff {p : PolicyConfig} (hc : p.Compiles) :
    (p.WalksEnd ↔ p.AcyclicWalk) ∧ (p.WalksEnd → p.WalksEndWithin (p.nodes.length + 1)) := by
  have hbound : p.WalksEnd → p.WalksEndWithin (p.nodes.length + 1) := fun h =>
    PolicyConfig.walksEndWithin_of_acyclic (PolicyConfig.acyclic_of_walksEnd hc h)
  refine ⟨⟨PolicyConfig.acyclic_of_walksEnd hc, fun h => ?_⟩, hbound⟩
  intro cm σ env factory g hg ctx recorder w
  obtain ⟨exit, hexit⟩ :=
    PolicyConfig.walksEndWithin_of_acyclic h cm σ env factory g hg ctx recorder w
  exact ⟨_, exit, hexit⟩

/-- A listener whose success edge leads back to itself; the validator accepts it. -/
def selfLoop : PolicyConfig where
  name := "loop"
  nodes := [{ id := "listener", nodeType := "listener" }, { id := "client", nodeType := "client" }]
  edges :=
    [{ «from» := "listener.out", «to» := "listener.in" },
      { «from» := "listener.error", «to» := "client.in" }]

theorem walks_end_iff_selfLoop :
    (selfLoop.WalksEnd ↔ selfLoop.AcyclicWalk) ∧
      (selfLoop.WalksEnd → selfLoop.WalksEndWithin (selfLoop.nodes.length + 1)) :=
  walks_end_iff ⟨Unit, fun _ => none, createPlugin unknownTypes, _, rfl⟩

/-- The walk of `selfLoop`, with the real structural plugins, never ends. -/
theorem selfLoop_never_ends :
    validatePolicy selfLoop = .ok () ∧
      ∃ g, compilePolicy (fun _ => none) (createPlugin (σ := Unit) unknownTypes) selfLoop = .ok g ∧
        ∀ (_ : CaseMapping) (ctx : Context) (recorder : Option TraceRecorder) (fuel : Nat),
          g.run fuel ctx recorder () = none := by
  obtain ⟨g, hg⟩ : ∃ g, compilePolicy (fun _ => none) (createPlugin (σ := Unit) unknownTypes)
      selfLoop = .ok g := ⟨_, rfl⟩
  refine ⟨by decide, g, hg, fun _ ctx recorder fuel => ?_⟩
  have hcomp := compiled_of_compile hg
  have hentry := hcomp.entry_of_listener (l := "listener") (by decide)
  have hnode : g.nodes["listener"]? = some listenerPlugin := by rw [hcomp.nodes]; rfl
  have hnext : g.nextOnSuccess "listener" = some "listener" := by
    rw [hcomp.nextOnSuccess]; decide
  refine Loop.iterate_none_of_turns (P := fun s => s.currentNodeId = "listener") ?_ fuel ?_
  · intro s hs
    have hv : g.visit s.currentNodeId s.ctx s.world =
        (g.okVisit "listener" listenerPlugin { context := s.ctx, namedOutputs := ∅ }, s.world) := by
      rw [hs]
      exact CompiledGraph.visit_success hnode rfl
    exact ⟨_, CompiledGraph.iteration_of_next hv hnext, rfl⟩
  · show g.entryNodeId = "listener"
    rw [hentry]
    decide

end Featherbit
