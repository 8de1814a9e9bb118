/-
  THE GRAPH A WALK MOVES IN, read off the policy.

  `next id o` is where the walk goes after node `id` ends with outcome `o`: the success edge
  (none out of a client), or the error edge and else the catch-all.  `WalkEdge` forgets the
  outcome, and `Visits` collects the ids that some walk comes to.

  Both directions of the tie to the code are here:

  * whatever the plugins do, a turn of the engine's loop is a `WalkEdge` (`turn_walkEdge`), so
    every node id the loop looks up is visited (`heads_visits`);
  * every finite walk of the graph, and every infinite one, is followed by the engine for some
    assignment of outcomes (`visits_heads`, `run_none_of_stream`).  The assignment is the world
    of `outcomePlugin`: a stream of outcomes, one taken at each visit.
-/
import Featherbit.Lib.Walk
import Featherbit.Graph.Compiled
import Featherbit.Graph.Visit

namespace Featherbit

open Relation

namespace PolicyConfig

variable (p : PolicyConfig)

/-- Where the walk goes after node `id` ended with outcome `o`; `none` ends it. -/
def next (id : String) : Outcome → Option String
  | .success => if p.IsClient id then none else (p.edgeAt id .success).map (·.target)
  | .error => ((p.edgeAt id .error).map (·.target)).or p.errorHandler

/-- The walk can go from `a` to `b`: `a` is a declared node and some outcome leads to `b`. -/
def WalkEdge (a b : String) : Prop := a ∈ p.nodeIds ∧ ∃ o, p.next a o = some b

/-- Some walk from the entry node comes to `id`. -/
def Visits (id : String) : Prop :=
  ∃ l, p.listenerId = some l ∧ ReflTransGen p.WalkEdge (p.entryOf l) id

/-- Some environment and plugin factory compile the policy. -/
def Compiles : Prop :=
  ∃ (σ : Type) (env : Env) (factory : PluginFactory σ) (g : CompiledGraph σ),
    compilePolicy env factory p = .ok g

variable {p}

theorem nodeAt_isSome (id : String) : (p.nodeAt id).isSome ↔ id ∈ p.nodeIds := by
  simp [nodeAt, nodeIds]

theorem mem_of_nodeAt {id : String} {n : NodeConfig} (h : p.nodeAt id = some n) :
    n ∈ p.nodes ∧ n.id = id := by
  have hm := List.mem_of_find?_eq_some h
  have hid := List.find?_some h
  exact ⟨List.mem_reverse.mp hm, of_decide_eq_true hid⟩

theorem edgeAt_eq_some {id : String} {o : Outcome} {e : EdgeConfig} (h : p.edgeAt id o = some e) :
    e ∈ p.edges ∧ e.Leaves id o := by
  have hm := List.mem_of_find?_eq_some h
  have hl := List.find?_some h
  exact ⟨List.mem_reverse.mp hm, of_decide_eq_true hl⟩

end PolicyConfig

/-! ## The engine moves along walk edges -/

section Engine

variable {σ : Type} {env : Env} {factory : PluginFactory σ} {p : PolicyConfig}
  {g : CompiledGraph σ}

/-- A lookup finds a plugin exactly for the declared ids. -/
theorem Compiled.mem_nodes (hg : Compiled env factory p g) (id : String) :
    id ∈ g.nodes ↔ id ∈ p.nodeIds := by
  rw [Std.ExtTreeMap.mem_iff_isSome_getElem?, hg.nodes id, ← PolicyConfig.nodeAt_isSome]
  cases hn : p.nodeAt id with
  | none => rfl
  | some n =>
    have hb := hg.built n (PolicyConfig.mem_of_nodeAt hn).1
    show (n.plugin env factory).isSome = true ↔ _
    simp only [hb, Option.isSome_some]

theorem Compiled.nextOnSuccess (hg : Compiled env factory p g) (id : String) :
    g.nextOnSuccess id = p.next id .success := by
  simp only [CompiledGraph.nextOnSuccess, PolicyConfig.next, hg.terminal id, hg.success id,
    decide_eq_true_eq]

theorem Compiled.nextOnError (hg : Compiled env factory p g) (id : String) :
    (g.nextOnError id).map (·.1) = p.next id .error := by
  simp only [CompiledGraph.nextOnError, PolicyConfig.next, hg.error id, hg.catchAll]
  cases p.edgeAt id .error with
  | some e => rfl
  | none => cases p.errorHandler <;> rfl

variable [CaseMapping]

theorem turn_walkEdge (hg : Compiled env factory p g) {s s' : LoopState σ}
    (h : Loop.Turn g.iteration s s') : p.WalkEdge s.currentNodeId s'.currentNodeId := by
  have hnext := CompiledGraph.next_of_turn h
  have hmem : ∀ {node}, g.nodes[s.currentNodeId]? = some node → s.currentNodeId ∈ p.nodeIds := by
    intro node hn
    rw [← hg.mem_nodes, Std.ExtTreeMap.mem_iff_isSome_getElem?, hn]
    rfl
  rcases g.visit_cases s.currentNodeId s.ctx s.world with
    ⟨-, hv⟩ | ⟨node, output, w, hn, -, hv⟩ | ⟨node, err, w, hn, -, hv⟩
  · rw [hv] at hnext
    nomatch hnext
  · rw [hv] at hnext
    exact ⟨hmem hn, .success, by rw [← hg.nextOnSuccess]; exact hnext⟩
  · rw [hv] at hnext
    exact ⟨hmem hn, .error, by rw [← hg.nextOnError]; exact hnext⟩

/-- Every node id the loop looks up, whatever the plugins do, is one the walk graph visits. -/
theorem heads_visits (hg : Compiled env factory p g) {ctx : Context}
    {recorder : Option TraceRecorder} {w : σ} {s : LoopState σ}
    (h : Loop.Heads g.iteration (g.start ctx recorder w) s) : p.Visits s.currentNodeId := by
  obtain ⟨l, hl, hentry⟩ := hg.entry
  have hstart : p.Visits (g.start ctx recorder w).currentNodeId :=
    ⟨l, hl, by show ReflTransGen p.WalkEdge _ g.entryNodeId; rw [hentry]⟩
  refine Loop.heads_invariant (P := fun s => p.Visits s.currentNodeId) h hstart ?_
  rintro x y ⟨l', hl', hx⟩ hturn
  exact ⟨l', hl', hx.tail (turn_walkEdge hg hturn)⟩

end Engine

/-! ## Every walk is followed for some outcomes -/

/-- The outcomes still to come, one for each visit of a node. -/
abbrev Outcomes := Nat → Outcome

/-- The outcome `o`, then the outcomes `w`. -/
def Outcomes.cons (o : Outcome) (w : Outcomes) : Outcomes := fun i => Nat.casesOn i o w

/-- A plugin that leaves the context alone and ends with the next outcome of the stream. -/
def outcomePlugin (pluginType : String) : Plugin Outcomes where
  pluginType := pluginType
  execute ctx _ w :=
    (match w 0 with
      | .success => .ok { context := ctx, namedOutputs := ∅ }
      | .error =>
        .error
          { context := ctx
            error := { nodeId := "", code := "FAILED", message := "", metadata := ∅ } },
      fun i => w (i + 1))

/-- The factory that builds every node as an `outcomePlugin`. -/
def outcomeFactory : PluginFactory Outcomes where
  create nodeType _ := .ok (outcomePlugin nodeType)
  typed h := by rw [← Except.ok.inj h]; rfl

/-- Where some factory compiles a policy, the outcome factory does. -/
theorem outcomeFactory_compiles {p : PolicyConfig} (hp : p.Compiles) :
    ∃ g, compilePolicy (fun _ => none) outcomeFactory p = .ok g := by
  obtain ⟨σ, env, factory, g, hg⟩ := hp
  exact compiles_of_compiled (compiled_of_compile hg) fun n _ => rfl

section Follow

variable [CaseMapping] {env : Env} {p : PolicyConfig} {g : CompiledGraph Outcomes}

/-- One turn under the outcome factory: from a declared node the loop goes where the first
    outcome of the stream leads. -/
theorem outcome_turn (hg : Compiled env outcomeFactory p g) {s : LoopState Outcomes} {b : String}
    (hmem : s.currentNodeId ∈ p.nodeIds) (hnext : p.next s.currentNodeId (s.world 0) = some b) :
    ∃ s', g.iteration s = .inl s' ∧ s'.currentNodeId = b ∧
      s'.world = fun i => s.world (i + 1) := by
  obtain ⟨n, hn⟩ := Option.isSome_iff_exists.mp ((PolicyConfig.nodeAt_isSome _).mpr hmem)
  have hnode : g.nodes[s.currentNodeId]? = some (outcomePlugin n.nodeType) := by
    rw [hg.nodes, hn]
    rfl
  rcases g.visit_cases s.currentNodeId s.ctx s.world with
    ⟨h, -⟩ | ⟨node, output, w, h, hexec, hv⟩ | ⟨node, err, w, h, hexec, hv⟩
  · rw [hnode] at h
    nomatch h
  · obtain rfl := Option.some.inj (hnode.symm.trans h)
    cases ho : s.world 0 with
    | error => simp [outcomePlugin, ho] at hexec
    | success =>
      simp only [outcomePlugin, ho, Prod.mk.injEq] at hexec
      rw [ho, ← hg.nextOnSuccess] at hnext
      exact ⟨_, CompiledGraph.iteration_of_next hv hnext, rfl, hexec.2.symm⟩
  · obtain rfl := Option.some.inj (hnode.symm.trans h)
    cases ho : s.world 0 with
    | success => simp [outcomePlugin, ho] at hexec
    | error =>
      simp only [outcomePlugin, ho, Prod.mk.injEq] at hexec
      rw [ho, ← hg.nextOnError] at hnext
      exact ⟨_, CompiledGraph.iteration_of_next hv hnext, rfl, hexec.2.symm⟩

/-- A finite walk of the graph is followed for some outcomes.  Induction from the walk's first
    edge: its outcome goes in front of the outcomes of the rest. -/
theorem walk_heads (hg : Compiled env outcomeFactory p g) {a b : String}
    (hab : ReflTransGen p.WalkEdge a b) :
    ∃ w : Outcomes, ∀ s : LoopState Outcomes, s.currentNodeId = a → s.world = w →
      ∃ s', Loop.Heads g.iteration s s' ∧ s'.currentNodeId = b := by
  induction hab using ReflTransGen.head_induction_on with
  | refl => exact ⟨fun _ => .success, fun s hs _ => ⟨s, .refl, hs⟩⟩
  | head hstep _ ih =>
    obtain ⟨hmem, o, hnext⟩ := hstep
    obtain ⟨w, hw⟩ := ih
    refine ⟨Outcomes.cons o w, fun s hs hworld => ?_⟩
    rw [← hs] at hmem hnext
    obtain ⟨s1, hturn, hid, hworld1⟩ := outcome_turn hg hmem (by rw [hworld]; exact hnext)
    obtain ⟨s', hheads, hs'⟩ := hw s1 hid (by rw [hworld1, hworld]; rfl)
    exact ⟨s', .head hturn hheads, hs'⟩

/-- Every visited id is looked up by the loop for some outcomes. -/
theorem visits_heads (hg : Compiled env outcomeFactory p g) {id : String} (hid : p.Visits id)
    (ctx : Context) (recorder : Option TraceRecorder) :
    ∃ w s, Loop.Heads g.iteration (g.start ctx recorder w) s ∧ s.currentNodeId = id := by
  obtain ⟨l, hl, hwalk⟩ := hid
  obtain ⟨l', hl', hentry⟩ := hg.entry
  obtain rfl : l = l' := Option.some.inj (hl.symm.trans hl')
  obtain ⟨w, hw⟩ := walk_heads hg hwalk
  obtain ⟨s, hheads, hs⟩ := hw (g.start ctx recorder w) hentry rfl
  exact ⟨w, s, hheads, hs⟩

/-- An infinite walk from the entry is followed for ever, for some outcomes. -/
theorem run_none_of_stream (hg : Compiled env outcomeFactory p g) {f : Nat → String}
    (hf0 : f 0 = g.entryNodeId) (hf : ∀ i, p.WalkEdge (f i) (f (i + 1))) (ctx : Context)
    (recorder : Option TraceRecorder) : ∃ w, ∀ fuel, g.run fuel ctx recorder w = none := by
  choose hmem o hnext using hf
  -- the loop at turn `i` is at `f i`, with the outcomes from `i` on still to come
  let P : LoopState Outcomes → Prop := fun s =>
    ∃ i, s.currentNodeId = f i ∧ s.world = fun j => o (i + j)
  have hstep : ∀ s, P s → ∃ s', Loop.Turn g.iteration s s' ∧ P s' := by
    rintro s ⟨i, hid, hworld⟩
    have hnext' : p.next s.currentNodeId (s.world 0) = some (f (i + 1)) := by
      rw [hid, hworld]; exact hnext i
    obtain ⟨s', hturn, hid', hworld'⟩ := outcome_turn hg (hid ▸ hmem i) hnext'
    refine ⟨s', hturn, i + 1, hid', ?_⟩
    rw [hworld', hworld]
    funext j
    show o (i + (j + 1)) = o (i + 1 + j)
    rw [Nat.add_assoc, Nat.add_comm 1 j]
  have hstart : P (g.start ctx recorder o) := ⟨0, hf0.symm, by funext j; simp [CompiledGraph.start]⟩
  exact ⟨o, fun fuel => Loop.iterate_none_of_turns hstep fuel hstart⟩

end Follow

end Featherbit
