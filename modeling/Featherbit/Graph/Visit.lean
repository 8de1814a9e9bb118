/-
  ONE VISIT OF A NODE, apart from the recorder.

  An iteration of the engine's loop does two things: it visits a node, and it tells the recorder,
  if there is one.  `visit` is the first of the two, a function of the node id, the context and
  the world alone; `iteration_eq` says that the iteration is the visit, recorded.  Later modules
  reason about visits and never unfold the iteration again.
-/
import Featherbit.Graph.Engine

namespace Featherbit

/-- What one iteration of the walk did. -/
structure Visit where
  nodeId : String
  nodeType : String
  outcome : StepOutcome
  edge : EdgeKind
  next : Option String
  /-- the context the iteration left behind -/
  after : Context

/-- The recorder after being told of a visit. -/
def TraceRecorder.record [CaseMapping] (r : TraceRecorder) (v : Visit) : TraceRecorder :=
  r.recordStep v.nodeId v.nodeType v.outcome v.edge v.next v.after

namespace CompiledGraph

variable {σ : Type} (g : CompiledGraph σ)

/-- The edge kind after a successful node. -/
def successKind (id : String) : EdgeKind :=
  if g.terminalNodeIds.contains id then .terminal
  else if (g.nextOnSuccess id).isSome then .success
  else .endOfChain

/-- The visit of a node id that is not in the graph. -/
def missingVisit (id : String) (ctx : Context) : Visit where
  nodeId := id
  nodeType := "<missing>"
  outcome := .error "NODE_NOT_FOUND" ("node '" ++ id ++ "' not found")
  edge := .nodeNotFound
  next := none
  after := ctx.nodeNotFound id

/-- The visit of a node whose plugin succeeded. -/
def okVisit (id : String) (node : Plugin σ) (output : PluginOutput) : Visit where
  nodeId := id
  nodeType := node.pluginType
  outcome := .success
  edge := g.successKind id
  next := g.nextOnSuccess id
  after := output.context

/-- The visit of a node whose plugin failed. -/
def failedVisit (id : String) (node : Plugin σ) (err : PluginExecutionError) : Visit where
  nodeId := id
  nodeType := node.pluginType
  outcome := .error err.error.code err.error.message
  edge := ((g.nextOnError id).map (·.2)).getD .unhandled
  next := (g.nextOnError id).map (·.1)
  after :=
    if (g.nextOnError id).isSome then err.tagged id else (err.tagged id).unhandledError

/-- One visit: look the node up, run its plugin, choose the next node. -/
def visit (id : String) (ctx : Context) (w : σ) : Visit × σ :=
  match g.nodes[id]? with
  | none => (missingVisit id ctx, w)
  | some node =>
    match node.execute ctx ∅ w with
    | (.ok output, w') => (g.okVisit id node output, w')
    | (.error err, w') => (g.failedVisit id node err, w')

section Ways

variable {g} {id : String} {ctx : Context} {w w' : σ} {node : Plugin σ}

theorem visit_missing (hnode : g.nodes[id]? = none) : g.visit id ctx w = (missingVisit id ctx, w) := by
  simp only [visit, hnode]

theorem visit_success (hnode : g.nodes[id]? = some node) {output : PluginOutput}
    (hexec : node.execute ctx ∅ w = (.ok output, w')) :
    g.visit id ctx w = (g.okVisit id node output, w') := by
  simp only [visit, hnode, hexec]

theorem visit_failure (hnode : g.nodes[id]? = some node) {err : PluginExecutionError}
    (hexec : node.execute ctx ∅ w = (.error err, w')) :
    g.visit id ctx w = (g.failedVisit id node err, w') := by
  simp only [visit, hnode, hexec]

end Ways

/-- The three ways a visit can go, with everything each one says. -/
theorem visit_cases (id : String) (ctx : Context) (w : σ) :
    (g.nodes[id]? = none ∧ g.visit id ctx w = (missingVisit id ctx, w)) ∨
    (∃ node output w', g.nodes[id]? = some node ∧ node.execute ctx ∅ w = (.ok output, w') ∧
      g.visit id ctx w = (g.okVisit id node output, w')) ∨
    (∃ node err w', g.nodes[id]? = some node ∧ node.execute ctx ∅ w = (.error err, w') ∧
      g.visit id ctx w = (g.failedVisit id node err, w')) := by
  cases hn : g.nodes[id]? with
  | none => exact Or.inl ⟨rfl, visit_missing hn⟩
  | some node =>
    obtain ⟨result, w', hexec⟩ : ∃ result w', node.execute ctx ∅ w = (result, w') := ⟨_, _, rfl⟩
    cases result with
    | ok output =>
      exact Or.inr (Or.inl ⟨node, output, w', rfl, hexec, visit_success hn hexec⟩)
    | error err =>
      exact Or.inr (Or.inr ⟨node, err, w', rfl, hexec, visit_failure hn hexec⟩)

@[simp] theorem visit_nodeId (id : String) (ctx : Context) (w : σ) :
    (g.visit id ctx w).1.nodeId = id := by
  rcases g.visit_cases id ctx w with ⟨-, h⟩ | ⟨_, _, _, -, -, h⟩ | ⟨_, _, _, -, -, h⟩ <;>
    rw [h] <;> rfl

/-- **An iteration is a visit, recorded.**  What the recorder is told never changes the walk. -/
theorem iteration_eq [CaseMapping] (s : LoopState σ) :
    g.iteration s =
      match g.visit s.currentNodeId s.ctx s.world with
      | (v, w) =>
        match v.next with
        | some next =>
          .inl
            { ctx := v.after
              recorder := s.recorder.map fun r => r.record v
              currentNodeId := next
              world := w }
        | none =>
          .inr
            { ctx := v.after
              recorder := s.recorder.map fun r => r.record v
              world := w } := by
  rcases g.visit_cases s.currentNodeId s.ctx s.world with
    ⟨hn, h⟩ | ⟨node, output, w', hn, hexec, h⟩ | ⟨node, err, w', hn, hexec, h⟩
  · rw [h]
    simp only [iteration, hn]
    rfl
  · rw [h]
    simp only [iteration, hn, hexec, okVisit, successKind]
    cases g.nextOnSuccess s.currentNodeId <;> rfl
  · rw [h]
    simp only [iteration, hn, hexec, failedVisit]
    cases g.nextOnError s.currentNodeId with
    | none => rfl
    | some next => rfl

section Turns

variable [CaseMapping] {g}

/-- A visit that names a next node is a turn of the loop. -/
theorem iteration_of_next {s : LoopState σ} {v : Visit} {w : σ} {next : String}
    (hv : g.visit s.currentNodeId s.ctx s.world = (v, w)) (hnext : v.next = some next) :
    g.iteration s =
      .inl
        { ctx := v.after
          recorder := s.recorder.map fun r => r.record v
          currentNodeId := next
          world := w } := by
  rw [iteration_eq, hv]
  simp only [hnext]

/-- A visit that names none leaves the loop. -/
theorem iteration_of_end {s : LoopState σ} {v : Visit} {w : σ}
    (hv : g.visit s.currentNodeId s.ctx s.world = (v, w)) (hnext : v.next = none) :
    g.iteration s =
      .inr { ctx := v.after, recorder := s.recorder.map fun r => r.record v, world := w } := by
  rw [iteration_eq, hv]
  simp only [hnext]

/-- A turn of the loop goes to the next node of its visit. -/
theorem next_of_turn {s s' : LoopState σ} (h : Loop.Turn g.iteration s s') :
    (g.visit s.currentNodeId s.ctx s.world).1.next = some s'.currentNodeId := by
  obtain ⟨v, w, hv⟩ : ∃ v w, g.visit s.currentNodeId s.ctx s.world = (v, w) := ⟨_, _, rfl⟩
  rw [hv]
  cases hnext : v.next with
  | none =>
    have heq := (iteration_of_end hv hnext).symm.trans h
    nomatch heq
  | some next =>
    have heq := (iteration_of_next hv hnext).symm.trans h
    rw [← Sum.inl.inj heq]

end Turns

end CompiledGraph

end Featherbit
