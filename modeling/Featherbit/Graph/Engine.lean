/-
  POLICY COMPILATION AND GRAPH EXECUTION (`graph/engine.rs`).

  `compilePolicy` turns a `PolicyConfig` into a `CompiledGraph`: a plugin per node id, success and
  error edges indexed by their source node, the entry node, the terminal nodes and the catch-all
  handler.  `CompiledGraph.run` walks that graph for one request.  The walk is a `loop`
  (`Lib.Loop`): `iteration` is its body, with the recorder an option exactly as in the source, so
  that the traced and the untraced walk are one definition.

  Left out: the metrics the loop counts per node, and how long a plugin took.  Neither reaches
  the context, the walk or the recorded step's other fields.
-/
import Featherbit.Lib.Loop
import Featherbit.Config.Loader
import Featherbit.Plugins
import Featherbit.Debug.Recorder
import Featherbit.Graph.Validation

namespace Featherbit

/-- A compiled, ready-to-execute graph with instantiated plugins. -/
structure CompiledGraph (σ : Type) where
  nodes : HashMap (Plugin σ)
  /-- node id → next node id on success -/
  successEdges : HashMap String
  /-- node id → next node id on error -/
  errorEdges : HashMap String
  /-- the node that starts the pipeline (first node after the listener) -/
  entryNodeId : String
  /-- client nodes: execution stops when one of them has run -/
  terminalNodeIds : HashSet
  catchAllHandler : Option String
  policyName : String

/-! ## The walk -/

/-- What the loop carries from one iteration to the next. -/
structure LoopState (σ : Type) where
  ctx : Context
  recorder : Option TraceRecorder
  currentNodeId : String
  world : σ

/-- What the loop leaves with. -/
structure LoopExit (σ : Type) where
  ctx : Context
  recorder : Option TraceRecorder
  world : σ

/-- The response written when the walk comes to a node id that does not exist. -/
def Context.nodeNotFound (ctx : Context) (id : String) : Context :=
  { ctx with
    response :=
      { ctx.response with
        statusCode := 500
        body := asBytes ("Graph error: node '" ++ id ++ "' not found") } }

/-- The generic response written when a failing node has neither an error edge nor a catch-all. -/
def Context.unhandledError (ctx : Context) : Context :=
  { ctx with
    response :=
      { statusCode := 500
        headers := ctx.response.headers.insert "content-type" ["application/json"]
        body := asBytes
          "\x7b\"error\": \"internal_error\", \"message\": \"Unhandled error in routing policy\"\x7d" } }

/-- The context of a failed plugin with its error tagged by the node's id and appended. -/
def PluginExecutionError.tagged (err : PluginExecutionError) (id : String) : Context :=
  { err.context with errors := err.context.errors ++ [{ err.error with nodeId := id }] }

namespace CompiledGraph

variable {σ : Type} (g : CompiledGraph σ)

/-- The node to go to after `id` succeeded: none after a terminal node. -/
def nextOnSuccess (id : String) : Option String :=
  if g.terminalNodeIds.contains id then none else g.successEdges[id]?

/-- The node to go to after `id` failed: its error edge, else the policy's catch-all. -/
def nextOnError (id : String) : Option (String × EdgeKind) :=
  (g.errorEdges[id]?.map fun next => (next, .error)).or
    (g.catchAllHandler.map fun next => (next, .catchAll))

section Walk

variable [CaseMapping]

/-- One iteration of the loop of `CompiledGraph::run`. -/
def iteration (s : LoopState σ) : LoopState σ ⊕ LoopExit σ :=
  let id := s.currentNodeId
  match g.nodes[id]? with
  | none =>
    let ctx := s.ctx.nodeNotFound id
    let outcome := StepOutcome.error "NODE_NOT_FOUND" ("node '" ++ id ++ "' not found")
    .inr
      { ctx := ctx
        recorder := s.recorder.map fun r =>
          r.recordStep id "<missing>" outcome .nodeNotFound none ctx
        world := s.world }
  | some node =>
    match node.execute s.ctx ∅ s.world with
    | (.ok output, world) =>
      let ctx := output.context
      let terminal := g.terminalNodeIds.contains id
      let next := g.nextOnSuccess id
      let edge :=
        if terminal then EdgeKind.terminal
        else if next.isSome then .success
        else .endOfChain
      let recorder := s.recorder.map fun r =>
        r.recordStep id node.pluginType .success edge next ctx
      match next with
      | some nextId =>
        .inl { ctx := ctx, recorder := recorder, currentNodeId := nextId, world := world }
      | none => .inr { ctx := ctx, recorder := recorder, world := world }
    | (.error err, world) =>
      let outcome := StepOutcome.error err.error.code err.error.message
      match g.nextOnError id with
      | some (nextId, kind) =>
        let ctx := err.tagged id
        .inl
          { ctx := ctx
            recorder := s.recorder.map fun r =>
              r.recordStep id node.pluginType outcome kind (some nextId) ctx
            currentNodeId := nextId
            world := world }
      | none =>
        let ctx := (err.tagged id).unhandledError
        .inr
          { ctx := ctx
            recorder := s.recorder.map fun r =>
              r.recordStep id node.pluginType outcome .unhandled none ctx
            world := world }

/-- The state in which the walk begins. -/
def start (ctx : Context) (recorder : Option TraceRecorder) (w : σ) : LoopState σ where
  ctx := ctx
  recorder := recorder
  currentNodeId := g.entryNodeId
  world := w

/-- `CompiledGraph::run`, for at most `fuel` iterations; `none` when the walk is not over. -/
def run (fuel : Nat) (ctx : Context) (recorder : Option TraceRecorder) (w : σ) :
    Option (LoopExit σ) :=
  Loop.iterate g.iteration fuel (g.start ctx recorder w)

/-- `CompiledGraph::execute`. -/
def execute (fuel : Nat) (ctx : Context) (w : σ) : Option (Context × σ) :=
  (g.run fuel ctx none w).map fun exit => (exit.ctx, exit.world)

/-- `CompiledGraph::execute_traced`.  `run` hands a recorder back whenever it was given one, so
    the `expect` of the source, here the inner `none`, is never met (`run_recorder_isSome`). -/
def executeTraced (fuel : Nat) (ctx : Context) (recorder : TraceRecorder) (w : σ) :
    Option (Context × TraceRecorder × σ) :=
  (g.run fuel ctx (some recorder) w).bind fun exit =>
    exit.recorder.map fun r => (exit.ctx, r, exit.world)

end Walk

end CompiledGraph

/-! ## Compilation -/

/-- `parse_edge_endpoint`: split at the last dot; the port defaults to `out`. -/
def parseEdgeEndpoint (endpoint : String) : String × String :=
  match rsplitOnceChar '.' endpoint with
  | some (nodeId, port) => (nodeId, port)
  | none => (endpoint, "out")

/-- The node id the compiler reads out of an endpoint. -/
def endpointNode (endpoint : String) : String := (parseEdgeEndpoint endpoint).1

/-- The port the compiler reads out of an endpoint. -/
def endpointPort (endpoint : String) : String := (parseEdgeEndpoint endpoint).2

section Compile

variable {σ : Type}

/-- What the node loop of `compile_policy` fills. -/
structure NodeTables (σ : Type) where
  nodes : HashMap (Plugin σ) := ∅
  listenerNodeId : Option String := none
  terminalNodeIds : HashSet := ∅

/-- One node of the policy: interpolate its config, build its plugin, enter it. -/
def compileNode (env : Env) (factory : PluginFactory σ) (t : NodeTables σ) (node : NodeConfig) :
    Except String (NodeTables σ) := do
  let plugin ← factory.create node.nodeType (interpolateConfig env node.config)
  pure
    { nodes := t.nodes.insert node.id plugin
      listenerNodeId := if node.nodeType = "listener" then some node.id else t.listenerNodeId
      terminalNodeIds :=
        if node.nodeType = "client" then t.terminalNodeIds.insert node.id
        else t.terminalNodeIds }

/-- What the edge loop of `compile_policy` fills. -/
structure EdgeTables where
  successEdges : HashMap String := ∅
  errorEdges : HashMap String := ∅

/-- One edge of the policy, indexed by its source node and port. -/
def indexEdge (t : EdgeTables) (edge : EdgeConfig) : Except String EdgeTables :=
  let fromNode := endpointNode edge.from
  let toNode := endpointNode edge.to
  match endpointPort edge.from with
  | "success" | "out" => .ok { t with successEdges := t.successEdges.insert fromNode toNode }
  | "error" => .ok { t with errorEdges := t.errorEdges.insert fromNode toNode }
  | other => .error ("Unknown edge port: '" ++ other ++ "'")

/-- `compile_policy`. -/
def compilePolicy (env : Env) (factory : PluginFactory σ) (policy : PolicyConfig) :
    Except String (CompiledGraph σ) := do
  let t ← policy.nodes.foldlM (compileNode env factory) {}
  match t.listenerNodeId with
  | none => .error "Policy must have a listener node"
  | some listener =>
    let e ← policy.edges.foldlM indexEdge {}
    pure
      { nodes := t.nodes
        successEdges := e.successEdges
        errorEdges := e.errorEdges
        entryNodeId := e.successEdges[listener]?.getD listener
        terminalNodeIds := t.terminalNodeIds
        catchAllHandler := policy.errorHandler
        policyName := policy.name }

end Compile

example : parseEdgeEndpoint "rewrite.success" = ("rewrite", "success") := by decide
example : parseEdgeEndpoint "a.b.in" = ("a.b", "in") := by decide
example : parseEdgeEndpoint "client" = ("client", "out") := by decide

end Featherbit
