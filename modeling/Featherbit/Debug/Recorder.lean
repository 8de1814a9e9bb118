/-
  THE TRACE RECORDER (`debug/mod.rs`): accumulates steps while the engine walks a graph, up to
  `max_steps` of them.
-/
import Featherbit.Debug.Trace

namespace Featherbit

structure TraceRecorder where
  opts : CaptureOptions
  maxSteps : Nat
  prevBodies : PreviousBodies
  initial : ContextSnapshot
  steps : List NodeStep
  notes : List String
  truncated : Bool

namespace TraceRecorder

variable [CaseMapping]

/-- Starts a recording, capturing the context as it enters the graph. -/
def new (ctx : Context) (opts : CaptureOptions) (maxSteps : Nat) : TraceRecorder where
  opts := opts
  maxSteps := maxSteps
  prevBodies := PreviousBodies.of ctx
  initial := ContextSnapshot.capture ctx opts {}
  steps := []
  notes := []
  truncated := false

/-- Records one node execution, unless the step limit is reached. -/
def recordStep (r : TraceRecorder) (nodeId nodeType : String) (outcome : StepOutcome)
    (edge : EdgeKind) (nextNodeId : Option String) (ctx : Context) : TraceRecorder :=
  if r.steps.length ≥ r.maxSteps then
    if r.truncated then r
    else
      { r with
        truncated := true
        notes := r.notes ++
          ["step limit of " ++ showNat r.maxSteps ++ " reached; later nodes are not recorded"] }
  else
    let after := ContextSnapshot.capture ctx r.opts r.prevBodies
    let note := "a captured body was truncated"
    let notes :=
      if (after.request.body.truncated || after.response.body.truncated) ∧ note ∉ r.notes then
        r.notes ++ [note]
      else r.notes
    { r with
      prevBodies := PreviousBodies.of ctx
      notes := notes
      steps := r.steps ++
        [{ index := r.steps.length, nodeId := nodeId, nodeType := nodeType, outcome := outcome,
           edge := edge, nextNodeId := nextNodeId, after := after }] }

omit [CaseMapping] in
/-- Seals the recording into a trace. -/
def finish (r : TraceRecorder) (id : String) (seq : UInt64) (source : TraceSource)
    (route : Option String) (policy : String) (finalCtx : Context) : Trace where
  id := id
  seq := seq
  source := source
  route := route
  policy := policy
  method := finalCtx.request.method
  path := finalCtx.request.path
  status := finalCtx.response.statusCode
  capturedBodies := r.opts.captureBodies
  initial := r.initial
  steps := r.steps
  notes := r.notes

end TraceRecorder

end Featherbit
