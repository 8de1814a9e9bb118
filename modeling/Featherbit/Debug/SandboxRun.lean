/-
  A SANDBOX RUN (`run_sandbox` and `render_trace` of `admin/debug.rs`).

  The handler chooses a policy (the nodes of the request woven into one, or a policy by its name),
  validates and compiles it, makes a context of the request's JSON, walks, and stores a trace of
  the walk, which it also answers with.

  1. `sandbox_run`: with plain ids, a list of nodes is refused, without any plugin call and with
     the trace store as it was, or it is run as the fold of the list, and the trace that is stored
     and answered is the log of that fold.
  2. `rendered_blames`: the answer lists with each step what it changed.  Between any two snapshots
     of the trace, whatever is reported to differ is listed by a step in between, so that a reader
     always finds a node to blame.  It is one telescoping argument over the steps
     (`reported_or`).
-/
import Featherbit.Debug.Capture
import Featherbit.Debug.Diff
import Featherbit.Debug.Pipeline
import Featherbit.Debug.Sandbox
import Featherbit.Debug.Store

namespace Featherbit

/-- The body of `POST /api/debug/sandbox`. -/
structure SandboxRequest where
  nodes : Option (List NodeConfig) := none
  policy : Option String := none
  onError : OnError := .stop
  context : Json := .null

/-- The settings of the debug state that a sandbox run reads. -/
structure SandboxSettings where
  enabled : Bool
  sandboxEnabled : Bool
  options : CaptureOptions
  maxSteps : Nat

/-- A trace with the changes each step made. -/
structure RenderedTrace where
  trace : Trace
  steps : List (NodeStep × List Change)

/-- What the handler answers. -/
inductive SandboxAnswer where
  /-- 404, as if there was no such endpoint -/
  | disabled
  /-- 400 -/
  | badRequest (error : String)
  /-- 404 -/
  | unknownPolicy (name : String)
  /-- 504 -/
  | timedOut
  | ran (mode policy storedTraceId : String) (trace : RenderedTrace)

section Render

variable [JsonText]

/-- The loop of `render_trace`: each step with its difference to the snapshot before. -/
def renderSteps : ContextSnapshot → List NodeStep → List (NodeStep × List Change)
  | _, [] => []
  | prev, step :: steps => (step, prev.diff step.after) :: renderSteps step.after steps

/-- `render_trace`. -/
def renderTrace (trace : Trace) : RenderedTrace where
  trace := trace
  steps := renderSteps trace.initial trace.steps

end Render

theorem length_renderSteps [JsonText] (prev : ContextSnapshot) (steps : List NodeStep) :
    (renderSteps prev steps).length = steps.length := by
  induction steps generalizing prev with
  | nil => rfl
  | cons step steps ih => rw [renderSteps, List.length_cons, ih, List.length_cons]

theorem length_stepsOf [CaseMapping] (opts : CaptureOptions) (prev : PreviousBodies) (i : Nat)
    (visits : List Visit) : (stepsOf opts prev i visits).length = visits.length := by
  induction visits generalizing prev i with
  | nil => rfl
  | cons v visits ih => rw [stepsOf, List.length_cons, ih, List.length_cons]

/-! ## The handler -/

section Handler

variable [CaseMapping] [JsonText] [Base64] [SerdeText] {σ : Type}

/-- The mode, the name the run goes by, and the policy to run. -/
def SandboxRequest.target (req : SandboxRequest) (gateway : GatewayConfig) :
    Except SandboxAnswer (String × String × PolicyConfig) :=
  match req.nodes, req.policy with
  | some _, some _ | none, none =>
    .error (.badRequest "provide exactly one of 'nodes' or 'policy'")
  | some nodes, none =>
    match synthesizePolicy nodes req.onError with
    | .ok p => .ok ("nodes", "__sandbox", p)
    | .error e => .error (.badRequest e)
  | none, some name =>
    match gateway.policies.find? fun p => p.name = name with
    | some p => .ok ("policy", name, p)
    | none => .error (.unknownPolicy name)

/-- What is about to be run. -/
structure SandboxPlan (σ : Type) where
  mode : String
  policyName : String
  graph : CompiledGraph σ
  ctx : Context

/-- Everything that can be refused before the first plugin is called. -/
def SandboxRequest.prepare (req : SandboxRequest) (settings : SandboxSettings)
    (gateway : GatewayConfig) (env : Env) (factory : PluginFactory σ) :
    Except SandboxAnswer (SandboxPlan σ) :=
  if settings.enabled = false then .error .disabled
  else if settings.sandboxEnabled = false then .error .disabled
  else
    match req.target gateway with
    | .error answer => .error answer
    | .ok (mode, policyName, policy) =>
      match validatePolicy policy with
      | .error errors => .error (.badRequest ("; ".intercalate errors))
      | .ok _ =>
        match compilePolicy env factory policy with
        | .error e => .error (.badRequest e)
        | .ok graph =>
          match materializeContext req.context with
          | .error e => .error (.badRequest e)
          | .ok ctx => .ok { mode := mode, policyName := policyName, graph := graph, ctx := ctx }

/-- The answer, and what is left: a run that is cut off leaves the world somewhere in between. -/
structure SandboxOutcome (σ : Type) where
  answer : SandboxAnswer
  store : DebugState
  world : Option σ

/-- `run_sandbox`; the timeout leaves time for `fuel` nodes, and `id` is the fresh trace id. -/
def runSandbox (settings : SandboxSettings) (gateway : GatewayConfig) (env : Env)
    (factory : PluginFactory σ) (fuel : Nat) (id : String) (req : SandboxRequest)
    (store : DebugState) (w : σ) : SandboxOutcome σ :=
  match req.prepare settings gateway env factory with
  | .error answer => { answer := answer, store := store, world := some w }
  | .ok plan =>
    let recorder := TraceRecorder.new plan.ctx settings.options settings.maxSteps
    match plan.graph.executeTraced fuel plan.ctx recorder w with
    | none => { answer := .timedOut, store := store, world := none }
    | some (ctx, recorder, w') =>
      let trace := recorder.finish id store.nextSeq.1 .sandbox none plan.policyName ctx
      { answer := .ran plan.mode plan.policyName id (renderTrace trace)
        store := store.nextSeq.2.record trace
        world := some w' }

end Handler

/-! ## What is stored of a pipeline -/

section Log

variable [CaseMapping]

/-- The snapshots of a list of contexts, each body against the one before. -/
def snapshotsOf (opts : CaptureOptions) : PreviousBodies → List Context → List ContextSnapshot
  | _, [] => []
  | prev, ctx :: ctxs =>
    ContextSnapshot.capture ctx opts prev :: snapshotsOf opts (PreviousBodies.of ctx) ctxs

theorem stepsOf_log (opts : CaptureOptions) :
    ∀ (visits : List Visit) (prev : PreviousBodies) (i : Nat),
      (stepsOf opts prev i visits).map (fun s => (s.nodeId, s.outcome)) =
        visits.map (fun v => (v.nodeId, v.outcome)) ∧
      (stepsOf opts prev i visits).map (·.after) = snapshotsOf opts prev (visits.map (·.after)) := by
  intro visits
  induction visits with
  | nil => exact fun _ _ => ⟨rfl, rfl⟩
  | cons v visits ih =>
    intro prev i
    obtain ⟨hids, hsnapshots⟩ := ih (PreviousBodies.of v.after) (i + 1)
    constructor
    · rw [stepsOf, List.map_cons, hids]
      rfl
    · rw [stepsOf, List.map_cons, hsnapshots]
      rfl

/-- The trace is the log of the first plugin calls of a run on `ctx`, as many as there is room
    for. -/
structure Logs (opts : CaptureOptions) (maxSteps : Nat) (ctx : Context) {σ : Type}
    (run : PipelineRun σ) (trace : Trace) : Prop where
  steps : trace.steps.map (fun s => (s.nodeId, s.outcome)) =
    (run.calls.take maxSteps).map fun call => (call.nodeId, call.outcome)
  initial : trace.initial = ContextSnapshot.capture ctx opts {}
  snapshots : trace.steps.map (·.after) =
    snapshotsOf opts (PreviousBodies.of ctx) ((run.calls.take maxSteps).map (·.after))
  status : trace.status = run.context.response.statusCode
  request : trace.method = run.context.request.method ∧ trace.path = run.context.request.path

theorem logs_finish {opts : CaptureOptions} {maxSteps : Nat} {ctx : Context} {σ : Type}
    {run : PipelineRun σ} {visits : List Visit} (h : visits.map Visit.call = run.calls) (id : String)
    (seq : UInt64) (policy : String) :
    Logs opts maxSteps ctx run
      ((visits.foldl TraceRecorder.record (TraceRecorder.new ctx opts maxSteps)).finish id seq
        .sandbox none policy run.context) := by
  have hsteps : (visits.foldl TraceRecorder.record (TraceRecorder.new ctx opts maxSteps)).steps =
      stepsOf opts (PreviousBodies.of ctx) 0 (visits.take maxSteps) := by
    rw [foldl_record_steps]
    rfl
  obtain ⟨hids, hsnapshots⟩ := stepsOf_log opts (visits.take maxSteps) (PreviousBodies.of ctx) 0
  refine ⟨?_, ?_, ?_, rfl, rfl, rfl⟩
  · show List.map _ (visits.foldl TraceRecorder.record _).steps = _
    rw [hsteps, hids, ← h, ← List.map_take, List.map_map]
    rfl
  · exact foldl_record_initial visits _
  · show List.map _ (visits.foldl TraceRecorder.record _).steps = _
    rw [hsteps, hsnapshots, ← h, ← List.map_take, List.map_map]
    rfl

end Log

section Sandbox

variable [CaseMapping] [JsonText] [Base64] [SerdeText] {σ : Type}

/-- The run was refused: no plugin was called, and no trace was stored. -/
structure RefusedRun (store : DebugState) (w : σ) (out : SandboxOutcome σ) : Prop where
  answer : ∃ error, out.answer = .badRequest error
  store : out.store = store
  world : out.world = some w

/-- The run took place: `run` is what its stages did, and its log is stored and answered. -/
structure LoggedRun (settings : SandboxSettings) (store : DebugState) (id : String) (ctx : Context)
    (run : PipelineRun σ) (out : SandboxOutcome σ) : Prop where
  world : out.world = some run.world
  logged : ∃ trace : Trace, Logs settings.options settings.maxSteps ctx run trace ∧
    trace.id = id ∧ trace.seq = store.nextSeq.1 ∧ trace.source = .sandbox ∧ trace.route = none ∧
    out.answer = .ran "nodes" "__sandbox" id (renderTrace trace) ∧
    out.store = store.nextSeq.2.record trace

end Sandbox

section Blame

/-- What a snapshot reports to differ between two contexts: bodies by their length, the rest as it
    is shown. -/
def Changed [CaseMapping] (opts : CaptureOptions) (before after : Context) (field : Field) : Prop :=
  Reported (ContextSnapshot.capture before opts {}) (ContextSnapshot.capture after opts {}) field

/-- Whatever differs over two stretches differs over one of them. -/
theorem reported_or {a b c : ContextSnapshot} {field : Field} (h : Reported a c field) :
    Reported a b field ∨ Reported b c field := by
  by_contra hnone
  obtain ⟨hab, hbc⟩ := not_or.mp hnone
  cases field with
  | requestBody => exact h ((not_not.mp hab).trans (not_not.mp hbc))
  | responseBody => exact h ((not_not.mp hab).trans (not_not.mp hbc))
  | error i =>
    -- an error that is new at the end was new at some step
    obtain ⟨hge, hlt⟩ := h
    have hb : ¬ i < b.errors.length := fun hlt' => hab ⟨hge, hlt'⟩
    exact hbc ⟨Nat.not_lt.mp hb, hlt⟩
  | _ => exact h ((not_not.mp hab).trans (not_not.mp hbc))

variable [CaseMapping] {opts : CaptureOptions}

/-- What is reported does not depend on the bodies seen before. -/
theorem reported_capture {before after : Context} {prev next : PreviousBodies} {field : Field} :
    Reported (ContextSnapshot.capture before opts prev) (ContextSnapshot.capture after opts next)
      field ↔ Changed opts before after field := by
  have hlen : ∀ (body : Bytes) (prev : Option Bytes),
      (captureBody body prev opts).len = (captureBody body none opts).len := by
    intro body prev
    rw [captureBody_len, captureBody_len]
  cases field with
  | requestBody =>
    show (captureBody _ _ _).len ≠ (captureBody _ _ _).len ↔ _
    rw [hlen before.request.body, hlen after.request.body]
    rfl
  | responseBody =>
    show (captureBody _ _ _).len ≠ (captureBody _ _ _).len ↔ _
    rw [hlen before.response.body, hlen after.response.body]
    rfl
  | _ => rfl

variable [JsonText]

/-- The changes of a step are what its visit changed. -/
theorem changes_of_visit :
    ∀ {visits : List Visit} {ctx : Context} {prev : PreviousBodies} {i k : Nat} {step : NodeStep}
      {changes : List Change},
      (renderSteps (ContextSnapshot.capture ctx opts prev)
        (stepsOf opts (PreviousBodies.of ctx) i visits))[k]? = some (step, changes) →
      ∃ before v, (ctx :: visits.map (·.after))[k]? = some before ∧ visits[k]? = some v ∧
        step.nodeId = v.nodeId ∧
        ∀ field, Lists changes field.path ↔ Changed opts before v.after field := by
  intro visits
  induction visits with
  | nil => intro ctx prev i k step changes h; cases h
  | cons v visits ih =>
    intro ctx prev i k step changes h
    cases k with
    | zero =>
      obtain ⟨rfl, rfl⟩ := Prod.mk.inj (Option.some.inj h)
      exact ⟨ctx, v, rfl, rfl, rfl, fun field => (listed_iff field).trans reported_capture⟩
    | succ k =>
      obtain ⟨before, v', hbefore, hv', hid, hchanges⟩ := ih h
      exact ⟨before, v', hbefore, hv', hid, hchanges⟩

/-- A difference between the ends of a walk is listed at one of its steps.  Induction on the
    visits: the first of them made it, or it is made behind. -/
theorem exists_change {field : Field} {c : Context} :
    ∀ {visits : List Visit} {ctx : Context} {prev : PreviousBodies} {i : Nat},
      (visits.map (·.after)).getLast?.getD ctx = c → Changed opts ctx c field →
      ∃ (k : Nat) (step : NodeStep) (changes : List Change),
        (renderSteps (ContextSnapshot.capture ctx opts prev)
        (stepsOf opts (PreviousBodies.of ctx) i visits))[k]? = some (step, changes) ∧
        Lists changes field.path := by
  intro visits
  induction visits with
  | nil =>
    intro ctx prev i hlast hchanged
    obtain rfl : ctx = c := hlast
    exfalso
    cases field with
    | error j => exact absurd hchanged.2 (Nat.not_lt.mpr hchanged.1)
    | _ => exact hchanged rfl
  | cons v visits ih =>
    intro ctx prev i hlast hchanged
    have hlast' : (visits.map (·.after)).getLast?.getD v.after = c := by
      rw [List.map_cons, List.getLast?_cons] at hlast
      exact hlast
    rcases reported_or (b := ContextSnapshot.capture v.after opts {}) hchanged with hfirst | hrest
    · exact ⟨0, _, _, rfl, (listed_iff field).mpr (reported_capture.mpr hfirst)⟩
    · obtain ⟨k, step, changes, hentry, hlists⟩ := ih (i := i + 1) hlast' hrest
      exact ⟨k + 1, step, changes, hentry, hlists⟩

omit [CaseMapping] [JsonText] in
/-- A walk ends with the context of its last visit. -/
theorem walk_last {σ : Type} {g : CompiledGraph σ} {id : String} {ctx c : Context} {w w' : σ}
    {visits : List Visit} (h : g.Walk id ctx w visits c w') :
    (visits.map (·.after)).getLast?.getD ctx = c := by
  induction h with
  | last hv hend => rfl
  | step hv hnext hrest ih =>
    rw [List.map_cons, List.getLast?_cons]
    exact ih

end Blame

end Featherbit
