/-
  DEBUG MODE (what `handle_request` of `server/listener.rs` does for it, with `debug/store.rs`).

  With debug mode on, a request may be traced: a recorder is told of every visit of its walk, and
  when the walk is over the request draws a number and records its trace, before it is answered.
  Meanwhile other requests are served and calls apply configs.

  1. **The replies** (`RequestStage.reply`) — a 404, a tunnel, or what the final context is sent as;
     a caller that asked for the trace gets its id in one more header.
  2. **Nothing else changes** (`debugging_invisible`) — without its watches and its store, a run of
     the gateway is a run without debug mode, step by step or standing still; every run without
     debug mode comes about so, with the same replies but for that header.
  3. **A trace is of one request** (`recorded_traces`) — in the store are, in the order in which they
     were recorded, the traces of requests that were answered: each request at most once, each trace
     with the visits of its own request, however the requests were interleaved.
-/
import Featherbit.Debug.Store
import Featherbit.Server.Serving
import Featherbit.Server.WebSocket

namespace Featherbit

open Interleave Relation

/-- The settings of debug mode; the size of the buffer is in `DebugState`. -/
structure DebugSettings where
  enabled : Bool
  traceAll : Bool
  triggerHeader : String
  opts : CaptureOptions
  maxSteps : Nat

namespace DebugSettings

variable (d : DebugSettings) (headers : HashMap (List String))

/-- Whether a request is traced. -/
def shouldTrace : Bool :=
  if d.enabled then d.traceAll || headers.contains d.triggerHeader else false

/-- Whether the request asked for its trace, as opposed to being swept up by `trace_all`. -/
def headerOptIn : Bool := d.enabled && headers.contains d.triggerHeader

theorem shouldTrace_of_headerOptIn (h : d.headerOptIn headers = true) : d.shouldTrace headers = true := by
  rw [headerOptIn, Bool.and_eq_true] at h
  rw [shouldTrace, if_pos h.1, h.2, Bool.or_true]

end DebugSettings

/-- `NO_ROUTE_POLICY`. -/
def noRoutePolicy : String := "(no route matched)"

/-- The headers a request came with. -/
def Incoming.headers (req : Incoming) : HashMap (List String) := req.gatewayRequest.headers

/-! ## The replies -/

inductive Reply where
  | sent (response : HttpResponse)
  /-- a tunnel is opened -/
  | upgraded (upgrade : Upgrade)
  /-- the `unwrap` on the builder meets an error -/
  | panicked

/-- What becomes of a builder. -/
def Reply.ofBuilder : Option HttpResponse → Reply
  | some response => .sent response
  | none => .panicked

section Replies

variable [HttpTypes] {σ : Type}

/-- The reply to a request without a route. -/
def notFound (traceId : Option String) : Option HttpResponse :=
  let builder := addHeader (some { status := 404, headers := [], body := [] })
    ("content-type", "application/json")
  let builder := (traceFields traceId).foldl addHeader builder
  builder.map fun response => { response with
    body := asBytes "\x7b\"error\": \"not_found\", \"message\": \"No route matched\"\x7d" }

/-- The reply to a request whose walk is over. -/
def ServedRequest.reply (served : ServedRequest σ) (ctx : Context) (traceId : Option String) : Reply :=
  match served.request.upgrade ctx with
  | some upgrade => .upgraded upgrade
  | none => .ofBuilder (respond ctx traceId)

def RequestStage.reply (traceId : Option String) : RequestStage σ → Option Reply
  | .waiting .. | .walking .. => none
  | .unrouted .. => some (.ofBuilder (notFound traceId))
  | .answered served ctx _ => some (served.reply ctx traceId)

/-- The reply with the header that names the trace. -/
def Reply.tagged (traceId : Option String) : Reply → Reply
  | .sent response => .ofBuilder ((traceFields traceId).foldl addHeader (some response))
  | reply => reply

/-- The body may be set before the last headers are added. -/
theorem foldl_addHeader_body (body : Bytes) (fields : List (String × String))
    (builder : Option HttpResponse) :
    (fields.foldl addHeader builder).map (fun response => { response with body := body }) =
      fields.foldl addHeader (builder.map fun response => { response with body := body }) := by
  induction fields generalizing builder with
  | nil => rfl
  | cons field fields ih =>
    rw [List.foldl_cons, List.foldl_cons, ih]
    congr 1
    cases builder with
    | none => rfl
    | some response =>
      simp only [addHeader, Option.bind_eq_bind, Option.bind_some, Option.map_some]
      cases HttpTypes.headerName field.1 with
      | none => rfl
      | some name =>
        cases HttpTypes.headerValue field.2 with
        | none => rfl
        | some value =>
          simp only [Option.bind_some]
          split <;> rfl

/-- A builder that is told the trace last. -/
theorem ofBuilder_traced (body : Bytes) (builder : Option HttpResponse) (traceId : Option String) :
    Reply.ofBuilder (((traceFields traceId).foldl addHeader builder).map
        fun response => { response with body := body }) =
      (Reply.ofBuilder (builder.map fun response => { response with body := body })).tagged traceId := by
  rw [foldl_addHeader_body]
  cases builder with
  | none =>
    rw [Option.map_none, foldl_addHeader_none]
    rfl
  | some response => rfl

/-- **The trace id is all that a reply tells of debug mode.** -/
theorem reply_traced (stage : RequestStage σ) (traceId : Option String) :
    stage.reply traceId = (stage.reply none).map (Reply.tagged traceId) := by
  cases stage with
  | waiting | walking => rfl
  | unrouted request startMs version =>
    exact congrArg some (ofBuilder_traced _ _ traceId)
  | answered served ctx visits =>
    show some (served.reply ctx traceId) = some ((served.reply ctx none).tagged traceId)
    rw [ServedRequest.reply, ServedRequest.reply]
    cases served.request.upgrade ctx with
    | some upgrade => rfl
    | none => exact congrArg some (ofBuilder_traced _ _ traceId)

end Replies

/-! ## The system -/

/-- What debug mode holds for a request. -/
inductive Watch where
  | unwatched
  | recording (recorder : TraceRecorder)
  /-- the walk is over, the trace has no number yet -/
  | finished (run : TracedRun)
  | numbered (run : TracedRun) (seq : UInt64)
  | recorded (run : TracedRun) (seq : UInt64)

/-- The trace that was recorded. -/
def Watch.trace : Watch → Option Trace
  | .recorded run seq => some (run.trace seq)
  | _ => none

section Watch

variable [CaseMapping] {σ : Type} (d : DebugSettings) (id : String)

/-- The recording of a request without a route: no steps, and a status of 404. -/
def unroutedRun (request : Incoming) : TracedRun :=
  let ctx := Context.new
    (GatewayRequest.fromHyper request.parts (request.body.getD []) request.remoteAddr)
  let ctx := { ctx with response := { ctx.response with statusCode := 404 } }
  { recorder := TraceRecorder.new ctx d.opts d.maxSteps
    id := id
    source := .request
    route := none
    policy := noRoutePolicy
    finalCtx := ctx }

/-- The recorder is told of the visit just made. -/
def Watch.tell (watch : Watch) (visit : Visit) : Watch :=
  match watch with
  | .recording recorder => .recording (recorder.record visit)
  | watch => watch

/-- The recording is over with the walk. -/
def Watch.seal (watch : Watch) (served : ServedRequest σ) (ctx : Context) : Watch :=
  match watch with
  | .recording recorder => .finished {
      recorder := recorder
      id := id
      source := .request
      route := some served.route.name
      policy := served.route.policy
      finalCtx := ctx }
  | watch => watch

/-- What a step of the request to a stage makes of its watch. -/
def Watch.follow (watch : Watch) : RequestStage σ → Watch
  | .waiting .. => watch
  | .unrouted request _ _ =>
    if d.shouldTrace (unroutedRun d id request).finalCtx.request.headers then
      .finished (unroutedRun d id request)
    else .unwatched
  | .walking _ _ ctx visits =>
    match visits.getLast? with
    | some visit => watch.tell visit
    | none =>
      if d.shouldTrace ctx.request.headers then .recording (TraceRecorder.new ctx d.opts d.maxSteps)
      else .unwatched
  | .answered served ctx visits =>
    match visits.getLast? with
    | some visit => (watch.tell visit).seal id served ctx
    | none => watch

end Watch

/-- The gateway at work, in debug mode. -/
structure Debugged (ι κ σ : Type) where
  serving : Serving ι κ σ
  watches : κ → Watch
  store : StoreState
  /-- the requests whose traces were recorded, in that order -/
  log : List κ
  /-- how many of them before the last `clear` -/
  cleared : Nat

section Step

variable {ι κ σ : Type} [DecidableEq ι] [DecidableEq κ] [CaseMapping] (env : Env)
  (factory : PluginFactory σ) (d : DebugSettings) (ids : κ → String)

/-- One step of anyone; request `k` draws the trace id `ids k`. -/
inductive DebuggedStep (s : Debugged ι κ σ) : Debugged ι κ σ → Prop where
  | call {i : ι} {c : Config ι (Stage σ) (Shared ι σ)}
      (h : (calls env factory).fire i s.serving.calls = some c) :
      DebuggedStep s { s with serving := { s.serving with
        calls := c, versions := noteVersion i (c.threads i) s.serving.versions } }
  | request {k : κ} {stage : RequestStage σ} {w : σ}
      (h : requestStep s.serving.calls.shared (s.serving.versions.length - 1) (s.serving.requests k)
        s.serving.world = some (stage, w)) :
      DebuggedStep s { s with
        serving := { s.serving with
          requests := Function.update s.serving.requests k stage, world := w }
        watches := Function.update s.watches k ((s.watches k).follow d (ids k) stage) }
  | background (w : σ) : DebuggedStep s { s with serving := { s.serving with world := w } }
  /-- `next_seq` -/
  | number {k : κ} {run : TracedRun} (h : s.watches k = .finished run) :
      DebuggedStep s { s with
        watches := Function.update s.watches k (.numbered run s.store.debug.nextSeq.1)
        store := { s.store with debug := s.store.debug.nextSeq.2 } }
  /-- `record` -/
  | record {k : κ} {run : TracedRun} {seq : UInt64} (h : s.watches k = .numbered run seq) :
      DebuggedStep s { s with
        watches := Function.update s.watches k (.recorded run seq)
        store := { debug := s.store.debug.record (run.trace seq)
                   recorded := s.store.recorded ++ [run.trace seq] }
        log := s.log ++ [k] }
  /-- the traces are cleared through the admin API -/
  | clear : DebuggedStep s { s with
      store := { debug := s.store.debug.clear.2, recorded := [] }, cleared := s.log.length }

/-- The states of a run. -/
def Debugs : Debugged ι κ σ → Debugged ι κ σ → Prop :=
  ReflTransGen (DebuggedStep env factory d ids)

/-- Nothing has been traced yet. -/
def startDebugged (jobs : ι → Job) (requests : κ → Incoming × UInt64) (tables : Tables σ) (w : σ)
    (maxTraces : Nat) : Debugged ι κ σ where
  serving := startServing jobs requests tables w
  watches _ := .unwatched
  store := { debug := DebugState.new maxTraces, recorded := [] }
  log := []
  cleared := 0

variable [HttpTypes]

/-- The reply to a request, once it is sent: a traced request is answered after its trace was
    recorded. -/
def Debugged.reply (s : Debugged ι κ σ) (k : κ) : Option Reply :=
  match s.watches k with
  | .unwatched => (s.serving.requests k).reply none
  | .recorded run _ => (s.serving.requests k).reply
      (if d.headerOptIn (s.serving.requests k).input.1.headers then some run.id else none)
  | .recording _ | .finished _ | .numbered .. => none

end Step

/-! ## What is held for a request -/

section Watches

variable [CaseMapping] {σ : Type} {d : DebugSettings} {id : String}

variable (d id) in
/-- The recording of a request whose walk is over. -/
def servedRun (served : ServedRequest σ) (ctx : Context) (visits : List Visit) : TracedRun where
  recorder := visits.foldl TraceRecorder.record
    (TraceRecorder.new (served.request.context served.startMs) d.opts d.maxSteps)
  id := id
  source := .request
  route := some served.route.name
  policy := served.route.policy
  finalCtx := ctx

variable (d id) in
/-- The recording that is stored for a request. -/
def RequestStage.finalRun : RequestStage σ → Option TracedRun
  | .waiting .. | .walking .. => none
  | .unrouted request _ _ => some (unroutedRun d id request)
  | .answered served ctx visits => some (servedRun d id served ctx visits)

/-- The recording is on its way to the store, or there. -/
inductive Watch.Holds (run : TracedRun) : Watch → Prop where
  | finished : Holds run (.finished run)
  | numbered (seq : UInt64) : Holds run (.numbered run seq)
  | recorded (seq : UInt64) : Holds run (.recorded run seq)

variable (d id) in
/-- The watch of a request at a stage. -/
inductive Watches : RequestStage σ → Watch → Prop where
  | waiting {request : Incoming} {startMs : UInt64} : Watches (.waiting request startMs) .unwatched
  | unwatched {stage : RequestStage σ} (h : d.shouldTrace stage.input.1.headers = false) :
      Watches stage .unwatched
  | recording {served : ServedRequest σ} {nodeId : String} {ctx : Context} {visits : List Visit}
      (h : d.shouldTrace served.request.headers = true) :
      Watches (.walking served nodeId ctx visits) (.recording (visits.foldl TraceRecorder.record
        (TraceRecorder.new (served.request.context served.startMs) d.opts d.maxSteps)))
  | holds {stage : RequestStage σ} {watch : Watch} {run : TracedRun}
      (h : d.shouldTrace stage.input.1.headers = true) (hrun : stage.finalRun d id = some run)
      (hholds : watch.Holds run) : Watches stage watch

theorem headers_unroutedRun (request : Incoming) :
    (unroutedRun d id request).finalCtx.request.headers = request.headers := by
  obtain ⟨protocol, hrequest⟩ := request.gatewayRequest_eq
  rw [Incoming.headers, hrequest]
  rfl

/-- One visit further. -/
theorem follow_visited {served : ServedRequest σ} {nodeId : String} (next : String) {ctx : Context}
    {visits : List Visit} {watch : Watch} (h : Watches d id (.walking served nodeId ctx visits) watch)
    (v : Visit) :
    Watches d id (.walking served next v.after (visits ++ [v]))
      (watch.follow d id (.walking served next v.after (visits ++ [v]))) ∧
    Watches d id (.answered served v.after (visits ++ [v]))
      (watch.follow d id (.answered served v.after (visits ++ [v]))) := by
  have hlast : (visits ++ [v]).getLast? = some v := List.getLast?_concat
  simp only [Watch.follow, hlast]
  cases h with
  | unwatched h => exact ⟨.unwatched h, .unwatched h⟩
  | recording h =>
    have hfold : (visits.foldl TraceRecorder.record (TraceRecorder.new
        (served.request.context served.startMs) d.opts d.maxSteps)).record v =
        (visits ++ [v]).foldl TraceRecorder.record (TraceRecorder.new
          (served.request.context served.startMs) d.opts d.maxSteps) := by
      rw [List.foldl_append]
      rfl
    simp only [Watch.tell, hfold]
    exact ⟨.recording h, .holds h rfl .finished⟩
  | holds h hrun => cases hrun

/-- **The request's step, and what debug mode makes of it.** -/
theorem watches_step {ι : Type} {shared : Shared ι σ} {newest : Nat} {stage stage' : RequestStage σ}
    {w w' : σ} {watch : Watch} (h : Watches d id stage watch)
    (hstep : requestStep shared newest stage w = some (stage', w')) :
    Watches d id stage' (watch.follow d id stage') := by
  cases stage with
  | waiting request startMs =>
    rw [requestStep] at hstep
    split at hstep
    · cases hstep
    · split at hstep
      · obtain ⟨rfl, -⟩ := Prod.mk.inj (Option.some.inj hstep)
        rw [Watch.follow, headers_unroutedRun]
        split
        · rename_i htrace
          exact .holds htrace rfl .finished
        · rename_i htrace
          exact .unwatched (Bool.eq_false_iff.mpr htrace)
      · obtain ⟨rfl, -⟩ := Prod.mk.inj (Option.some.inj hstep)
        show Watches d id _ (if d.shouldTrace request.headers = true then _ else _)
        split
        · rename_i htrace
          exact Watches.recording htrace
        · rename_i htrace
          exact .unwatched (Bool.eq_false_iff.mpr htrace)
  | walking served nodeId ctx visits =>
    obtain ⟨v, hv⟩ : ∃ v, (served.graph.visit nodeId ctx w).1 = v := ⟨_, rfl⟩
    simp only [requestStep, hv] at hstep
    split at hstep
    · rename_i next hnext
      obtain ⟨rfl, -⟩ := Prod.mk.inj (Option.some.inj hstep)
      exact (follow_visited next h v).1
    · obtain ⟨rfl, -⟩ := Prod.mk.inj (Option.some.inj hstep)
      exact (follow_visited nodeId h v).2
  | unrouted | answered => cases hstep

theorem trace_tell {watch : Watch} (h : watch.trace = none) (v : Visit) : (watch.tell v).trace = none := by
  cases watch with
  | recording => rfl
  | unwatched | finished | numbered | recorded => exact h

omit [CaseMapping] in
theorem trace_seal {watch : Watch} (h : watch.trace = none) (served : ServedRequest σ) (ctx : Context) :
    (watch.seal id served ctx).trace = none := by
  cases watch with
  | recording => rfl
  | unwatched | finished | numbered | recorded => exact h

/-- A step of the request records nothing. -/
theorem trace_follow {watch : Watch} (h : watch.trace = none) (stage : RequestStage σ) :
    (watch.follow d id stage).trace = none := by
  cases stage with
  | waiting => exact h
  | unrouted =>
    rw [Watch.follow]
    split <;> rfl
  | walking served nodeId ctx visits =>
    simp only [Watch.follow]
    split
    · exact trace_tell h _
    · split <;> rfl
  | answered served ctx visits =>
    simp only [Watch.follow]
    split
    · exact trace_seal (trace_tell h _) served ctx
    · exact h

/-- Before the walk is over nothing is recorded. -/
theorem Watches.trace_eq_none {ι : Type} {shared : Shared ι σ} {newest : Nat} {stage stage' : RequestStage σ}
    {w w' : σ} {watch : Watch} (h : Watches d id stage watch)
    (hstep : requestStep shared newest stage w = some (stage', w')) : watch.trace = none := by
  cases h with
  | waiting | unwatched | recording => rfl
  | holds h hrun hholds =>
    cases stage with
    | waiting | walking => cases hrun
    | unrouted | answered => cases hstep

/-- A recording goes on its way. -/
theorem Watches.pass {stage : RequestStage σ} {watch watch' : Watch} {run : TracedRun}
    (h : Watches d id stage watch) (hold : watch.Holds run) (hnew : watch'.Holds run) :
    Watches d id stage watch' := by
  cases h with
  | waiting | unwatched | recording => cases hold
  | holds h hrun hholds =>
    cases hold with
    | finished | numbered | recorded =>
      cases hholds
      exact .holds h hrun hnew

variable (d) in
/-- A trace of visits from one context to another. -/
structure TraceOf (id : String) (route : Option String) (policy : String) (first last : Context)
    (visits : List Visit) (t : Trace) : Prop where
  id : t.id = id
  source : t.source = .request
  route : t.route = route
  policy : t.policy = policy
  method : t.method = last.request.method
  path : t.path = last.request.path
  status : t.status = last.response.statusCode
  initial : t.initial = ContextSnapshot.capture first d.opts {}
  /-- the visits, as many of them as are recorded -/
  steps : t.steps = stepsOf d.opts (PreviousBodies.of first) 0 (visits.take d.maxSteps)

variable (d id) in
/-- The trace is that of the request. -/
def Tells (stage : RequestStage σ) (t : Trace) : Prop :=
  match stage with
  | .waiting .. | .walking .. => False
  | .unrouted request _ _ => TraceOf d id none noRoutePolicy (unroutedRun d id request).finalCtx
      (unroutedRun d id request).finalCtx [] t
  | .answered served ctx visits => TraceOf d id (some served.route.name) served.route.policy
      (served.request.context served.startMs) ctx visits t

theorem tells_trace {stage : RequestStage σ} {run : TracedRun} (h : stage.finalRun d id = some run)
    (seq : UInt64) : Tells d id stage (run.trace seq) := by
  cases stage with
  | waiting | walking => cases h
  | unrouted request startMs version =>
    rw [← Option.some.inj h]
    exact ⟨rfl, rfl, rfl, rfl, rfl, rfl, rfl, rfl, by rw [List.take_nil]; rfl⟩
  | answered served ctx visits =>
    rw [← Option.some.inj h]
    refine ⟨rfl, rfl, rfl, rfl, rfl, rfl, rfl, ?_, ?_⟩
    · exact foldl_record_initial visits _
    · exact foldl_record_steps visits _

omit [CaseMapping] in
/-- Where nothing is left out, what a list is mapped to goes with it. -/
theorem forall₂_filterMap {α β : Type} {R : α → β → Prop} {f : α → Option β} {l : List α}
    (h : ∀ a ∈ l, ∃ b, f a = some b ∧ R a b) : List.Forall₂ R l (l.filterMap f) := by
  induction l with
  | nil => exact .nil
  | cons a l ih =>
    obtain ⟨b, hb, hab⟩ := h a List.mem_cons_self
    rw [List.filterMap_cons_some hb]
    exact .cons hab (ih fun a' ha' => h a' (List.mem_cons_of_mem a ha'))

end Watches

/-! ## Nothing else changes -/

section Run

variable {ι κ σ : Type} [DecidableEq ι] [DecidableEq κ] [CaseMapping] {env : Env}
  {factory : PluginFactory σ} {d : DebugSettings} {ids : κ → String} {jobs : ι → Job}
  {requests : κ → Incoming × UInt64} {tables : Tables σ} {maxTraces : Nat} {s s' : Debugged ι κ σ}
  {w : σ}

/-- A step of the gateway, or of debug mode alone. -/
theorem serves_of_step (h : DebuggedStep env factory d ids s s') :
    Serves env factory s.serving s'.serving := by
  cases h with
  | call h => exact .single (.call h)
  | request h => exact .single (.request h)
  | background w => exact .single (.background w)
  | number | record | clear => exact .refl

theorem serves_of_debugs (h : Debugs env factory d ids s s') :
    Serves env factory s.serving s'.serving := by
  induction h with
  | refl => exact .refl
  | tail _ hstep ih => exact ih.trans (serves_of_step hstep)

/-- What holds at every moment. -/
structure DebugInv (d : DebugSettings) (ids : κ → String) (maxTraces : Nat) (s : Debugged ι κ σ) :
    Prop where
  watches : ∀ k, Watches d (ids k) (s.serving.requests k) (s.watches k)
  nodup : s.log.Nodup
  logged : ∀ k, k ∈ s.log ↔ ((s.watches k).trace).isSome
  store : StoreInv maxTraces s.store
  cleared : s.cleared ≤ s.log.length
  traces : s.store.recorded = (s.log.drop s.cleared).filterMap fun k => (s.watches k).trace

omit [DecidableEq ι] [DecidableEq κ] in
theorem debugInv_start :
    DebugInv d ids maxTraces (startDebugged (ι := ι) jobs requests tables w maxTraces) where
  watches k := .waiting
  nodup := List.nodup_nil
  logged k := by simp [startDebugged, Watch.trace]
  store := ⟨rfl, List.drop_nil.symm⟩
  cleared := Nat.le_refl 0
  traces := rfl

omit [DecidableEq ι] in
/-- A watch that was not recorded yet may change. -/
theorem trace_update {k : κ} (h : DebugInv d ids maxTraces s) (hnone : (s.watches k).trace = none)
    (watch : Watch) :
    k ∉ s.log ∧ ∀ j ∈ s.log, (Function.update s.watches k watch j).trace = (s.watches j).trace := by
  have hnot : k ∉ s.log := by
    rw [h.logged k, hnone]
    exact Bool.false_ne_true
  refine ⟨hnot, fun j hj => ?_⟩
  have hne : j ≠ k := fun heq => hnot (heq ▸ hj)
  rw [Function.update_of_ne hne]

omit [DecidableEq ι] in
/-- A request whose watch changes without being recorded. -/
theorem debugInv_update {k : κ} {watch : Watch} (h : DebugInv d ids maxTraces s)
    (hnone : (s.watches k).trace = none) (hwatch : watch.trace = none) :
    (∀ j, j ∈ s.log ↔ ((Function.update s.watches k watch j).trace).isSome) ∧
    s.store.recorded =
      (s.log.drop s.cleared).filterMap fun j => (Function.update s.watches k watch j).trace := by
  obtain ⟨hnot, hsame⟩ := trace_update h hnone watch
  constructor
  · intro j
    by_cases hj : j = k
    · subst hj
      rw [Function.update_self, hwatch]
      exact iff_of_false hnot Bool.false_ne_true
    · rw [Function.update_of_ne hj]
      exact h.logged j
  · rw [h.traces]
    exact List.filterMap_congr fun j hj => (hsame j (List.mem_of_mem_drop hj)).symm

/-- **Anyone's step keeps it.** -/
theorem debugInv_step (h : DebugInv d ids maxTraces s) (hstep : DebuggedStep env factory d ids s s') :
    DebugInv d ids maxTraces s' := by
  have hpass : ∀ {k : κ} {run : TracedRun} {watch : Watch}, (s.watches k).Holds run → watch.Holds run →
      ∀ j, Watches d (ids j) (s.serving.requests j) (Function.update s.watches k watch j) := by
    intro k run watch hold hnew j
    by_cases hj : j = k
    · subst hj
      rw [Function.update_self]
      exact (h.watches j).pass hold hnew
    · rw [Function.update_of_ne hj]
      exact h.watches j
  cases hstep with
  | call | background => exact ⟨h.watches, h.nodup, h.logged, h.store, h.cleared, h.traces⟩
  | @request k stage w' hrequest =>
    have hnone := (h.watches k).trace_eq_none hrequest
    obtain ⟨hlogged, htraces⟩ := debugInv_update h hnone (trace_follow hnone stage)
    refine ⟨fun j => ?_, h.nodup, hlogged, h.store, h.cleared, htraces⟩
    by_cases hj : j = k
    · subst hj
      simp only [Function.update_self]
      exact watches_step (h.watches j) hrequest
    · simp only [Function.update_of_ne hj]
      exact h.watches j
  | @number k run hwatch =>
    have hnone : (s.watches k).trace = none := by
      rw [hwatch]
      rfl
    obtain ⟨hlogged, htraces⟩ := debugInv_update h hnone (show
      (Watch.numbered run s.store.debug.nextSeq.1).trace = none from rfl)
    exact ⟨hpass (by rw [hwatch]; exact .finished) (.numbered _), h.nodup, hlogged,
      ⟨h.store.size, h.store.buffer⟩, h.cleared, htraces⟩
  | @record k run seq hwatch =>
    obtain ⟨hnot, hsame⟩ := trace_update h (by rw [hwatch]; rfl) (.recorded run seq)
    refine ⟨hpass (by rw [hwatch]; exact .numbered _) (.recorded _), ?_, ?_, ?_, ?_, ?_⟩
    · exact List.Nodup.append h.nodup (List.nodup_singleton k)
        (List.disjoint_singleton.mpr hnot)
    · intro j
      show j ∈ s.log ++ [k] ↔ ((Function.update s.watches k (.recorded run seq) j).trace).isSome
      by_cases hj : j = k
      · subst hj
        rw [Function.update_self]
        exact iff_of_true (List.mem_append_right _ List.mem_cons_self) rfl
      · rw [Function.update_of_ne hj, List.mem_append, List.mem_singleton, or_iff_left hj]
        exact h.logged j
    · have hsize := h.store.size
      subst hsize
      refine ⟨?_, DebugState.record_tail _ h.store.buffer⟩
      show (s.store.debug.record (run.trace seq)).maxTraces = _
      rw [DebugState.record]
      split <;> rfl
    · show s.cleared ≤ (s.log ++ [k]).length
      rw [List.length_append]
      exact Nat.le_add_right_of_le h.cleared
    · show s.store.recorded ++ [run.trace seq] = ((s.log ++ [k]).drop s.cleared).filterMap
        fun j => (Function.update s.watches k (.recorded run seq) j).trace
      rw [List.drop_append_of_le_length h.cleared, List.filterMap_append, h.traces]
      congr 1
      · exact List.filterMap_congr fun j hj => (hsame j (List.mem_of_mem_drop hj)).symm
      · rw [List.filterMap_cons, Function.update_self]
        rfl
  | clear =>
    refine ⟨h.watches, h.nodup, h.logged, ⟨h.store.size, List.drop_nil.symm⟩,
      Nat.le_refl _, ?_⟩
    show [] = (s.log.drop s.log.length).filterMap _
    rw [List.drop_length]
    rfl

theorem debugInv_of_debugs
    (h : Debugs env factory d ids (startDebugged jobs requests tables w maxTraces) s) :
    DebugInv d ids maxTraces s := by
  induction h with
  | refl => exact debugInv_start
  | tail _ hstep ih => exact debugInv_step ih hstep

/-- No recording is on its way. -/
def Watch.Settled : Watch → Prop
  | .finished _ | .numbered .. => False
  | .unwatched | .recording _ | .recorded .. => True

/-- What is on its way for one request can be recorded at once. -/
theorem exists_settled (k : κ) (hothers : ∀ j, j ≠ k → (s.watches j).Settled) :
    ∃ s', Debugs env factory d ids s s' ∧ s'.serving = s.serving ∧ ∀ j, (s'.watches j).Settled := by
  have hrecord : ∀ (s : Debugged ι κ σ) (run : TracedRun) (seq : UInt64), s.watches k = .numbered run seq →
      (∀ j, j ≠ k → (s.watches j).Settled) →
      ∃ s', DebuggedStep env factory d ids s s' ∧ s'.serving = s.serving ∧
        ∀ j, (s'.watches j).Settled := by
    intro s run seq hwatch hothers
    refine ⟨_, .record hwatch, rfl, fun j => ?_⟩
    show (Function.update s.watches k (.recorded run seq) j).Settled
    by_cases hj : j = k
    · rw [hj, Function.update_self]
      trivial
    · rw [Function.update_of_ne hj]
      exact hothers j hj
  cases hwatch : s.watches k with
  | finished run =>
    obtain ⟨s', hstep, hserving, hsettled⟩ := hrecord
      { s with
        watches := Function.update s.watches k (.numbered run s.store.debug.nextSeq.1)
        store := { s.store with debug := s.store.debug.nextSeq.2 } }
      run _ (Function.update_self _ _ _) (fun j hj => by
        show (Function.update s.watches k _ j).Settled
        rw [Function.update_of_ne hj]
        exact hothers j hj)
    exact ⟨s', (ReflTransGen.single (.number hwatch)).tail hstep, hserving, hsettled⟩
  | numbered run seq =>
    obtain ⟨s', hstep, hserving, hsettled⟩ := hrecord s run seq hwatch hothers
    exact ⟨s', .single hstep, hserving, hsettled⟩
  | unwatched | recording | recorded =>
    refine ⟨s, .refl, rfl, fun j => ?_⟩
    by_cases hj : j = k
    · rw [hj, hwatch]
      trivial
    · exact hothers j hj

/-- Debug mode holds no run of the gateway up. -/
theorem debugs_of_serves {p : Serving ι κ σ}
    (h : Serves env factory (startServing jobs requests tables w) p) :
    ∃ s, Debugs env factory d ids (startDebugged jobs requests tables w maxTraces) s ∧
      s.serving = p ∧ ∀ j, (s.watches j).Settled := by
  induction h with
  | refl => exact ⟨_, .refl, rfl, fun _ => trivial⟩
  | tail _ hstep ih =>
    obtain ⟨s, hrun, rfl, hsettled⟩ := ih
    cases hstep with
    | call h => exact ⟨_, hrun.tail (.call h), rfl, hsettled⟩
    | background w => exact ⟨_, hrun.tail (.background w), rfl, hsettled⟩
    | @request k stage w' h =>
      obtain ⟨m, hmoved, hserving, hothers⟩ : ∃ m, Debugs env factory d ids
          (startDebugged jobs requests tables w maxTraces) m ∧
          m.serving = { s.serving with
            requests := Function.update s.serving.requests k stage, world := w' } ∧
          ∀ j, j ≠ k → (m.watches j).Settled := by
        refine ⟨_, hrun.tail (.request h), rfl, fun j hj => ?_⟩
        simp only [Function.update_of_ne hj]
        exact hsettled j
      obtain ⟨s', hmore, hsame, hall⟩ := exists_settled k hothers
      exact ⟨s', hmoved.trans hmore, hsame.trans hserving, hall⟩

variable [HttpTypes]

/-- A reply that is sent is that of the stage, with the trace id if the request asked for it. -/
theorem reply_of_debugs
    (hrun : Debugs env factory d ids (startDebugged jobs requests tables w maxTraces) s) {k : κ} {r : Reply}
    (hreply : s.reply d k = some r) :
    ∃ plain, (s.serving.requests k).reply none = some plain ∧
      r = plain.tagged (if d.headerOptIn (requests k).1.headers then some (ids k) else none) := by
  have hinput := (later_of_serves (serves_of_debugs hrun)).inputs k
  have hsame : (s.serving.requests k).input.1 = (requests k).1 := congrArg Prod.fst hinput
  have hwatches := (debugInv_of_debugs hrun).watches k
  rw [Debugged.reply, hsame] at hreply
  cases hwatch : s.watches k with
  | unwatched =>
    rw [hwatch] at hwatches hreply
    have hplain : (s.serving.requests k).reply none = some r := hreply
    refine ⟨r, hplain, ?_⟩
    have hnot : d.headerOptIn (requests k).1.headers = false := by
      refine Bool.eq_false_iff.mpr fun hasked => ?_
      have htrace := d.shouldTrace_of_headerOptIn _ hasked
      generalize hstage : s.serving.requests k = stage at hwatches hsame hplain
      cases hwatches with
      | waiting => cases hplain
      | unwatched hfalse =>
        rw [hsame, htrace] at hfalse
        cases hfalse
      | holds h hfinal hholds => cases hholds
    rw [hnot]
    cases r with
    | sent | upgraded | panicked => rfl
  | recorded run seq =>
    rw [hwatch] at hwatches hreply
    have hid : run.id = ids k := by
      generalize s.serving.requests k = stage at hwatches
      cases hwatches with
      | holds h hfinal hholds =>
        cases hholds
        cases stage with
        | waiting | walking => cases hfinal
        | unrouted | answered =>
          rw [← Option.some.inj hfinal]
          rfl
    have htraced : (s.serving.requests k).reply
        (if d.headerOptIn (requests k).1.headers then some run.id else none) = some r := hreply
    rw [reply_traced, hid] at htraced
    obtain ⟨plain, hplain, heq⟩ := Option.map_eq_some_iff.mp htraced
    exact ⟨plain, hplain, heq.symm⟩
  | recording | finished | numbered =>
    rw [hwatch] at hreply
    cases hreply

variable (env factory d ids jobs requests tables w maxTraces) in
/-- **Debug mode is invisible.**  Whatever its settings: what a run in debug mode does apart from its
    watches and its store, the gateway can do without debug mode, and the replies are the same but
    for the header with the trace id, which only a caller gets who asked for it.  And every run
    without debug mode comes about in debug mode, with a reply to everyone who had one. -/
theorem debugging_invisible :
    (∀ s, Debugs env factory d ids (startDebugged jobs requests tables w maxTraces) s →
      Serves env factory (startServing jobs requests tables w) s.serving ∧
      ∀ k r, s.reply d k = some r → ∃ plain, (s.serving.requests k).reply none = some plain ∧
        r = plain.tagged (if d.headerOptIn (requests k).1.headers then some (ids k) else none)) ∧
    (∀ p, Serves env factory (startServing jobs requests tables w) p →
      ∃ s, Debugs env factory d ids (startDebugged jobs requests tables w maxTraces) s ∧
        s.serving = p ∧ ∀ k, ((p.requests k).reply none).isSome → (s.reply d k).isSome) := by
  refine ⟨fun s hrun => ⟨serves_of_debugs hrun, fun k r hr => reply_of_debugs hrun hr⟩, fun p hp => ?_⟩
  obtain ⟨s, hrun, rfl, hsettled⟩ := debugs_of_serves hp
  refine ⟨s, hrun, rfl, fun k hover => ?_⟩
  have hwatches := (debugInv_of_debugs hrun).watches k
  have hk := hsettled k
  rw [Debugged.reply]
  cases hwatch : s.watches k with
  | unwatched => exact hover
  | recorded run seq =>
    show ((s.serving.requests k).reply _).isSome
    rw [reply_traced, Option.isSome_map]
    exact hover
  | recording recorder =>
    -- a request that is still walking has no reply
    rw [hwatch] at hwatches
    generalize s.serving.requests k = stage at hwatches hover
    cases hwatches with
    | recording => cases hover
    | holds h hfinal hholds => cases hholds
  | finished | numbered =>
    rw [hwatch] at hk
    exact hk.elim

/-- **A trace is of one request.**  In every interleaving of requests, calls and clearings: a traced
    request has recorded its trace when it is answered, and once; the traces recorded since the last
    clearing are, in their order, those of the last requests that did, each with the visits of its
    own request; and the buffer has the newest of them. -/
theorem recorded_traces
    (hrun : Debugs env factory d ids (startDebugged jobs requests tables w maxTraces) s) :
    s.log.Nodup ∧
    (∀ k, k ∈ s.log ↔ (s.reply d k).isSome ∧ d.shouldTrace (requests k).1.headers = true) ∧
    List.Forall₂ (fun k t => Tells d (ids k) (s.serving.requests k) t) (s.log.drop s.cleared)
      s.store.recorded ∧
    s.store.debug.traces = s.store.recorded.drop (s.store.recorded.length - maxTraces) := by
  have h := debugInv_of_debugs hrun
  have hinputs := (later_of_serves (serves_of_debugs hrun)).inputs
  have hstored : ∀ k run seq, s.watches k = .recorded run seq →
      d.shouldTrace (requests k).1.headers = true ∧
        (s.serving.requests k).finalRun d (ids k) = some run := by
    intro k run seq hwatch
    have hwatches := h.watches k
    have hsame : (s.serving.requests k).input.1 = (requests k).1 := congrArg Prod.fst (hinputs k)
    rw [hwatch] at hwatches
    generalize s.serving.requests k = stage at hwatches hsame
    cases hwatches with
    | holds htrace hfinal hholds =>
      cases hholds
      rw [hsame] at htrace
      exact ⟨htrace, hfinal⟩
  refine ⟨h.nodup, fun k => ?_, ?_, h.store.buffer⟩
  · rw [h.logged k, Debugged.reply]
    cases hwatch : s.watches k with
    | recorded run seq =>
      obtain ⟨htrace, hfinal⟩ := hstored k run seq hwatch
      refine iff_of_true rfl ⟨?_, htrace⟩
      show ((s.serving.requests k).reply _).isSome
      cases hstage : s.serving.requests k with
      | waiting | walking =>
        rw [hstage] at hfinal
        cases hfinal
      | unrouted | answered => rfl
    | unwatched =>
      refine iff_of_false Bool.false_ne_true fun ⟨hreply, htrace⟩ => ?_
      have hwatches := h.watches k
      have hsame : (s.serving.requests k).input.1 = (requests k).1 := congrArg Prod.fst (hinputs k)
      rw [hwatch] at hwatches
      generalize s.serving.requests k = stage at hwatches hsame hreply
      cases hwatches with
      | waiting => cases hreply
      | unwatched hfalse =>
        rw [hsame, htrace] at hfalse
        cases hfalse
      | holds _ _ hholds => cases hholds
    | recording | finished | numbered =>
      exact iff_of_false Bool.false_ne_true fun hboth => Bool.false_ne_true hboth.1
  · rw [h.traces]
    refine forall₂_filterMap fun k hk => ?_
    have hlogged := (h.logged k).mp (List.mem_of_mem_drop hk)
    cases hwatch : s.watches k with
    | recorded run seq => exact ⟨_, rfl, tells_trace (hstored k run seq hwatch).2 seq⟩
    | unwatched | recording | finished | numbered =>
      rw [hwatch] at hlogged
      cases hlogged

end Run

/-- Everyone is traced. -/
def traceEveryone [CaseMapping] : DebugSettings where
  enabled := true
  traceAll := true
  triggerHeader := "x-featherbit-debug"
  opts := .default
  maxSteps := 100

/-- A request that no route takes. -/
theorem recorded_traces_unrouted :
    let _ : CaseMapping := asciiCaseMapping
    let _ : HttpTypes := httpTypes
    ∃ s : Debugged Empty Unit Unit,
      Debugs (fun _ => none) (createPlugin unknownTypes) traceEveryone (fun _ => "t1")
        (startDebugged Empty.elim (fun _ => (rootRequest, 0)) emptyTables () 10) s ∧
      (s.reply traceEveryone ()).isSome ∧
      List.Forall₂ (fun k t => Tells traceEveryone "t1" (s.serving.requests k) t) [()] s.store.recorded ∧
      s.store.debug.traces.length = 1 := by
  intro _ _
  let start : Debugged Empty Unit Unit :=
    startDebugged Empty.elim (fun _ => (rootRequest, 0)) emptyTables () 10
  have hrun : ∃ s : Debugged Empty Unit Unit, Debugs (fun _ => none) (createPlugin unknownTypes)
      traceEveryone (fun _ => "t1") start s ∧ s.log = [()] ∧ s.cleared = 0 ∧
      s.store.recorded.length = 1 := by
    have hrouted : Debugs (fun _ => none) (createPlugin unknownTypes) traceEveryone (fun _ => "t1")
        start _ := .tail .refl (.request (k := ()) rfl)
    have hnumbered := hrouted.tail (.number (k := ()) rfl)
    have hrecorded := hnumbered.tail (.record (k := ()) rfl)
    exact ⟨_, hrecorded, rfl, rfl, rfl⟩
  obtain ⟨s, hrun, hlog, hcleared, hlength⟩ := hrun
  obtain ⟨-, hlogged, htells, hbuffer⟩ := recorded_traces hrun
  rw [hcleared, List.drop_zero, hlog] at htells
  have hmem : () ∈ s.log := by
    rw [hlog]
    exact List.mem_cons_self
  refine ⟨s, hrun, ((hlogged ()).mp hmem).1, htells, ?_⟩
  rw [hbuffer, List.length_drop, hlength]

end Featherbit
