/-
  A TRACE SHOWS THE WALK, AND DOES NOT DISTURB IT.

  `Walk id ctx w visits c w'` is the walk as a relation: from node `id` with context `ctx` and
  world `w`, through the listed visits, to the final context `c` and world `w'`.  The engine's
  loop computes exactly these walks, and its recorder is the fold of `record` over the visits
  (`iterate_of_walk`, `walk_of_iterate`): this is the invariant that ties the loop's hidden state
  to the recorder's step list.  What a recorded walk looks like (`Faithful`) is then an induction
  on the walk alone, with no loop and no recorder in sight.
-/
import Featherbit.Graph.Lookups
import Featherbit.Graph.Visit

namespace Featherbit

/-! ## Walks -/

section Walk

variable {σ : Type}

/-- The walk from a node id to the end, through the listed visits. -/
inductive CompiledGraph.Walk (g : CompiledGraph σ) :
    String → Context → σ → List Visit → Context → σ → Prop where
  | last {id ctx w v w'} (hv : g.visit id ctx w = (v, w')) (hend : v.next = none) :
      Walk g id ctx w [v] v.after w'
  | step {id ctx w v w' next vs c w''} (hv : g.visit id ctx w = (v, w'))
      (hnext : v.next = some next) (hrest : Walk g next v.after w' vs c w'') :
      Walk g id ctx w (v :: vs) c w''

variable [CaseMapping] {g : CompiledGraph σ}

/-- The loop follows a walk, telling the recorder of each visit. -/
theorem iterate_of_walk {id : String} {ctx c : Context} {w w' : σ} {visits : List Visit}
    (h : g.Walk id ctx w visits c w') :
    ∀ (fuel : Nat) (recorder : Option TraceRecorder), visits.length ≤ fuel →
      Loop.iterate g.iteration fuel ⟨ctx, recorder, id, w⟩ =
        some ⟨c, recorder.map fun r => visits.foldl TraceRecorder.record r, w'⟩ := by
  induction h with
  | last hv hend =>
    intro fuel recorder hle
    obtain ⟨n, rfl⟩ : ∃ n, fuel = n + 1 := ⟨fuel - 1, by simp at hle; omega⟩
    exact Loop.iterate_succ_inr (CompiledGraph.iteration_of_end hv hend) n
  | step hv hnext _ ih =>
    intro fuel recorder hle
    obtain ⟨n, rfl⟩ : ∃ n, fuel = n + 1 := ⟨fuel - 1, by simp at hle; omega⟩
    rw [Loop.iterate_succ_inl (CompiledGraph.iteration_of_next hv hnext), ih n _ (by simpa using hle),
      Option.map_map]
    rfl

/-- The loop leaves only at the end of a walk. -/
theorem walk_of_iterate :
    ∀ {fuel : Nat} {s : LoopState σ} {exit : LoopExit σ},
      Loop.iterate g.iteration fuel s = some exit →
      ∃ visits, g.Walk s.currentNodeId s.ctx s.world visits exit.ctx exit.world ∧
        visits.length ≤ fuel := by
  intro fuel
  induction fuel with
  | zero => intro s exit h; nomatch h
  | succ n ih =>
    intro s exit h
    obtain ⟨v, w, hv⟩ : ∃ v w, g.visit s.currentNodeId s.ctx s.world = (v, w) := ⟨_, _, rfl⟩
    cases hnext : v.next with
    | none =>
      rw [Loop.iterate_succ_inr (CompiledGraph.iteration_of_end hv hnext)] at h
      obtain rfl := Option.some.inj h
      exact ⟨[v], .last hv hnext, by simp⟩
    | some next =>
      rw [Loop.iterate_succ_inl (CompiledGraph.iteration_of_next hv hnext)] at h
      obtain ⟨visits, hwalk, hle⟩ := ih h
      exact ⟨v :: visits, .step hv hnext hwalk, by simpa using hle⟩

end Walk

/-! ## What a recorder keeps of a walk -/

section Recorder

variable [CaseMapping]

/-- The step that stands for a visit. -/
def Visit.toStep (v : Visit) (index : Nat) (after : ContextSnapshot) : NodeStep where
  index := index
  nodeId := v.nodeId
  nodeType := v.nodeType
  outcome := v.outcome
  edge := v.edge
  nextNodeId := v.next
  after := after

/-- The steps that stand for a list of visits: `prev` are the bodies seen before, `i` the index
    of the first step. -/
def stepsOf (opts : CaptureOptions) : PreviousBodies → Nat → List Visit → List NodeStep
  | _, _, [] => []
  | prev, i, v :: vs =>
    v.toStep i (ContextSnapshot.capture v.after opts prev) ::
      stepsOf opts (PreviousBodies.of v.after) (i + 1) vs

/-- A full recorder keeps its steps. -/
theorem record_full {r : TraceRecorder} (v : Visit) (h : r.maxSteps ≤ r.steps.length) :
    (r.record v).steps = r.steps ∧ (r.record v).maxSteps = r.maxSteps := by
  unfold TraceRecorder.record TraceRecorder.recordStep
  rw [if_pos h]
  split
  · exact ⟨rfl, rfl⟩
  · exact ⟨rfl, rfl⟩

/-- A recorder that is not full appends the step of the visit. -/
theorem record_room {r : TraceRecorder} (v : Visit) (h : r.steps.length < r.maxSteps) :
    (r.record v).steps = r.steps ++ stepsOf r.opts r.prevBodies r.steps.length [v] ∧
      (r.record v).maxSteps = r.maxSteps ∧ (r.record v).opts = r.opts ∧
      (r.record v).prevBodies = PreviousBodies.of v.after := by
  unfold TraceRecorder.record TraceRecorder.recordStep
  rw [if_neg (by omega)]
  exact ⟨rfl, rfl, rfl, rfl⟩

/-- **What is recorded.**  A recorder ends with the steps of the first visits, as many as it has
    room for. -/
theorem foldl_record_steps :
    ∀ (visits : List Visit) (r : TraceRecorder),
      (visits.foldl TraceRecorder.record r).steps =
        r.steps ++ stepsOf r.opts r.prevBodies r.steps.length
          (visits.take (r.maxSteps - r.steps.length)) := by
  intro visits
  induction visits with
  | nil => intro r; simp [stepsOf]
  | cons v visits ih =>
    intro r
    rw [List.foldl_cons, ih]
    rcases Nat.lt_or_ge r.steps.length r.maxSteps with hroom | hfull
    · obtain ⟨hsteps, hmax, hopts, hprev⟩ := record_room v hroom
      obtain ⟨k, hk⟩ : ∃ k, r.maxSteps - r.steps.length = k + 1 :=
        ⟨r.maxSteps - r.steps.length - 1, by omega⟩
      have hlen : (r.record v).steps.length = r.steps.length + 1 := by
        rw [hsteps, List.length_append]; rfl
      rw [hlen, hmax, hopts, hprev, hsteps, hk, List.take_succ_cons,
        show r.maxSteps - (r.steps.length + 1) = k by omega, List.append_assoc]
      rfl
    · obtain ⟨hsteps, hmax⟩ := record_full v hfull
      rw [hsteps, hmax, Nat.sub_eq_zero_of_le hfull]
      simp [stepsOf]

/-- A recording that stops early has the first of the steps. -/
theorem stepsOf_take (opts : CaptureOptions) (n : Nat) :
    ∀ (visits : List Visit) (prev : PreviousBodies) (i : Nat),
      stepsOf opts prev i (visits.take n) = (stepsOf opts prev i visits).take n := by
  induction n with
  | zero => intro visits prev i; rfl
  | succ n ih =>
    intro visits prev i
    cases visits with
    | nil => rfl
    | cons v visits => rw [List.take_succ_cons, stepsOf, stepsOf, List.take_succ_cons, ih]

/-- The initial snapshot stays. -/
theorem foldl_record_initial (visits : List Visit) (r : TraceRecorder) :
    (visits.foldl TraceRecorder.record r).initial = r.initial := by
  induction visits generalizing r with
  | nil => rfl
  | cons v visits ih =>
    rw [List.foldl_cons, ih]
    unfold TraceRecorder.record TraceRecorder.recordStep
    split
    · split
      · rfl
      · rfl
    · rfl

end Recorder

/-! ## What a recorded walk looks like -/

/-- The map or handler that supplied a step's next node is the one its edge kind names. -/
structure EdgeSupplied {σ : Type} (g : CompiledGraph σ) (step : NodeStep) : Prop where
  success : step.edge = .success ↔
    step.outcome = .success ∧ g.terminalNodeIds.contains step.nodeId = false ∧
      ∃ next, g.successEdges[step.nodeId]? = some next ∧ step.nextNodeId = some next
  error : step.edge = .error ↔
    step.outcome ≠ .success ∧
      ∃ next, g.errorEdges[step.nodeId]? = some next ∧ step.nextNodeId = some next
  catchAll : step.edge = .catchAll ↔
    step.outcome ≠ .success ∧ g.errorEdges[step.nodeId]? = none ∧
      ∃ next, g.catchAllHandler = some next ∧ step.nextNodeId = some next

/-- The error a step whose plugin failed pushes: node id, code and message.  A failed lookup runs
    no plugin and pushes none. -/
def NodeStep.failure (step : NodeStep) : Option (String × String × String) :=
  match step.edge, step.outcome with
  | .nodeNotFound, _ => none
  | _, .success => none
  | _, .error code message => some (step.nodeId, code, message)

/-- Between `ctx` and `c` exactly the errors of the failed steps were pushed, in order and tagged,
    as long as no plugin touches the errors itself. -/
def PushesErrors {σ : Type} (g : CompiledGraph σ) (ctx c : Context) (steps : List NodeStep) : Prop :=
  (∀ (id : String) (node : Plugin σ), g.nodes[id]? = some node → node.KeepsErrors) →
    ∃ raised : List GatewayError, c.errors = ctx.errors ++ raised ∧
      raised.map (fun e => (e.nodeId, e.code, e.message)) = steps.filterMap NodeStep.failure

/-- The steps are a whole walk of `g` from node `id`, with `ctx` before it and `c` after it. -/
structure Faithful {σ : Type} (g : CompiledGraph σ) (id : String) (ctx c : Context)
    (steps : List NodeStep) : Prop where
  first : steps.head?.map (·.nodeId) = some id
  chain : steps.IsChain fun a b => a.nextNodeId = some b.nodeId
  goesOn : ∀ step ∈ steps.dropLast, step.edge.Ends = false
  ends : ∀ step, steps.getLast? = some step → step.edge.Ends = true ∧ step.nextNodeId = none
  supplied : ∀ step ∈ steps, EdgeSupplied g step
  errors : PushesErrors g ctx c steps

section Faithful

variable {σ : Type} {g : CompiledGraph σ} {id next : String} {ctx mid c : Context}
  {step : NodeStep} {steps : List NodeStep}

theorem PushesErrors.cons (h : PushesErrors g ctx mid [step]) (hrest : PushesErrors g mid c steps) :
    PushesErrors g ctx c (step :: steps) := by
  intro hkeeps
  obtain ⟨raised, herr, hraised⟩ := h hkeeps
  obtain ⟨raised', herr', hraised'⟩ := hrest hkeeps
  refine ⟨raised ++ raised', by rw [herr', herr, List.append_assoc], ?_⟩
  rw [List.map_append, hraised, hraised', ← List.filterMap_append]
  rfl

/-- A walk of one step. -/
theorem Faithful.single (hid : step.nodeId = id) (hends : step.edge.Ends = true)
    (hnext : step.nextNodeId = none) (hsup : EdgeSupplied g step)
    (herr : PushesErrors g ctx c [step]) : Faithful g id ctx c [step] where
  first := congrArg some hid
  chain := .singleton step
  goesOn := by simp
  ends := by
    intro s hs
    obtain rfl : step = s := by simpa using hs
    exact ⟨hends, hnext⟩
  supplied := by
    intro s hs
    rw [List.mem_singleton.mp hs]
    exact hsup
  errors := herr

/-- A step in front of a walk that starts where the step leads. -/
theorem Faithful.cons (hid : step.nodeId = id) (hends : step.edge.Ends = false)
    (hnext : step.nextNodeId = some next) (hsup : EdgeSupplied g step)
    (herr : PushesErrors g ctx mid [step]) (hrest : Faithful g next mid c steps) :
    Faithful g id ctx c (step :: steps) := by
  cases steps with
  | nil => exact absurd hrest.first (by simp)
  | cons head tail =>
    obtain rfl : head.nodeId = next := Option.some.inj hrest.first
    refine ⟨congrArg some hid, .cons_cons hnext hrest.chain, ?_, ?_, ?_, herr.cons hrest.errors⟩
    · intro s hs
      rw [List.dropLast_cons_cons] at hs
      rcases List.mem_cons.mp hs with rfl | hs
      · exact hends
      · exact hrest.goesOn s hs
    · intro s hs
      exact hrest.ends s (by rwa [List.getLast?_cons_cons] at hs)
    · intro s hs
      rcases List.mem_cons.mp hs with rfl | hs
      · exact hsup
      · exact hrest.supplied s hs

end Faithful

section Steps

variable {σ : Type} {g : CompiledGraph σ} {id : String} {ctx : Context} {w w' : σ} {v : Visit}
  (i : Nat) (after : ContextSnapshot)

/-- One visit: its step's edge kind names what supplied the next node. -/
theorem supplied_of_visit (hv : g.visit id ctx w = (v, w')) :
    EdgeSupplied g (v.toStep i after) := by
  rcases g.visit_cases id ctx w with
    ⟨-, h⟩ | ⟨node, output, w1, -, -, h⟩ | ⟨node, err, w1, -, -, h⟩
  · obtain ⟨rfl, -⟩ := Prod.mk.inj (hv.symm.trans h)
    constructor <;> simp [Visit.toStep, CompiledGraph.missingVisit]
  · obtain ⟨rfl, -⟩ := Prod.mk.inj (hv.symm.trans h)
    cases ht : g.terminalNodeIds.contains id with
    | true =>
      constructor <;> simp [Visit.toStep, CompiledGraph.okVisit, CompiledGraph.successKind, ht]
    | false =>
      cases hs : g.successEdges[id]? with
      | none =>
        constructor <;>
          simp [Visit.toStep, CompiledGraph.okVisit, CompiledGraph.successKind,
            CompiledGraph.nextOnSuccess, ht, hs]
      | some next =>
        constructor <;>
          simp [Visit.toStep, CompiledGraph.okVisit, CompiledGraph.successKind,
            CompiledGraph.nextOnSuccess, ht, hs]
  · obtain ⟨rfl, -⟩ := Prod.mk.inj (hv.symm.trans h)
    cases he : g.errorEdges[id]? with
    | some next =>
      constructor <;>
        simp [Visit.toStep, CompiledGraph.failedVisit, CompiledGraph.nextOnError, he]
    | none =>
      cases hc : g.catchAllHandler with
      | none =>
        constructor <;>
          simp [Visit.toStep, CompiledGraph.failedVisit, CompiledGraph.nextOnError, he, hc]
      | some next =>
        constructor <;>
          simp [Visit.toStep, CompiledGraph.failedVisit, CompiledGraph.nextOnError, he, hc]

/-- One visit: its edge kind is an ending one exactly when there is no next node. -/
theorem ends_of_visit (hv : g.visit id ctx w = (v, w')) : v.edge.Ends = v.next.isNone := by
  rcases g.visit_cases id ctx w with
    ⟨-, h⟩ | ⟨node, output, w1, -, -, h⟩ | ⟨node, err, w1, -, -, h⟩
  · obtain ⟨rfl, -⟩ := Prod.mk.inj (hv.symm.trans h)
    rfl
  · obtain ⟨rfl, -⟩ := Prod.mk.inj (hv.symm.trans h)
    cases ht : g.terminalNodeIds.contains id with
    | true =>
      simp [CompiledGraph.okVisit, CompiledGraph.successKind, CompiledGraph.nextOnSuccess, ht,
        EdgeKind.Ends]
    | false =>
      cases hs : g.successEdges[id]? <;>
        simp [CompiledGraph.okVisit, CompiledGraph.successKind, CompiledGraph.nextOnSuccess, ht, hs,
          EdgeKind.Ends]
  · obtain ⟨rfl, -⟩ := Prod.mk.inj (hv.symm.trans h)
    cases he : g.errorEdges[id]? with
    | some next => simp [CompiledGraph.failedVisit, CompiledGraph.nextOnError, he, EdgeKind.Ends]
    | none =>
      cases hc : g.catchAllHandler <;>
        simp [CompiledGraph.failedVisit, CompiledGraph.nextOnError, he, hc, EdgeKind.Ends]

/-- One visit: it pushes the error of its failure, and nothing else. -/
theorem errors_of_visit (hv : g.visit id ctx w = (v, w')) :
    PushesErrors g ctx v.after [v.toStep i after] := by
  intro hkeeps
  rcases g.visit_cases id ctx w with
    ⟨-, h⟩ | ⟨node, output, w1, hnode, hexec, h⟩ | ⟨node, err, w1, hnode, hexec, h⟩
  · obtain ⟨rfl, -⟩ := Prod.mk.inj (hv.symm.trans h)
    exact ⟨[], by simp [CompiledGraph.missingVisit, Context.nodeNotFound], rfl⟩
  · obtain ⟨rfl, -⟩ := Prod.mk.inj (hv.symm.trans h)
    have hk := hkeeps id node hnode ctx ∅ w
    rw [hexec] at hk
    have hk' : output.context.errors = ctx.errors := hk
    refine ⟨[], by simpa [CompiledGraph.okVisit] using hk', ?_⟩
    cases ht : g.successKind id <;>
      simp [NodeStep.failure, Visit.toStep, CompiledGraph.okVisit, ht]
  · obtain ⟨rfl, -⟩ := Prod.mk.inj (hv.symm.trans h)
    have hk := hkeeps id node hnode ctx ∅ w
    rw [hexec] at hk
    have hk' : err.context.errors = ctx.errors := hk
    refine ⟨[{ err.error with nodeId := id }], ?_, ?_⟩
    · cases hn : g.nextOnError id <;>
        simp [CompiledGraph.failedVisit, hn, PluginExecutionError.tagged, Context.unhandledError, hk']
    · cases he : g.errorEdges[id]? with
      | some next =>
        simp [NodeStep.failure, Visit.toStep, CompiledGraph.failedVisit, CompiledGraph.nextOnError, he]
      | none =>
        cases hc : g.catchAllHandler <;>
          simp [NodeStep.failure, Visit.toStep, CompiledGraph.failedVisit,
            CompiledGraph.nextOnError, he, hc]

/-- **A recorded walk is faithful.**  Induction on the walk; the step of the first visit is put in
    front of a faithful rest, whose first node is the one that visit names next. -/
theorem faithful_of_walk [CaseMapping] {c : Context} {visits : List Visit}
    (h : g.Walk id ctx w visits c w') (opts : CaptureOptions) :
    ∀ (prev : PreviousBodies) (i : Nat), Faithful g id ctx c (stepsOf opts prev i visits) := by
  induction h with
  | @last id ctx w v w' hv hend =>
    intro prev i
    have hid : v.nodeId = id := by rw [← g.visit_nodeId id ctx w, hv]
    have hends : v.edge.Ends = true := by rw [ends_of_visit hv, hend]; rfl
    exact .single hid hends hend (supplied_of_visit _ _ hv) (errors_of_visit _ _ hv)
  | @step id ctx w v w' next vs c w'' hv hnext _ ih =>
    intro prev i
    have hid : v.nodeId = id := by rw [← g.visit_nodeId id ctx w, hv]
    have hends : v.edge.Ends = false := by rw [ends_of_visit hv, hnext]; rfl
    exact .cons hid hends hnext (supplied_of_visit _ _ hv) (errors_of_visit _ _ hv) (ih _ _)

end Steps

/-! ## Tracing is invisible and faithful -/

section Traced

variable {σ : Type} [CaseMapping]

variable {g : CompiledGraph σ} {fuel : Nat} {ctx c : Context} {w w' : σ} {visits : List Visit}

/-- The run of a graph follows its walk, and hands back the recorder it was given, told of every
    visit. -/
theorem run_of_walk (h : g.Walk g.entryNodeId ctx w visits c w') (hle : visits.length ≤ fuel)
    (recorder : Option TraceRecorder) :
    g.run fuel ctx recorder w =
      some ⟨c, recorder.map fun r => visits.foldl TraceRecorder.record r, w'⟩ :=
  iterate_of_walk h fuel recorder hle

theorem execute_of_walk (h : g.Walk g.entryNodeId ctx w visits c w') (hle : visits.length ≤ fuel) :
    g.execute fuel ctx w = some (c, w') := by
  rw [CompiledGraph.execute, run_of_walk h hle none]
  rfl

theorem executeTraced_of_walk (h : g.Walk g.entryNodeId ctx w visits c w')
    (hle : visits.length ≤ fuel) (r : TraceRecorder) :
    g.executeTraced fuel ctx r w = some (c, visits.foldl TraceRecorder.record r, w') := by
  rw [CompiledGraph.executeTraced, run_of_walk h hle (some r)]
  rfl

/-- The run hands a recorder back exactly when it was given one. -/
theorem run_recorder_isSome {recorder : Option TraceRecorder} {exit : LoopExit σ}
    (h : g.run fuel ctx recorder w = some exit) : exit.recorder.isSome = recorder.isSome := by
  obtain ⟨visits, hwalk, hle⟩ := walk_of_iterate h
  have hrec := congrArg LoopExit.recorder
    (Option.some.inj (h.symm.trans (run_of_walk hwalk hle recorder)))
  rw [hrec, Option.isSome_map]

/-- A fresh recorder with room for a whole walk holds exactly its steps. -/
theorem steps_of_room (ctx : Context) (opts : CaptureOptions) {maxSteps : Nat}
    (h : visits.length ≤ maxSteps) :
    (visits.foldl TraceRecorder.record (TraceRecorder.new ctx opts maxSteps)).steps =
      stepsOf opts (PreviousBodies.of ctx) 0 visits := by
  rw [foldl_record_steps]
  show [] ++ stepsOf opts (PreviousBodies.of ctx) 0 (visits.take (maxSteps - 0)) = _
  rw [List.take_of_length_le (by omega), List.nil_append]

/-- **Tracing is invisible and faithful.**  Where the untraced walk ends, the traced one ends with
    the same context; and where the recorder has room for every visit, its steps are exactly the
    walk. -/
theorem traced_walk_faithful (hrun : g.execute fuel ctx w = some (c, w')) (opts : CaptureOptions)
    (maxSteps : Nat) :
    ∃ recorder visits,
      g.executeTraced fuel ctx (TraceRecorder.new ctx opts maxSteps) w = some (c, recorder, w') ∧
      g.Walk g.entryNodeId ctx w visits c w' ∧
      (visits.length ≤ maxSteps →
        recorder.steps = stepsOf opts (PreviousBodies.of ctx) 0 visits ∧
        Faithful g g.entryNodeId ctx c recorder.steps) := by
  obtain ⟨exit, hexit, heq⟩ := Option.map_eq_some_iff.mp hrun
  obtain ⟨rfl, rfl⟩ := Prod.mk.inj heq
  obtain ⟨visits, hwalk, hle⟩ := walk_of_iterate hexit
  refine ⟨visits.foldl TraceRecorder.record (TraceRecorder.new ctx opts maxSteps), visits,
    executeTraced_of_walk hwalk hle _, hwalk, fun hroom => ?_⟩
  have hall := steps_of_room ctx opts hroom
  rw [hall]
  exact ⟨rfl, faithful_of_walk hwalk opts _ 0⟩

end Traced

/-! ## A failed lookup -/

/-- The compiled `dottedTarget` misses its entry node, so that its walk is one failed lookup. -/
theorem dottedTarget_walk :
    ∃ g : CompiledGraph Unit,
      compilePolicy (fun _ => none) (createPlugin unknownTypes) dottedTarget = .ok g ∧
      (∀ (id : String) (node : Plugin Unit), g.nodes[id]? = some node → node.KeepsErrors) ∧
      ∀ ctx : Context, g.Walk g.entryNodeId ctx ()
        [CompiledGraph.missingVisit "client.backup" ctx] (ctx.nodeNotFound "client.backup") () := by
  obtain ⟨g, hg⟩ : ∃ g, compilePolicy (fun _ => none) (createPlugin (σ := Unit) unknownTypes)
      dottedTarget = .ok g := ⟨_, rfl⟩
  have hcomp := compiled_of_compile hg
  have hentry := hcomp.entry_of_listener (l := "listener") (by decide)
  have hid : g.entryNodeId = "client.backup" := hentry.trans (by decide)
  have hmiss : g.nodes["client.backup"]? = none := by rw [hcomp.nodes]; rfl
  refine ⟨g, hg, ?_, fun ctx => ?_⟩
  · intro id node hnode
    rw [hcomp.nodes] at hnode
    obtain ⟨n, hn, hplugin⟩ := Option.bind_eq_some_iff.mp hnode
    have hmem : n ∈ dottedTarget.nodes := (PolicyConfig.mem_of_nodeAt hn).1
    rcases List.mem_pair.mp hmem with rfl | rfl
    · rw [← Option.some.inj hplugin]
      exact passThrough_keepsErrors _
    · rw [← Option.some.inj hplugin]
      exact passThrough_keepsErrors _
  · rw [hid]
    have hv : g.visit "client.backup" ctx () =
        (CompiledGraph.missingVisit "client.backup" ctx, ()) := CompiledGraph.visit_missing hmiss
    exact .last hv rfl

theorem traced_walk_faithful_dottedTarget :
    ∃ g : CompiledGraph Unit, ∀ (_ : CaseMapping) (ctx : Context) (opts : CaptureOptions),
      ∃ recorder visits,
        g.executeTraced 1 ctx (TraceRecorder.new ctx opts 8) () =
          some (ctx.nodeNotFound "client.backup", recorder, ()) ∧
        g.Walk g.entryNodeId ctx () visits (ctx.nodeNotFound "client.backup") () ∧
        (visits.length ≤ 8 →
          recorder.steps = stepsOf opts (PreviousBodies.of ctx) 0 visits ∧
          Faithful g g.entryNodeId ctx (ctx.nodeNotFound "client.backup") recorder.steps) := by
  obtain ⟨g, -, -, hwalk⟩ := dottedTarget_walk
  exact ⟨g, fun _ ctx opts =>
    traced_walk_faithful (execute_of_walk (hwalk ctx) (Nat.le_refl 1)) opts 8⟩

/-- The failed lookup is recorded as a step that failed, and pushes no error; and with no room for
    a step it is not recorded, although no node was executed. -/
theorem failed_lookup_pushes_no_error :
    ∃ g : CompiledGraph Unit,
      compilePolicy (fun _ => none) (createPlugin unknownTypes) dottedTarget = .ok g ∧
      (∀ (id : String) (node : Plugin Unit), g.nodes[id]? = some node → node.KeepsErrors) ∧
      ∀ (_ : CaseMapping) (ctx : Context) (opts : CaptureOptions),
        (∃ c r step, g.executeTraced 1 ctx (TraceRecorder.new ctx opts 1) () = some (c, r, ()) ∧
          r.steps = [step] ∧ step.outcome ≠ .success ∧ c.errors = ctx.errors) ∧
        (∃ c r, g.executeTraced 1 ctx (TraceRecorder.new ctx opts 0) () = some (c, r, ()) ∧
          r.steps = []) := by
  obtain ⟨g, hg, hkeeps, hwalk⟩ := dottedTarget_walk
  refine ⟨g, hg, hkeeps, fun _ ctx opts => ⟨?_, ?_⟩⟩
  · have hrun := executeTraced_of_walk (hwalk ctx) (Nat.le_refl 1) (TraceRecorder.new ctx opts 1)
    exact ⟨_, _, _, hrun, rfl, (fun h => nomatch h), rfl⟩
  · have hrun := executeTraced_of_walk (hwalk ctx) (Nat.le_refl 1) (TraceRecorder.new ctx opts 0)
    exact ⟨_, _, hrun, rfl⟩

end Featherbit
