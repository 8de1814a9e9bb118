/-
  WHAT A SANDBOX PIPELINE DOES: the listed nodes one after another, up to the first that fails.

  A user of the sandbox lists nodes and expects a fold (`runStages`): each plugin gets the context
  its predecessor left, and the first failure ends the run, at the client or with the generic 500.
  The gateway does something else, it weaves a policy around the list, compiles the policy to
  tables of edges and walks those.  `synthesized_runs_stages` says that the two are one, whatever
  the plugins do: the same plugin calls in the same order on the same contexts, the same final
  context and the same effects.

  The proof goes down the list (`walk_stages`): at each node the walk either takes the success edge
  to the next one, or leaves, by the error edge to the client or for want of one.
-/
import Featherbit.Debug.Synthesize

namespace Featherbit

/-! ## The meaning of a list of plugins -/

/-- A node of a pipeline with the plugin it was built into. -/
structure PipelineStage (σ : Type) where
  id : String
  plugin : Plugin σ

/-- One plugin call: whose it was, how it went, and the context it left. -/
structure StageRun where
  nodeId : String
  outcome : StepOutcome
  after : Context

/-- What the run of a pipeline comes to. -/
structure PipelineRun (σ : Type) where
  calls : List StageRun
  context : Context
  world : σ

namespace PipelineRun

variable {σ : Type}

/-- One more call in front. -/
def after (call : StageRun) (run : PipelineRun σ) : PipelineRun σ :=
  { run with calls := call :: run.calls }

/-- The client has the last word, and changes nothing. -/
def atClient (ctx : Context) (w : σ) : PipelineRun σ where
  calls := [⟨"client", .success, ctx⟩]
  context := ctx
  world := w

/-- The run ends with the generic response to a failure. -/
def stopped (id : String) (err : PluginExecutionError) (w : σ) : PipelineRun σ where
  calls := [⟨id, .error err.error.code err.error.message, (err.tagged id).unhandledError⟩]
  context := (err.tagged id).unhandledError
  world := w

/-- The failure goes to the client, tagged with its node. -/
def failedToClient (id : String) (err : PluginExecutionError) (w : σ) : PipelineRun σ :=
  (atClient (err.tagged id) w).after ⟨id, .error err.error.code err.error.message, err.tagged id⟩

/-- What the sandbox was told to do about a failure. -/
def failed : OnError → String → PluginExecutionError → σ → PipelineRun σ
  | .stop => stopped
  | .client => failedToClient

@[simp] theorem failed_world (onError : OnError) (id : String) (err : PluginExecutionError) (w : σ) :
    (failed onError id err w).world = w := by
  cases onError <;> rfl

end PipelineRun

section Stages

variable {σ : Type} (onError : OnError)

/-- The stages in order, up to the first that fails. -/
def runStages : List (PipelineStage σ) → Context → σ → PipelineRun σ
  | [], ctx, w => .atClient ctx w
  | stage :: stages, ctx, w =>
    match stage.plugin.execute ctx ∅ w with
    | (.ok output, w') =>
      (runStages stages output.context w').after ⟨stage.id, .success, output.context⟩
    | (.error err, w') => .failed onError stage.id err w'

variable {onError} {stage : PipelineStage σ} {stages : List (PipelineStage σ)} {ctx : Context} {w w' : σ}

theorem runStages_ok {output : PluginOutput}
    (h : stage.plugin.execute ctx ∅ w = (.ok output, w')) :
    runStages onError (stage :: stages) ctx w =
      (runStages onError stages output.context w').after ⟨stage.id, .success, output.context⟩ := by
  rw [runStages, h]

/-- The stages behind a failing one do not matter. -/
theorem runStages_error {err : PluginExecutionError}
    (h : stage.plugin.execute ctx ∅ w = (.error err, w')) :
    runStages onError (stage :: stages) ctx w = .failed onError stage.id err w' := by
  rw [runStages, h]

/-- A run calls a plugin per stage at most, and the client. -/
theorem runStages_length :
    ∀ (stages : List (PipelineStage σ)) (ctx : Context) (w : σ),
      (runStages onError stages ctx w).calls.length ≤ stages.length + 1 := by
  intro stages
  induction stages with
  | nil => intro ctx w; exact Nat.le_refl 1
  | cons stage stages ih =>
    intro ctx w
    obtain ⟨result, w', hexec⟩ : ∃ result w', stage.plugin.execute ctx ∅ w = (result, w') :=
      ⟨_, _, rfl⟩
    cases result with
    | ok output =>
      rw [runStages_ok hexec]
      exact Nat.succ_le_succ (ih output.context w')
    | error err =>
      rw [runStages_error hexec]
      cases onError with
      | stop => exact Nat.le_add_left 1 _
      | client => exact Nat.add_le_add_right (Nat.le_add_left 1 _) 1

end Stages

/-! ## The walk of the synthesized policy -/

/-- The stages are the plugins the nodes were built into. -/
def StagesOf {σ : Type} (env : Env) (factory : PluginFactory σ) :
    List NodeConfig → List (PipelineStage σ) → Prop :=
  List.Forall₂ fun n stage => stage.id = n.id ∧ n.plugin env factory = some stage.plugin

/-- What a visit says about a plugin call. -/
def Visit.call (v : Visit) : StageRun := ⟨v.nodeId, v.outcome, v.after⟩

section Walk

variable {p : PolicyConfig} {first : NodeConfig} {rest : List NodeConfig} {onError : OnError}
  {σ : Type} {env : Env} {factory native : PluginFactory σ} {g : CompiledGraph σ}

theorem Woven.mem_nodes (hw : Woven p first rest onError) {n : NodeConfig} (hn : n ∈ first :: rest) :
    n ∈ p.nodes := by
  rw [hw.nodes]
  exact List.mem_cons_of_mem _ (List.mem_append_left _ hn)

/-- Where ids are plain, a node's plugin stands in the graph under its id. -/
theorem Woven.plugin_eq (hw : Woven p first rest onError)
    (hplain : ∀ n ∈ first :: rest, PlainId n.id) (hg : Compiled env factory p g) {n : NodeConfig}
    (hn : n ∈ p.nodes) : g.nodes[n.id]? = n.plugin env factory := by
  have hids := hw.nodup_nodeIds.mpr fun n hn => ⟨(hplain n hn).1, (hplain n hn).2.1⟩
  have hcount : p.nodeIds.count n.id = 1 :=
    List.count_eq_one_of_mem hids (List.mem_map_of_mem hn)
  rw [hg.nodes, PolicyConfig.nodeAt_of_unique hcount hn]
  rfl

/-- A failing node leads to the client, or nowhere: as the sandbox was told. -/
theorem Woven.nextOnError (hw : Woven p first rest onError) (hg : Compiled env factory p g)
    {n : NodeConfig} (hn : n ∈ first :: rest) :
    g.nextOnError n.id =
      match onError with
      | .stop => none
      | .client => some ("client", .error) := by
  have hcatch : g.catchAllHandler = none := hg.catchAll.trans hw.handler
  cases onError with
  | stop =>
    have hnone : p.edgeAt n.id .error = none := by
      cases h : p.edgeAt n.id .error with
      | none => rfl
      | some e =>
        obtain ⟨he, hl⟩ := PolicyConfig.edgeAt_eq_some h
        have hsuccess : portOutcome (endpointPort e.from) = some .success := by
          rcases hw.edge_cases he with ⟨hport, -⟩ | ⟨m, hm, rfl⟩
          · exact hport
          · -- without error edges to the client there is none of these
            rw [hw.edges, synthesizedEdges, if_neg (by decide), List.append_nil] at he
            rcases List.mem_cons.mp he with hentry | hchain
            · rw [hentry]
              exact (ends_entryEdge first).2
            · exact port_chainEdges hchain
        have herror := hl.2
        rw [hsuccess] at herror
        cases herror
    rw [CompiledGraph.nextOnError, hg.error, hnone, hcatch]
    rfl
  | client =>
    have hedge : clientEdge ".error" n ∈ p.edges := by
      rw [hw.edges, synthesizedEdges, if_pos rfl]
      exact List.mem_cons_of_mem _ (List.mem_append_right _ (List.mem_map_of_mem hn))
    have hends : ∀ m : NodeConfig, (clientEdge ".error" m).target = "client" := by
      intro m
      show endpointNode "client.in" = "client"
      decide
    have hleaves : (clientEdge ".error" n).Leaves n.id .error := by
      constructor
      · rw [EdgeConfig.source, endpointNode, clientEdge,
          parseEdgeEndpoint_append (s := ".error") n.id "error" rfl (by decide)]
      · rw [port_errorEdge]
        rfl
    have htarget : (p.edgeAt n.id .error).map (·.target) = some "client" := by
      rw [← hends n]
      refine PolicyConfig.edgeAt_target hedge hleaves fun e he hl => ?_
      rcases hw.edge_cases he with ⟨hport, -⟩ | ⟨m, -, rfl⟩
      · have herror := hl.2
        rw [hport] at herror
        cases herror
      · rw [hends, hends]
    rw [CompiledGraph.nextOnError, hg.error, htarget]
    rfl

/-- A success edge of the list, in the graph. -/
theorem Woven.nextOnSuccess (hw : Woven p first rest onError)
    (hplain : ∀ n ∈ first :: rest, PlainId n.id) (hg : Compiled env factory p g)
    {post pre : List NodeConfig} {a : NodeConfig} (hsplit : first :: rest = pre ++ a :: post) :
    g.nextOnSuccess a.id = some ((post.head?.map (·.id)).getD "client") := by
  have ha : a ∈ first :: rest := by rw [hsplit]; simp
  rw [hg.nextOnSuccess]
  exact (hw.next_eq hplain (next_userNode hsplit) (hplain a ha).2.1).2

/-- The walk from the client: one visit, that passes the context on. -/
theorem Woven.walk_client (hw : Woven p first rest onError)
    (hplain : ∀ n ∈ first :: rest, PlainId n.id)
    (hg : Compiled env (createPlugin native) p g) (ctx : Context) (w : σ) :
    ∃ visits, g.Walk "client" ctx w visits ctx w ∧
      visits.map Visit.call = (PipelineRun.atClient ctx w).calls := by
  have hclient : { id := "client", nodeType := "client" } ∈ p.nodes := by rw [hw.nodes]; simp
  have hnode : g.nodes["client"]? = some clientPlugin := by
    have h := hw.plugin_eq hplain hg hclient
    rw [h]
    rfl
  have hnext : g.nextOnSuccess "client" = none := by
    rw [hg.nextOnSuccess, PolicyConfig.next, if_pos (show p.IsClient "client" from hw.mem_clients.mpr rfl)]
  have hv : g.visit "client" ctx w =
      (g.okVisit "client" clientPlugin { context := ctx, namedOutputs := ∅ }, w) :=
    CompiledGraph.visit_success hnode rfl
  exact ⟨[g.okVisit "client" clientPlugin { context := ctx, namedOutputs := ∅ }],
    .last hv hnext, rfl⟩

/-- A failing node: the walk ends there, or at the client. -/
theorem Woven.walk_failure (hw : Woven p first rest onError)
    (hplain : ∀ n ∈ first :: rest, PlainId n.id)
    (hg : Compiled env (createPlugin native) p g) {a : NodeConfig} (ha : a ∈ first :: rest)
    {plugin : Plugin σ} (hnode : g.nodes[a.id]? = some plugin) {ctx : Context} {w w' : σ}
    {err : PluginExecutionError} (hexec : plugin.execute ctx ∅ w = (.error err, w')) :
    ∃ visits, g.Walk a.id ctx w visits (PipelineRun.failed onError a.id err w').context w' ∧
      visits.map Visit.call = (PipelineRun.failed onError a.id err w').calls := by
  have hv : g.visit a.id ctx w = (g.failedVisit a.id plugin err, w') :=
    CompiledGraph.visit_failure hnode hexec
  have hnext := hw.nextOnError hg ha
  cases onError with
  | stop =>
    have hnone : g.nextOnError a.id = none := hnext
    have hvisit : (g.failedVisit a.id plugin err).next = none ∧
        (g.failedVisit a.id plugin err).after = (err.tagged a.id).unhandledError := by
      simp only [CompiledGraph.failedVisit, hnone]
      exact ⟨rfl, rfl⟩
    have hwalk := CompiledGraph.Walk.last hv hvisit.1
    rw [hvisit.2] at hwalk
    refine ⟨_, hwalk, ?_⟩
    rw [List.map_singleton, Visit.call, hvisit.2]
    rfl
  | client =>
    have hsome : g.nextOnError a.id = some ("client", .error) := hnext
    have hvisit : (g.failedVisit a.id plugin err).next = some "client" ∧
        (g.failedVisit a.id plugin err).after = err.tagged a.id := by
      simp only [CompiledGraph.failedVisit, hsome]
      exact ⟨rfl, rfl⟩
    obtain ⟨visits, hwalk, hcalls⟩ := hw.walk_client hplain hg (err.tagged a.id) w'
    rw [← hvisit.2] at hwalk
    have hstep := CompiledGraph.Walk.step hv hvisit.1 hwalk
    rw [hvisit.2] at hstep
    refine ⟨_, hstep, ?_⟩
    rw [List.map_cons, hcalls, Visit.call, hvisit.2]
    rfl

/-- **The walk is the fold.**  Induction on the nodes from `a` on. -/
theorem Woven.walk_stages (hw : Woven p first rest onError)
    (hplain : ∀ n ∈ first :: rest, PlainId n.id)
    (hg : Compiled env (createPlugin native) p g) :
    ∀ {post pre : List NodeConfig} {a : NodeConfig} {stages : List (PipelineStage σ)},
      first :: rest = pre ++ a :: post → StagesOf env (createPlugin native) (a :: post) stages →
      ∀ (ctx : Context) (w : σ), ∃ visits,
        g.Walk a.id ctx w visits (runStages onError stages ctx w).context
          (runStages onError stages ctx w).world ∧
        visits.map Visit.call = (runStages onError stages ctx w).calls := by
  intro post
  induction post with
  | nil =>
    intro pre a stages hsplit hstages ctx w
    have ha : a ∈ first :: rest := by rw [hsplit]; simp
    cases hstages with
    | @cons _ stage _ _ hstage hnil =>
      cases hnil
      obtain ⟨id, plugin⟩ := stage
      obtain ⟨rfl, hplugin⟩ := hstage
      have hnode : g.nodes[a.id]? = some plugin := (hw.plugin_eq hplain hg (hw.mem_nodes ha)).trans hplugin
      obtain ⟨result, w', hexec⟩ : ∃ result w', plugin.execute ctx ∅ w = (result, w') := ⟨_, _, rfl⟩
      cases result with
      | error err =>
        rw [runStages_error hexec, PipelineRun.failed_world]
        exact hw.walk_failure hplain hg ha hnode hexec
      | ok output =>
        have hv := CompiledGraph.visit_success hnode hexec
        obtain ⟨visits, hwalk, hcalls⟩ := hw.walk_client hplain hg output.context w'
        rw [runStages_ok hexec]
        refine ⟨g.okVisit a.id plugin output :: visits,
          .step hv (hw.nextOnSuccess hplain hg hsplit) hwalk, ?_⟩
        rw [List.map_cons, hcalls]
        rfl
  | cons b post ih =>
    intro pre a stages hsplit hstages ctx w
    have ha : a ∈ first :: rest := by rw [hsplit]; simp
    cases hstages with
    | @cons _ stage _ stages hstage hrest =>
      obtain ⟨id, plugin⟩ := stage
      obtain ⟨rfl, hplugin⟩ := hstage
      have hnode : g.nodes[a.id]? = some plugin := (hw.plugin_eq hplain hg (hw.mem_nodes ha)).trans hplugin
      obtain ⟨result, w', hexec⟩ : ∃ result w', plugin.execute ctx ∅ w = (result, w') := ⟨_, _, rfl⟩
      cases result with
      | error err =>
        rw [runStages_error hexec, PipelineRun.failed_world]
        exact hw.walk_failure hplain hg ha hnode hexec
      | ok output =>
        have hv := CompiledGraph.visit_success hnode hexec
        obtain ⟨visits, hwalk, hcalls⟩ :=
          ih (show first :: rest = (pre ++ [a]) ++ b :: post by rw [hsplit]; simp) hrest
            output.context w'
        rw [runStages_ok hexec]
        refine ⟨g.okVisit a.id plugin output :: visits,
          .step hv (hw.nextOnSuccess hplain hg hsplit) hwalk, ?_⟩
        rw [List.map_cons, hcalls]
        rfl

/-- The walk begins at the first node of the list: only one node is a listener. -/
theorem Woven.entry_eq (hw : Woven p first rest onError)
    (hplain : ∀ n ∈ first :: rest, PlainId n.id) (hg : Compiled env factory p g) :
    g.entryNodeId = first.id := by
  obtain ⟨l, hl, hentry⟩ := hg.entry
  obtain ⟨n, hfind, rfl⟩ := Option.map_eq_some_iff.mp hl
  have htype : n.nodeType = "listener" := by simpa using List.find?_some hfind
  have hmem : n ∈ p.nodes := List.mem_reverse.mp (List.mem_of_find?_eq_some hfind)
  have hid : n.id = "listener" := by
    rw [hw.nodes, List.mem_cons, List.mem_append, List.mem_singleton] at hmem
    rcases hmem with rfl | huser | rfl
    · rfl
    · exact absurd htype (hw.types n huser).1
    · exact absurd htype (by decide)
  have hfirst : ("listener", first.id) ∈ successEnds first rest := List.mem_cons_self
  rw [hentry, hid, PolicyConfig.entryOf, (hw.next_eq hplain hfirst (by decide)).1, Option.getD_some]

/-- Where every listed node has a plugin, the pipeline compiles: its listener is there, and every
    edge leaves a known port. -/
theorem Woven.compiles (hw : Woven p first rest onError)
    (hbuilt : ∀ n ∈ first :: rest, (n.plugin env (createPlugin native)).isSome) :
    ∃ g : CompiledGraph σ, compilePolicy env (createPlugin native) p = .ok g := by
  have hall : ∀ n ∈ p.nodes, (n.plugin env (createPlugin native)).isSome := by
    intro n hn
    rw [hw.nodes, List.mem_cons, List.mem_append, List.mem_singleton] at hn
    rcases hn with rfl | huser | rfl
    · rfl
    · exact hbuilt n huser
    · rfl
  have hports : ∀ e ∈ p.edges, (portOutcome (endpointPort e.from)).isSome := by
    intro e he
    rcases hw.edge_cases he with ⟨hport, -⟩ | ⟨n, -, rfl⟩
    · rw [hport]
      rfl
    · rw [port_errorEdge]
      rfl
  obtain ⟨t, ht⟩ := compileNodes_total (t := {}) hall
  obtain ⟨e, he⟩ := indexEdges_total (t := {}) hports
  have hlistener : t.listenerNodeId.isSome := by
    rw [(compileNodes_spec ht).2.2.1, Option.isSome_map, List.find?_isSome]
    refine ⟨{ id := "listener", nodeType := "listener" }, ?_, by decide⟩
    rw [hw.nodes]
    simp
  obtain ⟨l, hl⟩ := Option.isSome_iff_exists.mp hlistener
  exact ⟨_, by simp only [compilePolicy, ht, he, hl, bind, Except.bind, pure, Except.pure]; rfl⟩

/-- Whatever is compiled has a plugin for each node. -/
theorem exists_stages {nodes : List NodeConfig}
    (hbuilt : ∀ n ∈ nodes, (n.plugin env factory).isSome) :
    ∃ stages, StagesOf env factory nodes stages := by
  induction nodes with
  | nil => exact ⟨[], .nil⟩
  | cons n nodes ih =>
    obtain ⟨stages, hstages⟩ := ih fun m hm => hbuilt m (List.mem_cons_of_mem n hm)
    obtain ⟨plugin, hplugin⟩ := Option.isSome_iff_exists.mp (hbuilt n List.mem_cons_self)
    exact ⟨⟨n.id, plugin⟩ :: stages, .cons ⟨rfl, hplugin⟩ hstages⟩

/-- The graph of a pipeline walks its stages, from its entry to the end. -/
theorem Woven.walk_graph (hw : Woven p first rest onError)
    (hplain : ∀ n ∈ first :: rest, PlainId n.id) (hg : Compiled env (createPlugin native) p g)
    {stages : List (PipelineStage σ)} (hstages : StagesOf env (createPlugin native) (first :: rest) stages)
    (ctx : Context) (w : σ) :
    ∃ visits, g.Walk g.entryNodeId ctx w visits (runStages onError stages ctx w).context
        (runStages onError stages ctx w).world ∧
      visits.map Visit.call = (runStages onError stages ctx w).calls ∧
      visits.length ≤ (first :: rest).length + 1 := by
  rw [hw.entry_eq hplain hg]
  obtain ⟨visits, hwalk, hcalls⟩ :=
    hw.walk_stages hplain hg (show first :: rest = [] ++ first :: rest from rfl) hstages ctx w
  refine ⟨visits, hwalk, hcalls, ?_⟩
  have hlength := congrArg List.length hcalls
  rw [List.length_map] at hlength
  rw [hlength, hstages.length_eq]
  exact runStages_length stages ctx w

end Walk

/-- **A synthesized pipeline runs as listed.**  Where the ids are plain, the graph compiled from the
    policy woven around a list of nodes does what the list says, for all plugins: it ends, with the
    context and the effects of the fold, traced or not, and its visits are the fold's plugin
    calls. -/
theorem synthesized_runs_stages [CaseMapping] {nodes : List NodeConfig} {onError : OnError}
    {p : PolicyConfig} (h : synthesizePolicy nodes onError = .ok p)
    (hplain : ∀ n ∈ userNodes nodes, PlainId n.id) {σ : Type} {env : Env}
    {native : PluginFactory σ} {g : CompiledGraph σ}
    (hg : compilePolicy env (createPlugin native) p = .ok g) :
    ∃ stages, StagesOf env (createPlugin native) (userNodes nodes) stages ∧
      ∀ (fuel : Nat) (ctx : Context) (w : σ), nodes.length + 1 ≤ fuel →
        g.execute fuel ctx w = some ((runStages onError stages ctx w).context,
          (runStages onError stages ctx w).world) ∧
        ∀ recorder : TraceRecorder, ∃ visits : List Visit,
          visits.map Visit.call = (runStages onError stages ctx w).calls ∧
          g.executeTraced fuel ctx recorder w = some ((runStages onError stages ctx w).context,
            visits.foldl TraceRecorder.record recorder, (runStages onError stages ctx w).world) := by
  obtain ⟨first, rest, hnodes, hw⟩ := woven_of_synthesize h
  have hlength : nodes.length = (first :: rest).length := by
    rw [← hnodes, userNodes, List.length_mapIdx]
  rw [hnodes] at hplain ⊢
  have hcomp := compiled_of_compile hg
  obtain ⟨stages, hstages⟩ := exists_stages fun n hn => hcomp.built n (hw.mem_nodes hn)
  refine ⟨stages, hstages, fun fuel ctx w hfuel => ?_⟩
  obtain ⟨visits, hwalk, hcalls, hle⟩ := hw.walk_graph hplain hcomp hstages ctx w
  have henough : visits.length ≤ fuel := by omega
  exact ⟨execute_of_walk hwalk henough,
    fun recorder => ⟨visits, hcalls, executeTraced_of_walk hwalk henough recorder⟩⟩

/-- A plugin that fails on every context, behind one that passes it on. -/
def failing (pluginType : String) : Plugin Nat where
  pluginType := pluginType
  execute ctx _ calls :=
    (.error { context := ctx, error := ⟨"", "DENIED", "no", ∅⟩ }, calls + 1)

/-- `deny` fails; every other type passes the context on. -/
def denyFactory : PluginFactory Nat where
  create nodeType _ := .ok (if nodeType = "deny" then failing nodeType else passThrough nodeType)
  typed h := by
    rw [← Except.ok.inj h]
    split <;> rfl

/-- Two of three nodes run, and the failure of the second goes to the client. -/
theorem synthesized_runs_stages_deny :
    let _ : CaseMapping := asciiCaseMapping
    let nodes := [{ id := "a", nodeType := "cors" }, { id := "b", nodeType := "deny" },
      { id := "c", nodeType := "cors" }]
    ∃ p g, synthesizePolicy nodes .client = .ok p ∧
      compilePolicy (fun _ => none) (createPlugin denyFactory) p = .ok g ∧
      ∃ stages, StagesOf (fun _ => none) (createPlugin denyFactory) (userNodes nodes) stages ∧
        ∀ ctx : Context,
          g.execute 4 ctx 0 = some ((runStages .client stages ctx 0).context,
            (runStages .client stages ctx 0).world) := by
  intro _ nodes
  obtain ⟨p, hp⟩ : ∃ p, synthesizePolicy nodes .client = .ok p := ⟨_, rfl⟩
  obtain ⟨g, hg⟩ : ∃ g, compilePolicy (fun _ => none) (createPlugin denyFactory) p = .ok g := by
    obtain rfl := Except.ok.inj hp
    exact ⟨_, rfl⟩
  have hplain : ∀ n ∈ userNodes nodes, PlainId n.id := by
    intro n hn
    have hid : n.id ∈ ["a", "b", "c"] := by
      have hmem := List.mem_map_of_mem (f := NodeConfig.id) hn
      rwa [show (userNodes nodes).map NodeConfig.id = ["a", "b", "c"] by decide] at hmem
    simp only [List.mem_cons, List.not_mem_nil, or_false] at hid
    rcases hid with h | h | h <;> rw [h] <;> exact ⟨by decide, by decide, by decide⟩
  obtain ⟨stages, hstages, hrun⟩ := synthesized_runs_stages hp hplain hg
  refine ⟨p, g, hp, hg, stages, hstages, fun ctx => (hrun 4 ctx 0 (Nat.le_refl 4)).1⟩

end Featherbit
