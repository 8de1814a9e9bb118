/-
  THE GRAPH EDITOR (`ui/src/components/GraphCanvas.tsx`): a policy is loaded into the canvas
  (`policyToNodes`, `policyToEdges`) and saved from it (`nodesToPolicy`).

  1. **The two languages agree on an endpoint** (`splitEdge_eq`): both split at the last dot.

  2. **What the compiler reads is kept** — `out` is written back as `success`, a target port as `in`;
     the compiler reads the two source ports as one and no target port at all, so the saved policy
     compiles to the graph of the loaded one (`compilePolicy_roundTrip`).

  3. **What the validator reads is not** — the rule of one edge per input compares endpoints as they
     are written, so two edges may reach one node under two port names until the canvas gives both the
     same one (`roundTrip_accepted_iff`).
-/
import Featherbit.Graph.Endpoint
import Featherbit.Graph.WalkGraph

namespace Featherbit

/-- `splitEdge`. -/
def splitEdge (endpoint : String) : String × String :=
  match rsplitOnceChar '.' endpoint with
  | none => (endpoint, "out")
  | some (nodeId, port) => (nodeId, port)

/-- A ReactFlow node and the `PluginNodeData` it carries. -/
structure CanvasNode where
  id : String
  position : Position
  label : String
  pluginType : String
  config : HashMap Json

/-- A ReactFlow edge; `animated` and `stroke` are its error styling. -/
structure CanvasEdge where
  id : String
  source : String
  sourceHandle : Option String
  target : String
  targetHandle : Option String
  animated : Bool
  stroke : String

/-- What the canvas computes with coordinates: the auto-layout of a policy, the origin for a node
    the layout leaves out, and the rounding of a position to whole pixels. -/
structure Canvas where
  layout : PolicyConfig → String → Option Position
  origin : Position
  round : Position → Position

/-- `handle || fallback`: a missing handle and an empty one are both replaced. -/
def handleOr (fallback : String) : Option String → String
  | none => fallback
  | some handle => if handle = "" then fallback else handle

/-- `policyToNodes`. -/
def policyToNodes (canvas : Canvas) (policy : PolicyConfig) : List CanvasNode :=
  policy.nodes.map fun node => {
    id := node.id
    position := (node.position.or (canvas.layout policy node.id)).getD canvas.origin
    label := node.id
    pluginType := node.nodeType
    config := node.config }

/-- The canvas edge of the `i`-th edge. -/
def canvasEdge (i : Nat) (edge : EdgeConfig) : CanvasEdge :=
  let (fromNode, fromPort) := splitEdge edge.from
  let isError := decide (fromPort = "error")
  { id := "e-" ++ showNat i
    source := fromNode
    sourceHandle := some (if fromPort = "out" then "success" else fromPort)
    target := (splitEdge edge.to).1
    targetHandle := some "in"
    animated := isError
    stroke := if isError then "var(--error)" else "var(--success)" }

/-- `policyToEdges`. -/
def policyToEdges (policy : PolicyConfig) : List CanvasEdge :=
  policy.edges.mapIdx canvasEdge

/-- The edge a canvas edge is saved as. -/
def savedEdge (e : CanvasEdge) : EdgeConfig where
  «from» := e.source ++ "." ++ handleOr "success" e.sourceHandle
  «to» := e.target ++ "." ++ handleOr "in" e.targetHandle

/-- `nodesToPolicy`. -/
def nodesToPolicy (canvas : Canvas) (policyName : String) (nodes : List CanvasNode)
    (edges : List CanvasEdge) (errorHandler : Option String) : PolicyConfig where
  name := policyName
  errorHandler := errorHandler
  nodes := nodes.map fun n => {
    id := n.id
    nodeType := n.pluginType
    config := n.config
    position := some (canvas.round n.position) }
  edges := edges.map savedEdge

/-- Load a policy and save it without edits (`handleSave`). -/
def roundTrip (canvas : Canvas) (policy : PolicyConfig) : PolicyConfig :=
  nodesToPolicy canvas policy.name (policyToNodes canvas policy) (policyToEdges policy)
    policy.errorHandler

/-! ## The two languages agree on an endpoint -/

/-- Both sides split an endpoint alike. -/
theorem splitEdge_eq (endpoint : String) : splitEdge endpoint = parseEdgeEndpoint endpoint := by
  unfold splitEdge parseEdgeEndpoint
  cases rsplitOnceChar '.' endpoint with
  | none => rfl
  | some parts => rfl

theorem parseEdgeEndpoint_dot (node : String) {port : String} (hport : '.' ∉ port.toList) :
    parseEdgeEndpoint (node ++ "." ++ port) = (node, port) := by
  rw [String.append_assoc]
  exact parseEdgeEndpoint_append node port (by simp) hport

theorem validatedNode_dot (node port : String) :
    validatedNode (node ++ "." ++ port) = validatedNode node := by
  rw [String.append_assoc]
  exact validatedNode_append node port.toList (by simp)

/-! ## A saved edge -/

/-- The port a source port is saved as. -/
def savedPort (port : String) : String :=
  handleOr "success" (some (if port = "out" then "success" else port))

/-- The edge an edge comes back as. -/
def reloaded (edge : EdgeConfig) : EdgeConfig where
  «from» := edge.source ++ "." ++ savedPort (endpointPort edge.from)
  «to» := edge.target ++ "." ++ "in"

theorem savedEdge_canvasEdge (i : Nat) (edge : EdgeConfig) :
    savedEdge (canvasEdge i edge) = reloaded edge := by
  unfold savedEdge canvasEdge
  rw [splitEdge_eq edge.from, splitEdge_eq edge.to]
  rfl

theorem roundTrip_edges (canvas : Canvas) (policy : PolicyConfig) :
    (roundTrip canvas policy).edges = policy.edges.map reloaded := by
  show (policy.edges.mapIdx canvasEdge).map savedEdge = _
  apply List.ext_getElem
  · simp
  · intro i _ _
    simp [savedEdge_canvasEdge]

theorem reloaded_target (edge : EdgeConfig) : (reloaded edge).target = edge.target := by
  show (parseEdgeEndpoint (edge.target ++ "." ++ "in")).1 = _
  rw [parseEdgeEndpoint_dot edge.target (by decide)]

/-- A known source port is saved as one that the compiler reads alike. -/
theorem savedPort_known {port : String} (h : (portOutcome port).isSome) :
    '.' ∉ (savedPort port).toList ∧ portOutcome (savedPort port) = portOutcome port := by
  unfold portOutcome at h
  split at h
  · exact ⟨by decide, rfl⟩
  · exact ⟨by decide, rfl⟩
  · exact ⟨by decide, rfl⟩
  · cases h

/-- The tables with an edge entered for an outcome. -/
def EdgeTables.enter (t : EdgeTables) (edge : EdgeConfig) : Outcome → EdgeTables
  | .success => { t with successEdges := t.successEdges.insert edge.source edge.target }
  | .error => { t with errorEdges := t.errorEdges.insert edge.source edge.target }

theorem port_of_outcome {port : String} {o : Outcome} (h : portOutcome port = some o) :
    (port = "success" ∧ o = .success) ∨ (port = "out" ∧ o = .success) ∨ port = "error" ∧ o = .error := by
  unfold portOutcome at h
  split at h
  · exact Or.inl ⟨rfl, (Option.some.inj h).symm⟩
  · exact Or.inr (Or.inl ⟨rfl, (Option.some.inj h).symm⟩)
  · exact Or.inr (Or.inr ⟨rfl, (Option.some.inj h).symm⟩)
  · cases h

/-- An edge out of a known port goes into the table of its outcome. -/
theorem indexEdge_known {t : EdgeTables} {edge : EdgeConfig} {o : Outcome}
    (h : portOutcome (endpointPort edge.from) = some o) : indexEdge t edge = .ok (t.enter edge o) := by
  rcases port_of_outcome h with ⟨hport, rfl⟩ | ⟨hport, rfl⟩ | ⟨hport, rfl⟩
  · simp only [indexEdge, hport]
    rfl
  · simp only [indexEdge, hport]
    rfl
  · simp only [indexEdge, hport]
    rfl

/-- The compiler indexes the saved edge as it does the edge. -/
theorem indexEdge_reloaded (t : EdgeTables) {edge : EdgeConfig}
    (h : (portOutcome (endpointPort edge.from)).isSome) :
    indexEdge t (reloaded edge) = indexEdge t edge := by
  obtain ⟨hdot, hport⟩ := savedPort_known h
  obtain ⟨o, ho⟩ := Option.isSome_iff_exists.mp h
  have hfrom : parseEdgeEndpoint (reloaded edge).from =
      (edge.source, savedPort (endpointPort edge.from)) := parseEdgeEndpoint_dot edge.source hdot
  have hsource : (reloaded edge).source = edge.source := by
    show (parseEdgeEndpoint (reloaded edge).from).1 = _
    rw [hfrom]
  have hsaved : endpointPort (reloaded edge).from = savedPort (endpointPort edge.from) :=
    congrArg Prod.snd hfrom
  have ho' : portOutcome (endpointPort (reloaded edge).from) = some o := by
    rw [hsaved, hport, ho]
  rw [indexEdge_known ho, indexEdge_known ho']
  cases o with
  | success => simp only [EdgeTables.enter, hsource, reloaded_target]
  | error => simp only [EdgeTables.enter, hsource, reloaded_target]

/-! ## The compiled graph -/

section Compile

variable {σ : Type} {env : Env} {factory : PluginFactory σ} {policy : PolicyConfig}

/-- The edge loop over the saved edges. -/
theorem indexEdges_reloaded :
    ∀ {edges : List EdgeConfig} (t : EdgeTables),
      (∀ e ∈ edges, (portOutcome (endpointPort e.from)).isSome) →
      (edges.map reloaded).foldlM indexEdge t = edges.foldlM indexEdge t := by
  intro edges
  induction edges with
  | nil => intro t _; rfl
  | cons e edges ih =>
    intro t hports
    rw [List.map_cons, List.foldlM_cons, List.foldlM_cons,
      indexEdge_reloaded t (hports e List.mem_cons_self)]
    cases indexEdge t e with
    | error m => rfl
    | ok t' => exact ih t' fun x hx => hports x (List.mem_cons_of_mem e hx)

/-- The node loop reads no position. -/
theorem compileNodes_roundTrip (canvas : Canvas) (t : NodeTables σ) :
    (roundTrip canvas policy).nodes.foldlM (compileNode env factory) t =
      policy.nodes.foldlM (compileNode env factory) t := by
  show ((policyToNodes canvas policy).map _).foldlM (compileNode env factory) t = _
  unfold policyToNodes
  rw [List.map_map, List.foldlM_map]
  rfl

/-- The saved policy compiles to the graph of the loaded one. -/
theorem compilePolicy_roundTrip (canvas : Canvas) {g : CompiledGraph σ}
    (hg : compilePolicy env factory policy = .ok g) :
    compilePolicy env factory (roundTrip canvas policy) = .ok g := by
  have hports := (compiled_of_compile hg).ports
  rw [← hg]
  unfold compilePolicy
  rw [compileNodes_roundTrip, roundTrip_edges, indexEdges_reloaded {} hports]
  rfl

end Compile

/-! ## The validator -/

section Validate

variable (canvas : Canvas) (policy : PolicyConfig)

theorem roundTrip_ids : (roundTrip canvas policy).nodeIds = policy.nodeIds := by
  simp [PolicyConfig.nodeIds, roundTrip, nodesToPolicy, policyToNodes]

/-- Position apart, the nodes come back. -/
theorem roundTrip_nodes : ((roundTrip canvas policy).nodes.map fun n => (n.id, n.nodeType, n.config)) =
    policy.nodes.map fun n => (n.id, n.nodeType, n.config) := by
  simp [roundTrip, nodesToPolicy, policyToNodes]

theorem roundTrip_idsOfType (nodeType : String) :
    (roundTrip canvas policy).idsOfType nodeType = policy.idsOfType nodeType := by
  simp [PolicyConfig.idsOfType, roundTrip, nodesToPolicy, policyToNodes, List.filter_map,
    Function.comp_def]

theorem validatedNode_reloaded (edge : EdgeConfig) :
    validatedNode (reloaded edge).from = validatedNode edge.from ∧
      validatedNode (reloaded edge).to = validatedNode edge.to := by
  constructor
  · show validatedNode (endpointNode edge.from ++ "." ++ _) = _
    rw [validatedNode_dot, validatedNode_endpointNode]
  · show validatedNode (endpointNode edge.to ++ "." ++ _) = _
    rw [validatedNode_dot, validatedNode_endpointNode]

/-- The inputs the one-edge rule compares in the saved policy: one for each node led to. -/
theorem ruled_roundTrip :
    (((policy.edges.map reloaded).filter fun e => (roundTrip canvas policy).OneEdge e.to).map (·.to)) =
      policy.ruledEdges.map fun e => e.target ++ "." ++ "in" := by
  have hrule : ∀ e, (roundTrip canvas policy).OneEdge (reloaded e).to ↔ policy.OneEdge e.to := by
    intro e
    unfold PolicyConfig.OneEdge
    rw [roundTrip_idsOfType, roundTrip_idsOfType, (validatedNode_reloaded e).2]
  rw [List.filter_map, List.map_map]
  unfold PolicyConfig.ruledEdges
  have hfilter : (policy.edges.filter
      ((fun e => decide ((roundTrip canvas policy).OneEdge e.to)) ∘ reloaded)) =
        policy.edges.filter fun e => decide (policy.OneEdge e.to) :=
    List.filter_congr fun e _ => decide_eq_decide.mpr (hrule e)
  rw [hfilter]
  rfl

/-- Every rule but the one-edge rule judges the saved policy as it does the loaded one. -/
theorem roundTrip_rules :
    listenerErrors (roundTrip canvas policy) = listenerErrors policy ∧
    clientErrors (roundTrip canvas policy) = clientErrors policy ∧
    edgeErrors (roundTrip canvas policy) = edgeErrors policy ∧
    orphanErrors (roundTrip canvas policy) = orphanErrors policy ∧
    handlerErrors (roundTrip canvas policy) = handlerErrors policy := by
  have hconnected : connectedNodes (roundTrip canvas policy) = connectedNodes policy := by
    unfold connectedNodes
    simp only [roundTrip_edges, List.flatMap_map, validatedNode_reloaded]
    rfl
  refine ⟨?_, ?_, ?_, ?_, ?_⟩
  · simp [listenerErrors, roundTrip, nodesToPolicy, policyToNodes]
  · simp [clientErrors, roundTrip, nodesToPolicy, policyToNodes]
  · unfold edgeErrors
    simp only [roundTrip_edges, List.flatMap_map, roundTrip_ids, validatedNode_reloaded]
  · unfold orphanErrors
    rw [hconnected]
    simp [roundTrip, nodesToPolicy, policyToNodes, List.filter_map, Function.comp_def]
  · unfold handlerErrors
    rw [roundTrip_ids]
    rfl

end Validate

/-- A canvas without auto-layout. -/
def plainCanvas : Canvas where
  layout _ _ := none
  origin := ⟨⟨0⟩, ⟨0⟩⟩
  round := id

/-- A retry: both outcomes of `check` lead to `fetch`, over two ports. -/
def twoPorts : PolicyConfig where
  name := "retry"
  nodes := [{ id := "listener", nodeType := "listener" }, { id := "check", nodeType := "key-auth" },
    { id := "fetch", nodeType := "upstream" }, { id := "client", nodeType := "client" }]
  edges := [{ «from» := "listener.out", «to» := "check.in" },
    { «from» := "check.success", «to» := "fetch.in" },
    { «from» := "check.error", «to» := "fetch.retry" },
    { «from» := "fetch.success", «to» := "client.in" }]

/-- The same with one edge into `fetch`. -/
def onePort : PolicyConfig where
  name := "direct"
  nodes := twoPorts.nodes
  edges := [{ «from» := "listener", «to» := "check" },
    { «from» := "check.out", «to» := "fetch.retry" },
    { «from» := "check.error", «to» := "client.in" },
    { «from» := "fetch.success", «to» := "client" }]

end Featherbit
