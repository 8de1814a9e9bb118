/-
  THE SANDBOX'S PIPELINE (`synthesize_policy` of `debug/sandbox.rs`): a policy woven around the
  nodes a user lists, `listener` before them, `client` behind them.

  Three readers take the policy up afterwards and must agree on what it says: the validator, which
  reads an endpoint up to its first dot; the compiler, which reads it up to its last dot and lets
  a later node replace an earlier one of the same id; and the walk.  They agree exactly when no
  node goes by an id with a dot in it or by one of the two ids that are added
  (`synthesize_runnable_iff`):

  1. a dot: the validator misses the node (`no_dot_of_valid`);
  2. `listener` or `client`: two nodes of one id (`reserved_of_distinct`);
  3. otherwise the success edges leave distinct ids, so each node leads to the next one of the
     list (`next_userNode`) and the walk is that list (`walk_userNodes`, by induction on what is
     left of it).
-/
import Featherbit.Graph.Endpoint
import Featherbit.Graph.Tracing
import Featherbit.Graph.Wiring

namespace Featherbit

/-- What to do when an ad-hoc node fails. -/
inductive OnError where
  | stop
  | client
deriving DecidableEq

/-- A node of the user as it is entered: a blank id is filled in. -/
def userNode (i : Nat) (n : NodeConfig) : NodeConfig :=
  if trim n.id = "" then { n with id := n.nodeType ++ "-" ++ showNat i } else n

/-- The nodes of the user as they are entered. -/
def userNodes (nodes : List NodeConfig) : List NodeConfig := nodes.mapIdx userNode

/-- The loop over the user's nodes: `i` is the number of the next one, `seen` are the ids before
    it. -/
def collectNodes (i : Nat) (seen : List String) : List NodeConfig → Except String (List NodeConfig)
  | [] => .ok []
  | n :: nodes =>
    if n.nodeType = "listener" ∨ n.nodeType = "client" then
      .error ("node '" ++ n.id ++ "': '" ++ n.nodeType ++
        "' nodes are added automatically and cannot be supplied")
    else if (userNode i n).id ∈ seen then
      .error ("duplicate node id '" ++ (userNode i n).id ++ "'")
    else
      (collectNodes (i + 1) ((userNode i n).id :: seen) nodes).map (userNode i n :: ·)

/-- The edge between two neighbours. -/
def linkEdge (a b : NodeConfig) : EdgeConfig where
  «from» := a.id ++ ".success"
  «to» := b.id ++ ".in"

/-- The edge from a port of a node to the client. -/
def clientEdge (port : String) (n : NodeConfig) : EdgeConfig where
  «from» := n.id ++ port
  «to» := "client.in"

/-- The edge into the first node. -/
def entryEdge (first : NodeConfig) : EdgeConfig where
  «from» := "listener.out"
  «to» := first.id ++ ".in"

/-- The nodes `first :: rest` chained through their success ports, up to the client. -/
def chainEdges (first : NodeConfig) (rest : List NodeConfig) : List EdgeConfig :=
  (((first :: rest).zip rest).map fun (a, b) => linkEdge a b) ++
    [clientEdge ".success" ((first :: rest).getLast (List.cons_ne_nil first rest))]

/-- The edges around the nodes `first :: rest`. -/
def synthesizedEdges (first : NodeConfig) (rest : List NodeConfig) (onError : OnError) :
    List EdgeConfig :=
  entryEdge first :: (chainEdges first rest ++
    if onError = .client then (first :: rest).map (clientEdge ".error") else [])

/-- `synthesize_policy`. -/
def synthesizePolicy (nodes : List NodeConfig) (onError : OnError) :
    Except String PolicyConfig := do
  match ← collectNodes 0 [] nodes with
  | [] => .error "'nodes' must contain at least one node"
  | first :: rest =>
    .ok
      { name := "__sandbox"
        errorHandler := none
        nodes := { id := "listener", nodeType := "listener" } ::
          ((first :: rest) ++ [{ id := "client", nodeType := "client" }])
        edges := synthesizedEdges first rest onError }

/-! ## What an accepted list is -/

theorem collectNodes_ok :
    ∀ {nodes : List NodeConfig} {i : Nat} {seen : List String} {user : List NodeConfig},
      collectNodes i seen nodes = .ok user →
      user = nodes.mapIdx (fun j => userNode (i + j)) ∧
      (∀ n ∈ user, n.nodeType ≠ "listener" ∧ n.nodeType ≠ "client") ∧
      (user.map (·.id)).Nodup ∧ ∀ n ∈ user, n.id ∉ seen := by
  intro nodes
  induction nodes with
  | nil =>
    intro i seen user h
    obtain rfl := Except.ok.inj h
    simp
  | cons n nodes ih =>
    intro i seen user h
    rw [collectNodes] at h
    split at h
    · cases h
    · rename_i htype
      split at h
      · cases h
      · rename_i hnew
        cases hrest : collectNodes (i + 1) ((userNode i n).id :: seen) nodes with
        | error e => rw [hrest] at h; cases h
        | ok rest =>
          rw [hrest] at h
          obtain rfl := Except.ok.inj h
          obtain ⟨heq, htypes, hnodup, hfresh⟩ := ih hrest
          have hsame : (userNode i n).nodeType = n.nodeType := by
            unfold userNode
            split <;> rfl
          refine ⟨?_, ?_, ?_, ?_⟩
          · -- the places of the others are counted from the next one
            have hshift : (fun j => userNode (i + 1 + j)) = fun j => userNode (i + (j + 1)) := by
              funext j
              rw [show i + 1 + j = i + (j + 1) by omega]
            rw [List.mapIdx_cons, heq, hshift, Nat.add_zero]
          · intro m hm
            rcases List.mem_cons.mp hm with rfl | hm
            · rw [hsame]
              exact not_or.mp htype
            · exact htypes m hm
          · rw [List.map_cons, List.nodup_cons]
            refine ⟨fun hmem => ?_, hnodup⟩
            obtain ⟨m, hm, hid⟩ := List.mem_map.mp hmem
            refine hfresh m hm ?_
            rw [hid]
            exact List.mem_cons_self
          · intro m hm
            rcases List.mem_cons.mp hm with rfl | hm
            · exact hnew
            · exact fun hs => hfresh m hm (List.mem_cons_of_mem _ hs)

/-- The policy woven around `first :: rest`. -/
structure Woven (p : PolicyConfig) (first : NodeConfig) (rest : List NodeConfig)
    (onError : OnError) : Prop where
  nodes : p.nodes = { id := "listener", nodeType := "listener" } ::
    ((first :: rest) ++ [{ id := "client", nodeType := "client" }])
  edges : p.edges = synthesizedEdges first rest onError
  handler : p.errorHandler = none
  types : ∀ n ∈ first :: rest, n.nodeType ≠ "listener" ∧ n.nodeType ≠ "client"
  nodup : ((first :: rest).map (·.id)).Nodup

theorem woven_of_synthesize {nodes : List NodeConfig} {onError : OnError} {p : PolicyConfig}
    (h : synthesizePolicy nodes onError = .ok p) :
    ∃ first rest, userNodes nodes = first :: rest ∧ Woven p first rest onError := by
  obtain ⟨user, hcollect, hp⟩ := TryFold.bind_eq_ok.mp h
  obtain ⟨huser, htypes, hnodup, -⟩ := collectNodes_ok hcollect
  have hnodes : userNodes nodes = user := by simp [huser, userNodes]
  cases user with
  | nil => cases hp
  | cons first rest =>
    obtain rfl := Except.ok.inj hp
    exact ⟨first, rest, hnodes, ⟨rfl, rfl, rfl, htypes, hnodup⟩⟩

/-! ## Endpoints -/

/-- Where an edge leaves from and leads to. -/
def EdgeConfig.ends (e : EdgeConfig) : String × String := (e.source, e.target)

theorem ends_linkEdge (a b : NodeConfig) :
    (linkEdge a b).ends = (a.id, b.id) ∧ endpointPort (linkEdge a b).from = "success" := by
  simp only [EdgeConfig.ends, EdgeConfig.source, EdgeConfig.target, endpointNode, endpointPort,
    linkEdge]
  rw [parseEdgeEndpoint_append (s := ".success") a.id "success" rfl (by decide),
    parseEdgeEndpoint_append (s := ".in") b.id "in" rfl (by decide)]
  exact ⟨rfl, rfl⟩

theorem ends_successEdge (a : NodeConfig) :
    (clientEdge ".success" a).ends = (a.id, "client") ∧
      endpointPort (clientEdge ".success" a).from = "success" := by
  simp only [EdgeConfig.ends, EdgeConfig.source, EdgeConfig.target, endpointNode, endpointPort,
    clientEdge]
  rw [parseEdgeEndpoint_append (s := ".success") a.id "success" rfl (by decide)]
  exact ⟨rfl, rfl⟩

theorem port_errorEdge (a : NodeConfig) : endpointPort (clientEdge ".error" a).from = "error" := by
  rw [endpointPort, clientEdge,
    parseEdgeEndpoint_append (s := ".error") a.id "error" rfl (by decide)]

/-! ## The edges of the pipeline -/

section Edges

variable {p : PolicyConfig} {first : NodeConfig} {rest : List NodeConfig} {onError : OnError}

/-- The success edges as pairs: `listener` leads to the first id, each id to the next one, the
    last one to `client`. -/
def successEnds (first : NodeConfig) (rest : List NodeConfig) : List (String × String) :=
  ("listener", first.id) ::
    ((first :: rest).map (·.id)).zip (rest.map (·.id) ++ ["client"])

theorem ends_chainEdges (first : NodeConfig) (rest : List NodeConfig) :
    (chainEdges first rest).map EdgeConfig.ends =
      ((first :: rest).map (·.id)).zip (rest.map (·.id) ++ ["client"]) := by
  induction rest generalizing first with
  | nil => simp [chainEdges, (ends_successEdge first).1]
  | cons second rest ih =>
    have hcons : chainEdges first (second :: rest) =
        linkEdge first second :: chainEdges second rest := rfl
    rw [hcons, List.map_cons, ih, (ends_linkEdge first second).1]
    rfl

theorem port_chainEdges {e : EdgeConfig} (he : e ∈ chainEdges first rest) :
    portOutcome (endpointPort e.from) = some .success := by
  rcases List.mem_append.mp he with hlink | hlast
  · obtain ⟨⟨a, b⟩, -, rfl⟩ := List.mem_map.mp hlink
    show portOutcome (endpointPort (linkEdge a b).from) = _
    rw [(ends_linkEdge a b).2]
    rfl
  · rw [List.mem_singleton.mp hlast, (ends_successEdge _).2]
    rfl

theorem ends_entryEdge (first : NodeConfig) :
    (entryEdge first).ends = ("listener", first.id) ∧
      portOutcome (endpointPort (entryEdge first).from) = some .success := by
  constructor
  · simp only [EdgeConfig.ends, EdgeConfig.source, EdgeConfig.target, endpointNode, entryEdge]
    rw [parseEdgeEndpoint_append (s := ".in") first.id "in" rfl (by decide)]
    rfl
  · show portOutcome (endpointPort "listener.out") = _
    decide

/-- An edge of the policy is a success edge with its ends in the list, or leads from a node's
    error port to the client. -/
theorem Woven.edge_cases (hw : Woven p first rest onError) {e : EdgeConfig} (he : e ∈ p.edges) :
    (portOutcome (endpointPort e.from) = some .success ∧ e.ends ∈ successEnds first rest) ∨
      ∃ n ∈ first :: rest, e = clientEdge ".error" n := by
  rw [hw.edges, synthesizedEdges, List.mem_cons, List.mem_append] at he
  rcases he with rfl | hchain | herror
  · left
    exact ⟨(ends_entryEdge first).2, List.mem_cons.mpr (Or.inl (ends_entryEdge first).1)⟩
  · left
    refine ⟨port_chainEdges hchain, List.mem_cons_of_mem _ ?_⟩
    rw [← ends_chainEdges]
    exact List.mem_map_of_mem hchain
  · right
    split at herror
    · obtain ⟨n, hn, rfl⟩ := List.mem_map.mp herror
      exact ⟨n, hn, rfl⟩
    · cases herror

/-- Each pair is the two ends of an edge. -/
theorem Woven.exists_edge (hw : Woven p first rest onError) {id next : String}
    (hends : (id, next) ∈ successEnds first rest) :
    ∃ e ∈ p.edges, e.Leaves id .success ∧ e.target = next := by
  have hleaves : ∀ e : EdgeConfig, e.ends = (id, next) →
      portOutcome (endpointPort e.from) = some .success → e.Leaves id .success ∧ e.target = next := by
    intro e heq hport
    obtain ⟨hid, hnext⟩ := Prod.mk.inj heq
    exact ⟨⟨hid, hport⟩, hnext⟩
  rw [hw.edges, synthesizedEdges]
  rcases List.mem_cons.mp hends with hentry | hchain
  · obtain ⟨hends', hport⟩ := ends_entryEdge first
    exact ⟨_, List.mem_cons_self, hleaves _ (hends'.trans hentry.symm) hport⟩
  · rw [← ends_chainEdges] at hchain
    obtain ⟨e, he, heq⟩ := List.mem_map.mp hchain
    exact ⟨e, List.mem_cons_of_mem _ (List.mem_append_left _ he),
      hleaves e heq (port_chainEdges he)⟩

theorem map_fst_successEnds (first : NodeConfig) (rest : List NodeConfig) :
    (successEnds first rest).map Prod.fst = "listener" :: (first :: rest).map (·.id) := by
  rw [successEnds, List.map_cons, List.map_fst_zip (by simp)]

end Edges

/-! ## What the user may expect -/

/-- Every plugin of the graph succeeds, whatever it is given. -/
def CompiledGraph.AllSucceed {σ : Type} (g : CompiledGraph σ) : Prop :=
  ∀ (id : String) (node : Plugin σ), g.nodes[id]? = some node → ∀ ctx w,
    ∃ output w', node.execute ctx ∅ w = (.ok output, w')

/-- The engine runs the nodes of the list, each once and in order, and ends at the client. -/
def RunsInOrder (user : List NodeConfig) {σ : Type} (g : CompiledGraph σ) : Prop :=
  ∀ (_ : CaseMapping) (ctx : Context) (w : σ), ∃ visits c w',
    g.Walk g.entryNodeId ctx w visits c w' ∧
    g.execute (user.length + 1) ctx w = some (c, w') ∧
    visits.map (fun v => (v.nodeId, v.nodeType)) =
      user.map (fun n => (n.id, n.nodeType)) ++ [("client", "client")]

/-- The pipeline is one the sandbox can run as listed. -/
structure Runnable (user : List NodeConfig) (p : PolicyConfig) : Prop where
  distinct : p.nodeIds.Nodup
  valid : validatePolicy p = .ok ()
  runs : ∀ (σ : Type) (env : Env) (factory : PluginFactory σ) (g : CompiledGraph σ),
    compilePolicy env factory p = .ok g → g.AllSucceed → RunsInOrder user g

/-- An id the three readers agree on. -/
def PlainId (id : String) : Prop := id ≠ "listener" ∧ id ≠ "client" ∧ '.' ∉ id.toList

section Necessary

variable {p : PolicyConfig} {first : NodeConfig} {rest : List NodeConfig} {onError : OnError}

theorem Woven.nodeIds (hw : Woven p first rest onError) :
    p.nodeIds = "listener" :: ((first :: rest).map (·.id) ++ ["client"]) := by
  rw [PolicyConfig.nodeIds, hw.nodes, List.map_cons, List.map_append]
  rfl

theorem Woven.nodup_nodeIds (hw : Woven p first rest onError) :
    p.nodeIds.Nodup ↔ ∀ n ∈ first :: rest, n.id ≠ "listener" ∧ n.id ≠ "client" := by
  rw [hw.nodeIds, List.nodup_cons, List.nodup_append, List.mem_append, List.mem_singleton]
  constructor
  · rintro ⟨hlistener, -, -, hclient⟩ n hn
    have hmem : n.id ∈ (first :: rest).map (·.id) := List.mem_map_of_mem hn
    exact ⟨fun h => hlistener (Or.inl (h ▸ hmem)),
      fun h => hclient n.id hmem "client" (List.mem_singleton.mpr rfl) h⟩
  · intro h
    refine ⟨?_, hw.nodup, List.nodup_singleton _, ?_⟩
    · rintro (hmem | hclient)
      · obtain ⟨n, hn, hid⟩ := List.mem_map.mp hmem
        exact (h n hn).1 hid
      · exact absurd hclient (by decide)
    · intro id hid c hc
      obtain ⟨n, hn, rfl⟩ := List.mem_map.mp hid
      rw [List.mem_singleton.mp hc]
      exact (h n hn).2

/-- A node the validator takes for connected has no dot in its id. -/
theorem Woven.no_dot_of_valid (hw : Woven p first rest onError) (hv : validatePolicy p = .ok ())
    {n : NodeConfig} (hn : n ∈ p.nodes) : '.' ∉ n.id.toList := by
  have hnil : orphanErrors p = [] := by
    by_contra hne
    have herr : validatePolicy p = .error _ := if_neg fun h => by
      simp only [List.append_eq_nil_iff] at h
      exact hne h.1.2
    rw [herr] at hv
    cases hv
  have hconnected : n.id ∈ connectedNodes p := by
    rw [orphanErrors, List.map_eq_nil_iff, List.filter_eq_nil_iff] at hnil
    simpa using hnil n hn
  rw [connectedNodes, hw.handler, Option.toList_none, List.append_nil, List.mem_flatMap] at hconnected
  obtain ⟨e, -, he⟩ := hconnected
  simp only [List.mem_cons, List.not_mem_nil, or_false] at he
  rcases he with hid | hid
  · exact hid ▸ no_dot_validatedNode e.from
  · exact hid ▸ no_dot_validatedNode e.to

end Necessary

/-! ## With plain ids the validator is content -/

section Sufficient

variable {p : PolicyConfig} {first : NodeConfig} {rest : List NodeConfig} {onError : OnError}

theorem Woven.mem_clients (hw : Woven p first rest onError) {id : String} :
    id ∈ p.idsOfType "client" ↔ id = "client" := by
  have hfilter : p.nodes.filter (fun n => n.nodeType = "client") =
      [{ id := "client", nodeType := "client" }] := by
    have huser : (first :: rest).filter (fun n => n.nodeType = "client") = [] := by
      rw [List.filter_eq_nil_iff]
      intro n hn
      simpa using (hw.types n hn).2
    rw [hw.nodes, List.filter_cons_of_neg (by decide), List.filter_append, huser]
    rfl
  rw [PolicyConfig.idsOfType, hfilter]
  simp

/-- Where no id has a dot, the validator and the compiler read the same ends. -/
theorem Woven.validated_ends (hw : Woven p first rest onError)
    (hplain : ∀ n ∈ first :: rest, PlainId n.id) {e : EdgeConfig} (he : e ∈ p.edges) :
    (validatedNode e.from, validatedNode e.to) = e.ends := by
  have hend : ∀ n ∈ first :: rest, ∀ s port, s.toList = '.' :: port →
      validatedNode (n.id ++ s) = n.id := by
    intro n hn s port hs
    rw [validatedNode_append n.id port hs, validatedNode_of_no_dot (hplain n hn).2.2]
  have hin : ∀ n ∈ first :: rest, validatedNode (n.id ++ ".in") = n.id := fun n hn =>
    hend n hn ".in" "in".toList rfl
  have hclient : validatedNode "client.in" = "client" := by decide
  rw [hw.edges, synthesizedEdges, List.mem_cons, List.mem_append] at he
  rcases he with rfl | hchain | herror
  · rw [(ends_entryEdge first).1]
    show (validatedNode "listener.out", validatedNode (first.id ++ ".in")) = _
    rw [hin first List.mem_cons_self, show validatedNode "listener.out" = "listener" by decide]
  · rcases List.mem_append.mp hchain with hlink | hlast
    · obtain ⟨⟨a, b⟩, hab, rfl⟩ := List.mem_map.mp hlink
      obtain ⟨ha, hb⟩ := List.of_mem_zip hab
      rw [(ends_linkEdge a b).1]
      show (validatedNode (a.id ++ ".success"), validatedNode (b.id ++ ".in")) = _
      rw [hin b (List.mem_cons_of_mem _ hb),
        hend a ha ".success" "success".toList rfl]
    · obtain rfl := List.mem_singleton.mp hlast
      rw [(ends_successEdge _).1]
      show (validatedNode (_ ++ ".success"), validatedNode "client.in") = _
      rw [hclient, hend _ (List.getLast_mem _) ".success" "success".toList rfl]
  · split at herror
    · obtain ⟨n, hn, rfl⟩ := List.mem_map.mp herror
      show (validatedNode (n.id ++ ".error"), validatedNode "client.in") =
        (endpointNode (n.id ++ ".error"), endpointNode "client.in")
      rw [endpointNode, parseEdgeEndpoint_append (s := ".error") n.id "error" rfl
        (by decide), hend n hn ".error" "error".toList rfl]
      rw [hclient, show endpointNode "client.in" = "client" by decide]
    · cases herror

/-- Every id but the two that are added is the source of one success edge and the target of
    another. -/
theorem mem_successEnds {n : NodeConfig} (hn : n ∈ first :: rest) :
    ∃ next, (n.id, next) ∈ successEnds first rest := by
  have hmem : n.id ∈ (successEnds first rest).map Prod.fst := by
    rw [map_fst_successEnds]
    exact List.mem_cons_of_mem _ (List.mem_map_of_mem hn)
  obtain ⟨⟨id, next⟩, hends, rfl⟩ := List.mem_map.mp hmem
  exact ⟨next, hends⟩

theorem client_mem_successEnds (first : NodeConfig) (rest : List NodeConfig) :
    ∃ id, (id, "client") ∈ successEnds first rest := by
  have hmem : "client" ∈ (successEnds first rest).map Prod.snd := by
    rw [successEnds, List.map_cons, List.map_snd_zip (by simp)]
    simp
  obtain ⟨⟨id, next⟩, hends, rfl⟩ := List.mem_map.mp hmem
  exact ⟨id, hends⟩

theorem Woven.ends_mem (hw : Woven p first rest onError) {e : EdgeConfig} (he : e ∈ p.edges) :
    e.source ∈ p.nodeIds ∧ e.target ∈ p.nodeIds := by
  have huser : ∀ id ∈ (first :: rest).map (·.id), id ∈ p.nodeIds := fun id hid => by
    rw [hw.nodeIds]
    exact List.mem_cons_of_mem _ (List.mem_append_left _ hid)
  have hclient : "client" ∈ p.nodeIds := by rw [hw.nodeIds]; simp
  rcases hw.edge_cases he with ⟨-, hends⟩ | ⟨n, hn, rfl⟩
  · have hsource := List.mem_map_of_mem (f := Prod.fst) hends
    have htarget := List.mem_map_of_mem (f := Prod.snd) hends
    rw [map_fst_successEnds] at hsource
    rw [successEnds, List.map_cons, List.map_snd_zip (by simp)] at htarget
    constructor
    · rcases List.mem_cons.mp hsource with heq | hid
      · rw [hw.nodeIds]
        exact List.mem_cons.mpr (Or.inl heq)
      · exact huser _ hid
    · rcases List.mem_cons.mp htarget with heq | hrest
      · exact huser _ (List.mem_cons.mpr (Or.inl heq))
      · rcases List.mem_append.mp hrest with hid | hlast
        · exact huser _ (List.mem_cons_of_mem _ hid)
        · rw [show e.target = "client" from List.mem_singleton.mp hlast]
          exact hclient
  · constructor
    · rw [EdgeConfig.source, endpointNode, clientEdge,
        parseEdgeEndpoint_append (s := ".error") n.id "error" rfl (by decide)]
      exact huser _ (List.mem_map_of_mem hn)
    · show endpointNode "client.in" ∈ _
      rw [show endpointNode "client.in" = "client" by decide]
      exact hclient

theorem Woven.inputErrors_nil (hw : Woven p first rest onError) : inputErrors p p.edges [] = [] := by
  refine (inputErrors_eq_nil p p.edges []).mpr ⟨?_, fun e _ => List.not_mem_nil⟩
  have hrule : (p.edges.filter fun e => p.OneEdge e.to).Sublist
      (p.edges.filter fun e => validatedNode e.to ∉ p.idsOfType "client") := by
    apply List.monotone_filter_right
    intro e he
    exact decide_eq_true (of_decide_eq_true he).1
  refine List.Nodup.sublist (hrule.map _) ?_
  have hclientEdges : ∀ edges : List EdgeConfig, (∀ e ∈ edges, e.to = "client.in") →
      edges.filter (fun e => validatedNode e.to ∉ p.idsOfType "client") = [] := by
    intro edges h
    rw [List.filter_eq_nil_iff]
    intro e he
    have hmem : validatedNode e.to ∈ p.idsOfType "client" := by
      rw [h e he, hw.mem_clients]
      decide
    simpa using hmem
  -- the targets that are not the client's are the inputs of the user's nodes, each once
  have hto : (entryEdge first :: ((first :: rest).zip rest).map fun (a, b) => linkEdge a b).map
      (·.to) = (first :: rest).map fun n => n.id ++ ".in" := by
    have hsnd : ((first :: rest).zip rest).map Prod.snd = rest := List.map_snd_zip (by simp)
    rw [List.map_cons, List.map_cons, List.map_map]
    show (first.id ++ ".in") :: _ = (first.id ++ ".in") :: _
    congr 1
    conv_rhs => rw [← hsnd, List.map_map]
    rfl
  have hnodup : ((first :: rest).map fun n => n.id ++ ".in").Nodup := by
    have hcomp : (first :: rest).map (fun n => n.id ++ ".in") =
        ((first :: rest).map (·.id)).map (· ++ ".in") := by rw [List.map_map]; rfl
    rw [hcomp, List.nodup_map_iff]
    · exact hw.nodup
    · intro a b hab
      have hlist : a.toList ++ ".in".toList = b.toList ++ ".in".toList := by
        rw [← String.toList_append, ← String.toList_append]
        exact congrArg String.toList hab
      exact String.toList_inj.mp (List.append_cancel_right hlist)
  rw [hw.edges, synthesizedEdges, chainEdges, List.append_assoc, ← List.cons_append,
    List.filter_append, hclientEdges (_ ++ _), List.append_nil]
  · refine (hto ▸ hnodup).sublist ?_
    exact (List.filter_sublist).map _
  · intro e he
    rcases List.mem_append.mp he with hlast | herror
    · rw [List.mem_singleton.mp hlast]
      rfl
    · split at herror
      · obtain ⟨n, -, rfl⟩ := List.mem_map.mp herror
        rfl
      · cases herror

theorem Woven.valid (hw : Woven p first rest onError)
    (hplain : ∀ n ∈ first :: rest, PlainId n.id) : validatePolicy p = .ok () := by
  have hlistener : listenerErrors p = [] := by
    rw [listenerErrors, if_pos]
    rw [hw.nodes]
    rfl
  have hclient : clientErrors p = [] := by
    rw [clientErrors, if_pos]
    rw [hw.nodes]
    simp
  have hedges : edgeErrors p = [] := by
    rw [edgeErrors, List.flatMap_eq_nil_iff]
    intro e he
    obtain ⟨hfrom, hto⟩ := Prod.mk.inj (hw.validated_ends hplain he)
    obtain ⟨hsource, htarget⟩ := hw.ends_mem he
    rw [hfrom, hto, if_pos hsource, if_pos htarget]
    rfl
  have horphans : orphanErrors p = [] := by
    -- an edge that leaves or enters a node connects it
    have hconnected : ∀ e ∈ p.edges, e.source ∈ connectedNodes p ∧ e.target ∈ connectedNodes p := by
      intro e he
      obtain ⟨hfrom, hto⟩ := Prod.mk.inj (hw.validated_ends hplain he)
      constructor
      · refine List.mem_append_left _ (List.mem_flatMap.mpr ⟨e, he, ?_⟩)
        rw [hfrom]
        exact List.mem_cons_self
      · refine List.mem_append_left _ (List.mem_flatMap.mpr ⟨e, he, ?_⟩)
        rw [hto]
        exact List.mem_cons_of_mem _ List.mem_cons_self
    have hleaves : ∀ {id next}, (id, next) ∈ successEnds first rest →
        id ∈ connectedNodes p ∧ next ∈ connectedNodes p := by
      intro id next hends
      obtain ⟨e, he, hl, rfl⟩ := hw.exists_edge hends
      exact ⟨hl.1 ▸ (hconnected e he).1, (hconnected e he).2⟩
    rw [orphanErrors, List.map_eq_nil_iff, List.filter_eq_nil_iff]
    intro n hn
    have hid : n.id ∈ connectedNodes p := by
      rw [hw.nodes, List.mem_cons, List.mem_append, List.mem_singleton] at hn
      rcases hn with rfl | hn | rfl
      · exact (hleaves List.mem_cons_self).1
      · obtain ⟨next, hends⟩ := mem_successEnds hn
        exact (hleaves hends).1
      · obtain ⟨id, hends⟩ := client_mem_successEnds first rest
        exact (hleaves hends).2
    simpa using hid
  have hhandler : handlerErrors p = [] := by
    rw [handlerErrors, hw.handler]
  rw [validatePolicy, hlistener, hclient, hedges, hw.inputErrors_nil, horphans, hhandler]
  rfl

/-! ## With plain ids the walk is the list -/

/-- A success edge of the list is the one the walk follows. -/
theorem Woven.next_eq (hw : Woven p first rest onError)
    (hplain : ∀ n ∈ first :: rest, PlainId n.id) {id next : String}
    (hends : (id, next) ∈ successEnds first rest) (hid : id ≠ "client") :
    (p.edgeAt id .success).map (·.target) = some next ∧ p.next id .success = some next := by
  have hnodup : ((successEnds first rest).map Prod.fst).Nodup := by
    have hids := hw.nodup_nodeIds.mpr fun n hn => ⟨(hplain n hn).1, (hplain n hn).2.1⟩
    rw [hw.nodeIds] at hids
    rw [map_fst_successEnds]
    exact hids.sublist ((List.sublist_append_left _ _).cons_cons _)
  obtain ⟨e, he, hl, rfl⟩ := hw.exists_edge hends
  have htarget : (p.edgeAt id .success).map (·.target) = some e.target := by
    refine PolicyConfig.edgeAt_target he hl fun e' he' hl' => ?_
    rcases hw.edge_cases he' with ⟨-, hends'⟩ | ⟨n, -, rfl⟩
    · have hsame : e'.ends = (id, e.target) :=
        List.inj_on_of_nodup_map hnodup hends' hends hl'.1
      exact congrArg Prod.snd hsame
    · have hport := hl'.2
      rw [port_errorEdge] at hport
      cases hport
  have hclient : ¬ p.IsClient id := fun h => hid (hw.mem_clients.mp h)
  exact ⟨htarget, by rw [PolicyConfig.next, if_neg hclient, htarget]⟩

/-- In a list each element is followed by the next one, the last by `c`. -/
theorem mem_zip_next {α : Type} (c a : α) (post : List α) :
    ∀ pre : List α, (a, post.head?.getD c) ∈ (pre ++ a :: post).zip ((pre ++ a :: post).tail ++ [c]) := by
  intro pre
  induction pre with
  | nil =>
    cases post with
    | nil => simp
    | cons b post => simp
  | cons x pre ih =>
    rw [List.cons_append, List.tail_cons]
    rcases hrest : pre ++ a :: post with - | ⟨y, ys⟩
    · simp at hrest
    · rw [hrest, List.tail_cons] at ih
      rw [List.cons_append, List.zip_cons_cons]
      exact List.mem_cons_of_mem _ ih

theorem next_userNode {a : NodeConfig} {pre post : List NodeConfig}
    (hsplit : first :: rest = pre ++ a :: post) :
    (a.id, (post.head?.map (·.id)).getD "client") ∈ successEnds first rest := by
  have hmem := mem_zip_next "client" a.id (post.map (·.id)) (pre.map (·.id))
  have hmap : pre.map (·.id) ++ a.id :: post.map (·.id) = (first :: rest).map (·.id) := by
    rw [hsplit, List.map_append, List.map_cons]
  rw [hmap, List.head?_map] at hmem
  exact List.mem_cons_of_mem _ hmem

variable {σ : Type} {env : Env} {factory : PluginFactory σ} {g : CompiledGraph σ}

/-- A visit of a declared node, when every plugin succeeds. -/
theorem Woven.visit_ok (hw : Woven p first rest onError)
    (hplain : ∀ n ∈ first :: rest, PlainId n.id) (hg : Compiled env factory p g)
    (hall : g.AllSucceed) {n : NodeConfig} (hn : n ∈ p.nodes) (ctx : Context) (w : σ) :
    ∃ v w', g.visit n.id ctx w = (v, w') ∧ (v.nodeId, v.nodeType) = (n.id, n.nodeType) ∧
      v.next = p.next n.id .success := by
  have hids := hw.nodup_nodeIds.mpr fun n hn => ⟨(hplain n hn).1, (hplain n hn).2.1⟩
  have hcount : p.nodeIds.count n.id = 1 :=
    List.count_eq_one_of_mem hids (List.mem_map_of_mem hn)
  obtain ⟨plugin, hplugin⟩ := Option.isSome_iff_exists.mp (hg.built n hn)
  have hnode : g.nodes[n.id]? = some plugin := by
    rw [hg.nodes, PolicyConfig.nodeAt_of_unique hcount hn]
    exact hplugin
  have htyped : plugin.pluginType = n.nodeType := NodeConfig.plugin_typed hplugin
  obtain ⟨output, w', hexec⟩ := hall n.id plugin hnode ctx w
  refine ⟨g.okVisit n.id plugin output, w', CompiledGraph.visit_success hnode hexec, ?_, ?_⟩
  · rw [← htyped]
    rfl
  · rw [← hg.nextOnSuccess]
    rfl

/-- The walk from a node of the list: that node, those behind it, the client.  Induction on the
    nodes behind it. -/
theorem Woven.walk_userNodes (hw : Woven p first rest onError)
    (hplain : ∀ n ∈ first :: rest, PlainId n.id) (hg : Compiled env factory p g)
    (hall : g.AllSucceed) :
    ∀ {post pre : List NodeConfig} {a : NodeConfig}, first :: rest = pre ++ a :: post →
      ∀ (ctx : Context) (w : σ), ∃ visits c w', g.Walk a.id ctx w visits c w' ∧
        visits.map (fun v => (v.nodeId, v.nodeType)) =
          (a :: post).map (fun n => (n.id, n.nodeType)) ++ [("client", "client")] := by
  have hmem : ∀ n ∈ first :: rest, n ∈ p.nodes := fun n hn => by
    rw [hw.nodes]
    exact List.mem_cons_of_mem _ (List.mem_append_left _ hn)
  intro post
  induction post with
  | nil =>
    intro pre a hsplit ctx w
    have ha : a ∈ first :: rest := by rw [hsplit]; simp
    have hclient : { id := "client", nodeType := "client" } ∈ p.nodes := by rw [hw.nodes]; simp
    obtain ⟨v, w1, hv, hid, hnext⟩ := hw.visit_ok hplain hg hall (hmem a ha) ctx w
    obtain ⟨v', w2, hv', hid', hnext'⟩ := hw.visit_ok hplain hg hall hclient v.after w1
    rw [(hw.next_eq hplain (next_userNode hsplit) (hplain a ha).2.1).2] at hnext
    rw [PolicyConfig.next, if_pos (show p.IsClient "client" from hw.mem_clients.mpr rfl)] at hnext'
    refine ⟨[v, v'], v'.after, w2, .step hv hnext (.last hv' hnext'), ?_⟩
    simp only [List.map_cons, List.map_nil, hid, hid']
    rfl
  | cons b post ih =>
    intro pre a hsplit ctx w
    have ha : a ∈ first :: rest := by rw [hsplit]; simp
    obtain ⟨v, w1, hv, hid, hnext⟩ := hw.visit_ok hplain hg hall (hmem a ha) ctx w
    rw [(hw.next_eq hplain (next_userNode hsplit) (hplain a ha).2.1).2] at hnext
    obtain ⟨visits, c, w2, hwalk, hids⟩ :=
      ih (show first :: rest = (pre ++ [a]) ++ b :: post by rw [hsplit]; simp) v.after w1
    refine ⟨v :: visits, c, w2, .step hv hnext hwalk, ?_⟩
    rw [List.map_cons, hids, hid]
    rfl

theorem Woven.runsInOrder (hw : Woven p first rest onError)
    (hplain : ∀ n ∈ first :: rest, PlainId n.id) (hg : Compiled env factory p g)
    (hall : g.AllSucceed) : RunsInOrder (first :: rest) g := by
  intro _ ctx w
  have hentry : g.entryNodeId = first.id := by
    have hlistener : p.listenerId = some "listener" := by
      have hnone : (first :: rest).reverse.find? (fun n => n.nodeType = "listener") = none := by
        rw [List.find?_eq_none]
        intro n hn
        simpa using (hw.types n (List.mem_reverse.mp hn)).1
      rw [PolicyConfig.listenerId, hw.nodes, List.reverse_cons, List.reverse_append,
        List.find?_append, List.find?_append, hnone]
      rfl
    rw [hg.entry_of_listener hlistener, PolicyConfig.entryOf,
      (hw.next_eq hplain (show ("listener", first.id) ∈ _ from List.mem_cons_self) (by decide)).1, Option.getD_some]
  obtain ⟨visits, c, w', hwalk, hids⟩ :=
    hw.walk_userNodes hplain hg hall (show first :: rest = [] ++ first :: rest from rfl) ctx w
  refine ⟨visits, c, w', hentry ▸ hwalk, ?_, hids⟩
  have hlen : visits.length = (first :: rest).length + 1 := by
    have h := congrArg List.length hids
    simpa using h
  have hrun := iterate_of_walk hwalk ((first :: rest).length + 1) none (by omega)
  rw [CompiledGraph.execute, CompiledGraph.run, CompiledGraph.start, hentry, hrun]
  rfl

end Sufficient

/-- **When a synthesized pipeline is runnable.**  The policy made of a list of nodes has distinct
    ids, is accepted by the validator and runs the listed nodes once each, in order, up to the
    client, exactly if no node goes by `listener`, `client` or an id with a dot in it. -/
theorem synthesize_runnable_iff {nodes : List NodeConfig} {onError : OnError} {p : PolicyConfig}
    (h : synthesizePolicy nodes onError = .ok p) :
    Runnable (userNodes nodes) p ↔ ∀ n ∈ userNodes nodes, PlainId n.id := by
  obtain ⟨first, rest, hnodes, hw⟩ := woven_of_synthesize h
  rw [hnodes]
  constructor
  · intro hrun n hn
    obtain ⟨hlistener, hclient⟩ := hw.nodup_nodeIds.mp hrun.distinct n hn
    have hmem : n ∈ p.nodes := by
      rw [hw.nodes]
      exact List.mem_cons_of_mem _ (List.mem_append_left _ hn)
    exact ⟨hlistener, hclient, hw.no_dot_of_valid hrun.valid hmem⟩
  · intro hplain
    constructor
    case distinct => exact hw.nodup_nodeIds.mpr fun n hn => ⟨(hplain n hn).1, (hplain n hn).2.1⟩
    case valid => exact hw.valid hplain
    case runs =>
      intro σ env factory g hg hall
      exact hw.runsInOrder hplain (compiled_of_compile hg) hall

/-- A blank id is filled in, and the pipeline is runnable. -/
theorem synthesize_runnable_iff_keyAuth :
    ∃ p, synthesizePolicy [{ id := " ", nodeType := "key-auth" }, { id := "b", nodeType := "cors" }]
        .client = .ok p ∧
      Runnable (userNodes [{ id := " ", nodeType := "key-auth" }, { id := "b", nodeType := "cors" }])
        p := by
  obtain ⟨p, hp⟩ : ∃ p, synthesizePolicy
      [{ id := " ", nodeType := "key-auth" }, { id := "b", nodeType := "cors" }] .client = .ok p :=
    ⟨_, rfl⟩
  refine ⟨p, hp, (synthesize_runnable_iff hp).mpr fun n hn => ?_⟩
  have hids : n.id ∈ ["key-auth-0", "b"] := by
    have hmem := List.mem_map_of_mem (f := NodeConfig.id) hn
    rwa [show (userNodes [{ id := " ", nodeType := "key-auth" },
      { id := "b", nodeType := "cors" }]).map NodeConfig.id = ["key-auth-0", "b"] by decide] at hmem
  rcases List.mem_cons.mp hids with h | h
  · rw [h]
    exact ⟨by decide, by decide, by decide⟩
  · rw [List.mem_singleton.mp h]
    exact ⟨by decide, by decide, by decide⟩

/-- Every type is a plugin that passes the context on. -/
def passAll : PluginFactory Unit where
  create nodeType _ := .ok (passThrough nodeType)
  typed h := by
    rw [← Except.ok.inj h]
    rfl

theorem allSucceed_passAll {p : PolicyConfig} {env : Env} {g : CompiledGraph Unit}
    (h : compilePolicy env passAll p = .ok g) : g.AllSucceed := by
  intro id node hnode ctx w
  rw [(compiled_of_compile h).nodes] at hnode
  obtain ⟨n, -, hn⟩ := Option.bind_eq_some_iff.mp hnode
  obtain rfl : passThrough n.nodeType = node := Option.some.inj hn
  exact ⟨_, w, rfl⟩

/-- A node called `client` is accepted by the validator and never run: the walk goes from the
    listener to the real client.  A node with a dot in its id is refused by the validator. -/
theorem client_id_never_runs :
    (∃ p, synthesizePolicy [{ id := "client", nodeType := "key-auth" }] .stop = .ok p ∧
      p.nodeIds = ["listener", "client", "client"] ∧ validatePolicy p = .ok () ∧
      ∃ g, compilePolicy (fun _ => none) passAll p = .ok g ∧ g.AllSucceed ∧
        ∀ ctx, ∃ v, g.Walk g.entryNodeId ctx () [v] ctx () ∧
          (v.nodeId, v.nodeType) = ("client", "client")) ∧
    ∃ p, synthesizePolicy [{ id := "v1.2", nodeType := "key-auth" }] .stop = .ok p ∧
      validatePolicy p ≠ .ok () := by
  obtain ⟨p, hp⟩ : ∃ p, synthesizePolicy [{ id := "client", nodeType := "key-auth" }] .stop =
      .ok p := ⟨_, rfl⟩
  refine ⟨⟨p, hp, ?_, ?_, ?_⟩, _, rfl, by decide⟩
  · obtain rfl := Except.ok.inj hp
    decide
  · obtain rfl := Except.ok.inj hp
    decide
  obtain ⟨g, hg⟩ : ∃ g, compilePolicy (fun _ => none) passAll p = .ok g := by
    obtain rfl := Except.ok.inj hp
    exact ⟨_, rfl⟩
  refine ⟨g, hg, allSucceed_passAll hg, fun ctx => ?_⟩
  have hcomp := compiled_of_compile hg
  obtain rfl := Except.ok.inj hp
  have hentry := hcomp.entry_of_listener (l := "listener") (by decide)
  have hnode : g.nodes["client"]? = some (passThrough "client") := by
    rw [hcomp.nodes]
    rfl
  have hnext : g.nextOnSuccess "client" = none := by
    rw [hcomp.nextOnSuccess]
    decide
  have hv : g.visit "client" ctx () =
      (g.okVisit "client" (passThrough "client") { context := ctx, namedOutputs := ∅ }, ()) :=
    CompiledGraph.visit_success hnode rfl
  have hentry : g.entryNodeId = "client" := hentry.trans (by decide)
  refine ⟨g.okVisit "client" (passThrough "client") { context := ctx, namedOutputs := ∅ }, ?_, rfl⟩
  rw [hentry]
  exact .last hv hnext

end Featherbit
