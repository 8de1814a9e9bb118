/-
  REQUESTS WHILE THE CONFIG CHANGES (`handle_request` of `server/listener.rs` beside
  `apply_gateway` of `state.rs`).

  A request reads the route table once, under the read lock, and keeps the graph it finds there; its
  walk is then a step for each node, and between two steps anything may happen: other requests,
  calls that apply a config, and what the plugins do on their own.  `versions` notes the configs in
  the order in which their routes were put in place.

  1. **One config** (`served_by_one_config`) — a request is answered by one of the versions: it is
     routed by that version's routes and walks the graph of that version's policy to its end, however
     often the tables change meanwhile.

  2. **No older one** (`no_older_config`) — a request that has not read the table when a call
     returns is answered by the config of this call, or a later one.

  Both are invariants of a step.  What the calls do to one another is known (`Sound`).
-/
import Featherbit.Graph.Termination
import Featherbit.Server.Listener
import Featherbit.State.Calls

namespace Featherbit

open Interleave Relation

/-! ## The system -/

/-- A request that has found its route. -/
structure ServedRequest (σ : Type) where
  request : Incoming
  startMs : UInt64
  /-- the place of the config among the versions -/
  version : Nat
  route : RouteConfig
  graph : CompiledGraph σ

/-- Where a request is. -/
inductive RequestStage (σ : Type) where
  /-- the route table is not read yet -/
  | waiting (request : Incoming) (startMs : UInt64)
  | unrouted (request : Incoming) (startMs : UInt64) (version : Nat)
  /-- the node that is next, the context it will get, and the visits so far -/
  | walking (served : ServedRequest σ) (nodeId : String) (ctx : Context) (visits : List Visit)
  | answered (served : ServedRequest σ) (ctx : Context) (visits : List Visit)

namespace RequestStage

variable {σ : Type}

/-- What came in, and when. -/
def input : RequestStage σ → Incoming × UInt64
  | .waiting request startMs | .unrouted request startMs _ => (request, startMs)
  | .walking served .. | .answered served .. => (served.request, served.startMs)

/-- The version whose routes the request has read. -/
def version : RequestStage σ → Option Nat
  | .waiting .. => none
  | .unrouted _ _ n => some n
  | .walking served .. | .answered served .. => some served.version

/-- The route the request has taken, and the visits so far. -/
def progress : RequestStage σ → Option (ServedRequest σ × List Visit)
  | .waiting .. | .unrouted .. => none
  | .walking served _ _ visits | .answered served _ visits => some (served, visits)

end RequestStage

/-- A config whose routes were put in place, and the call that did so; none for the first. -/
structure Version (ι : Type) where
  writer : Option ι
  gateway : GatewayConfig

/-- The gateway at work. -/
structure Serving (ι κ σ : Type) where
  calls : Config ι (Stage σ) (Shared ι σ)
  requests : κ → RequestStage σ
  /-- what the plugins share -/
  world : σ
  versions : List (Version ι)

section Step

variable {ι κ σ : Type} [DecidableEq ι] [DecidableEq κ] [CaseMapping]

/-- The next step of a request; `none` while it waits for the lock, and when it is over. -/
def requestStep (shared : Shared ι σ) (newest : Nat) (stage : RequestStage σ) (w : σ) :
    Option (RequestStage σ × σ) :=
  match stage with
  | .waiting request startMs =>
    if shared.routesLock.isSome then none
    else
      match selectRoute shared.tables.routes request.head with
      | none => some (.unrouted request startMs newest, w)
      | some (route, graph) =>
        some (.walking ⟨request, startMs, newest, route, graph⟩ graph.entryNodeId
          (request.context startMs) [], w)
  | .walking served id ctx visits =>
    let (v, w) := served.graph.visit id ctx w
    match v.next with
    | some next => some (.walking served next v.after (visits ++ [v]), w)
    | none => some (.answered served v.after (visits ++ [v]), w)
  | .unrouted .. | .answered .. => none

variable (env : Env) (factory : PluginFactory σ)

/-- The versions after a step of call `i` that leads to `stage`. -/
def noteVersion (i : ι) (stage : Stage σ) (versions : List (Version ι)) : List (Version ι) :=
  match stage with
  | .wroteRoutes t => versions ++ [⟨some i, t.gateway⟩]
  | _ => versions

/-- One step of anyone. -/
inductive ServingStep (s : Serving ι κ σ) : Serving ι κ σ → Prop where
  | call {i : ι} {c : Config ι (Stage σ) (Shared ι σ)}
      (h : (calls env factory).fire i s.calls = some c) :
      ServingStep s { s with calls := c, versions := noteVersion i (c.threads i) s.versions }
  | request {k : κ} {stage : RequestStage σ} {w : σ}
      (h : requestStep s.calls.shared (s.versions.length - 1) (s.requests k) s.world = some (stage, w)) :
      ServingStep s { s with requests := Function.update s.requests k stage, world := w }
  /-- a task of a plugin -/
  | background (w : σ) : ServingStep s { s with world := w }

/-- The states of a run. -/
def Serves : Serving ι κ σ → Serving ι κ σ → Prop := ReflTransGen (ServingStep env factory)

/-- Calls and requests about to begin, on the tables of the first config. -/
def startServing (jobs : ι → Job) (requests : κ → Incoming × UInt64) (tables : Tables σ) (w : σ) :
    Serving ι κ σ where
  calls := startCalls jobs tables
  requests k := .waiting (requests k).1 (requests k).2
  world := w
  versions := [⟨none, tables.gateway⟩]

end Step

/-! ## The calls -/

section Calls

variable {ι σ : Type} {env : Env} {factory : PluginFactory σ}

/-- A config that the call may put in place. -/
def Job.Wants : Job → GatewayConfig → Prop
  | .apply gw', gw => gw = gw'
  | .admin req, gw => ∃ snapshot, req.handler.candidate snapshot = .ok gw

/-- The stage is one of a call with this job. -/
def Job.Owns (job : Job) : Stage σ → Prop
  | .snapshot req => job = .admin req
  | .candidate gw => job.Wants gw
  | .built t | .stored t | .wroteGateway t | .wroteRoutes t => job.Wants t.gateway
  | .returned _ | .refused _ => True

/-- The routes of the call's config have been put in place. -/
def Stage.Committed : Stage σ → Prop
  | .wroteRoutes _ | .returned (.ok ()) => True
  | _ => False

variable {i : ι} {l l' : Stage σ} {s s' : Shared ι σ} {job : Job}

theorem owns_step (h : CallStep env factory i l s l' s') (howns : job.Owns l) : job.Owns l' := by
  cases h with
  | takeSnapshot hfree hc =>
    obtain rfl : job = _ := howns
    exact ⟨_, hc⟩
  | build hb =>
    show job.Wants _
    rw [(buildTables_eq_ok.mp hb).1]
    exact howns
  | store | writeGateway | writeRoutes => exact howns
  | refuse | reject | release => trivial

/-- The routes: untouched, or replaced by a call that is now past writing them. -/
theorem routes_cases (h : CallStep env factory i l s l' s') :
    (s'.tables.routes = s.tables.routes ∧ (∀ t, l' ≠ .wroteRoutes t) ∧ (l'.Committed → l.Committed)) ∨
    ∃ t, l = .wroteGateway t ∧ l' = .wroteRoutes t ∧ s'.tables.routes = t.routes := by
  cases h with
  | writeRoutes => exact Or.inr ⟨_, rfl, rfl, rfl⟩
  | release => exact Or.inl ⟨rfl, fun t ht => (by cases ht), fun _ => trivial⟩
  | takeSnapshot | refuse | build | reject | store | writeGateway =>
    exact Or.inl ⟨rfl, fun t ht => (by cases ht), fun hwritten => (by cases hwritten)⟩

end Calls

/-! ## What holds of a request -/

section Served

variable {ι σ : Type} {env : Env} {factory : PluginFactory σ}

/-- Visits that lead from one node to another, whatever the world is at each of them. -/
inductive Follows (g : CompiledGraph σ) (id : String) (ctx : Context) :
    List Visit → String → Context → Prop where
  | start : Follows g id ctx [] id ctx
  | visit {visits : List Visit} {id' next : String} {ctx' : Context} {v : Visit} {w w' : σ}
      (h : Follows g id ctx visits id' ctx') (hv : g.visit id' ctx' w = (v, w'))
      (hnext : v.next = some next) : Follows g id ctx (visits ++ [v]) next v.after

/-- Visits that lead from a node to the end of the graph. -/
def Completes (g : CompiledGraph σ) (id : String) (ctx : Context) (visits : List Visit)
    (final : Context) : Prop :=
  ∃ earlier id' ctx' v w w', Follows g id ctx earlier id' ctx' ∧ g.visit id' ctx' w = (v, w') ∧
    v.next = none ∧ visits = earlier ++ [v] ∧ final = v.after

/-- The routes of the version at a place. -/
def RoutesAt (env : Env) (factory : PluginFactory σ) (versions : List (Version ι)) (n : Nat)
    (routes : RouteTable σ) : Prop :=
  ∃ v, versions[n]? = some v ∧ compileRoutes env factory v.gateway = .ok routes

/-- The route and the graph are those of the request's version. -/
def ServedRequest.Routed (env : Env) (factory : PluginFactory σ) [CaseMapping]
    (versions : List (Version ι)) (served : ServedRequest σ) : Prop :=
  ∃ routes, RoutesAt env factory versions served.version routes ∧
    selectRoute routes served.request.head = some (served.route, served.graph)

/-- One version serves the request. -/
def ServedBy (env : Env) (factory : PluginFactory σ) [CaseMapping] (versions : List (Version ι)) :
    RequestStage σ → Prop
  | .waiting .. => True
  | .unrouted request _ n =>
    ∃ routes, RoutesAt env factory versions n routes ∧ selectRoute routes request.head = none
  | .walking served id ctx visits => served.Routed env factory versions ∧
      Follows served.graph served.graph.entryNodeId (served.request.context served.startMs) visits id ctx
  | .answered served ctx visits => served.Routed env factory versions ∧
      Completes served.graph served.graph.entryNodeId (served.request.context served.startMs) visits ctx

/-- Later versions do not matter to it. -/
theorem RoutesAt.append {versions : List (Version ι)} {n : Nat} {routes : RouteTable σ}
    (h : RoutesAt env factory versions n routes) (more : List (Version ι)) :
    RoutesAt env factory (versions ++ more) n routes := by
  obtain ⟨v, hv, hroutes⟩ := h
  refine ⟨v, ?_, hroutes⟩
  rw [List.getElem?_append_left (List.getElem?_eq_some_iff.mp hv).1]
  exact hv

variable [CaseMapping]

theorem ServedBy.append {versions : List (Version ι)} {stage : RequestStage σ}
    (h : ServedBy env factory versions stage) (more : List (Version ι)) :
    ServedBy env factory (versions ++ more) stage := by
  cases stage with
  | waiting => trivial
  | unrouted request startMs n =>
    obtain ⟨routes, hat, hnone⟩ := h
    exact ⟨routes, hat.append more, hnone⟩
  | walking served id ctx visits =>
    obtain ⟨⟨routes, hat, hfound⟩, hfollows⟩ := h
    exact ⟨⟨routes, hat.append more, hfound⟩, hfollows⟩
  | answered served ctx visits =>
    obtain ⟨⟨routes, hat, hfound⟩, hcompletes⟩ := h
    exact ⟨⟨routes, hat.append more, hfound⟩, hcompletes⟩

/-- A request that takes a step reads the newest version, or keeps the one it has. -/
theorem version_step {shared : Shared ι σ} {newest : Nat} {stage stage' : RequestStage σ}
    {w w' : σ} (hstep : requestStep shared newest stage w = some (stage', w')) :
    stage'.input = stage.input ∧
      (stage'.version = stage.version ∨ stage.version = none ∧ stage'.version = some newest) := by
  cases stage with
  | waiting request startMs =>
    simp only [requestStep] at hstep
    split at hstep
    · cases hstep
    · split at hstep
      · obtain ⟨rfl, rfl⟩ := Prod.mk.inj (Option.some.inj hstep)
        exact ⟨rfl, Or.inr ⟨rfl, rfl⟩⟩
      · obtain ⟨rfl, rfl⟩ := Prod.mk.inj (Option.some.inj hstep)
        exact ⟨rfl, Or.inr ⟨rfl, rfl⟩⟩
  | walking served id ctx visits =>
    simp only [requestStep] at hstep
    split at hstep
    · obtain ⟨rfl, rfl⟩ := Prod.mk.inj (Option.some.inj hstep)
      exact ⟨rfl, Or.inl rfl⟩
    · obtain ⟨rfl, rfl⟩ := Prod.mk.inj (Option.some.inj hstep)
      exact ⟨rfl, Or.inl rfl⟩
  | unrouted => cases hstep
  | answered => cases hstep

/-- A request reads the newest routes, and then keeps to its graph. -/
theorem servedBy_step {versions : List (Version ι)} {shared : Shared ι σ} {newest : Nat}
    {stage stage' : RequestStage σ} {w w' : σ}
    (hnewest : RoutesAt env factory versions newest shared.tables.routes)
    (h : ServedBy env factory versions stage)
    (hstep : requestStep shared newest stage w = some (stage', w')) :
    ServedBy env factory versions stage' := by
  cases stage with
  | waiting request startMs =>
    simp only [requestStep] at hstep
    split at hstep
    · cases hstep
    · split at hstep
      · rename_i hnone
        obtain ⟨rfl, rfl⟩ := Prod.mk.inj (Option.some.inj hstep)
        exact ⟨_, hnewest, hnone⟩
      · rename_i route graph hfound
        obtain ⟨rfl, rfl⟩ := Prod.mk.inj (Option.some.inj hstep)
        exact ⟨⟨_, hnewest, hfound⟩, .start⟩
  | walking served id ctx visits =>
    obtain ⟨hrouted, hfollows⟩ := h
    obtain ⟨v, w₁, hv⟩ : ∃ v w₁, served.graph.visit id ctx w = (v, w₁) := ⟨_, _, rfl⟩
    simp only [requestStep, hv] at hstep
    split at hstep
    · rename_i next hnext
      obtain ⟨rfl, rfl⟩ := Prod.mk.inj (Option.some.inj hstep)
      exact ⟨hrouted, hfollows.visit hv hnext⟩
    · rename_i hend
      obtain ⟨rfl, rfl⟩ := Prod.mk.inj (Option.some.inj hstep)
      exact ⟨hrouted, visits, id, ctx, v, w, _, hfollows, hv, hend, rfl, rfl⟩
  | unrouted => cases hstep
  | answered => cases hstep

/-- Visits go along the edges of the policy. -/
theorem Follows.edges {p : PolicyConfig} {g : CompiledGraph σ} (hg : Compiled env factory p g)
    {id id' : String} {ctx ctx' : Context} {visits : List Visit} (h : Follows g id ctx visits id' ctx') :
    ∃ f : Nat → String, f 0 = id ∧ f visits.length = id' ∧
      ∀ n, n < visits.length → p.WalkEdge (f n) (f (n + 1)) := by
  induction h with
  | start => exact ⟨fun _ => id, rfl, rfl, fun n hn => absurd hn (Nat.not_lt_zero n)⟩
  | @visit visits id' next ctx' v w w' h hv hnext ih =>
    obtain ⟨f, hfirst, hlast, hedges⟩ := ih
    have hloop : Loop.Turn g.iteration ⟨ctx', none, id', w⟩ _ :=
      CompiledGraph.iteration_of_next hv hnext
    have hturn : p.WalkEdge id' next := turn_walkEdge hg hloop
    refine ⟨Function.update f (visits.length + 1) next, ?_, ?_, fun n hn => ?_⟩
    · rw [Function.update_of_ne (by omega)]
      exact hfirst
    · rw [List.length_append, List.length_singleton, Function.update_self]
    · rw [List.length_append, List.length_singleton] at hn
      rw [Function.update_of_ne (show n ≠ visits.length + 1 by omega)]
      by_cases hn' : n = visits.length
      · rw [hn', Function.update_self, hlast]
        exact hturn
      · rw [Function.update_of_ne (by omega)]
        exact hedges n (by omega)

/-- Where no cycle can be reached, each node is visited at most once. -/
theorem Follows.length_le {p : PolicyConfig} {g : CompiledGraph σ}
    (hg : compilePolicy env factory p = .ok g) (hacyclic : p.AcyclicWalk) {id' : String}
    {ctx ctx' : Context} {visits : List Visit} (h : Follows g g.entryNodeId ctx visits id' ctx') :
    visits.length ≤ p.nodes.length := by
  have hcomp := compiled_of_compile hg
  obtain ⟨f, hfirst, -, hedges⟩ := h.edges hcomp
  obtain ⟨l, hl, hentry⟩ := hcomp.entry
  have hfree : Walk.CycleFree p.WalkEdge (f 0) := by
    rw [hfirst, hentry]
    exact hacyclic l hl
  have hle := Walk.walk_length_le hedges (fun n hn => (hedges n hn).1) hfree
  rwa [PolicyConfig.nodeIds, List.length_map] at hle

end Served

/-! ## The run -/

section Run

variable {ι κ σ : Type} [DecidableEq ι] [DecidableEq κ] [CaseMapping] {env : Env}
  {factory : PluginFactory σ} {jobs : ι → Job} {requests : κ → Incoming × UInt64} {tables : Tables σ}
  {s s' : Serving ι κ σ} {w : σ}

/-- Where a version comes from. -/
structure VersionOf (env : Env) (factory : PluginFactory σ) (jobs : ι → Job) (first : GatewayConfig)
    (v : Version ι) : Prop where
  compiles : ∃ routes : RouteTable σ, compileRoutes env factory v.gateway = .ok routes
  first : v.writer = none → v.gateway = first
  wanted : ∀ i, v.writer = some i → (jobs i).Wants v.gateway

/-- What holds at every moment. -/
structure ServingInv (env : Env) (factory : PluginFactory σ) (jobs : ι → Job) (first : GatewayConfig)
    (s : Serving ι κ σ) : Prop where
  sound : Sound env factory s.calls
  owns : ∀ i, (jobs i).Owns (s.calls.threads i)
  versions : ∀ v ∈ s.versions, VersionOf env factory jobs first v
  /-- the routes in place are those of the last version -/
  newest : ∃ earlier v, s.versions = earlier ++ [v] ∧
    compileRoutes env factory v.gateway = .ok s.calls.shared.tables.routes
  noted : ∀ i, (s.calls.threads i).Committed → ∃ v ∈ s.versions, v.writer = some i
  requests : ∀ k, ServedBy env factory s.versions (s.requests k)

variable (requests w) in
omit [DecidableEq ι] [DecidableEq κ] in
theorem servingInv_start (h0 : buildTables env factory tables.gateway = .ok tables) :
    ServingInv env factory jobs tables.gateway (startServing jobs requests tables w) where
  sound := sound_start jobs h0
  owns i := by
    show (jobs i).Owns (jobs i).start
    cases jobs i with
    | admin req => rfl
    | apply gw => rfl
  versions v hv := by
    obtain rfl := List.mem_singleton.mp hv
    exact ⟨⟨_, (buildTables_eq_ok.mp h0).2.2⟩, fun _ => rfl, fun i hi => (by cases hi)⟩
  newest := ⟨[], _, rfl, (buildTables_eq_ok.mp h0).2.2⟩
  noted i hwritten := by
    have hstart : ((jobs i).start : Stage σ).Committed := hwritten
    cases hjob : jobs i with
    | admin req =>
      rw [hjob] at hstart
      cases hstart
    | apply gw =>
      rw [hjob] at hstart
      cases hstart
  requests k := trivial

omit [DecidableEq ι] [DecidableEq κ] in
theorem ServingInv.routesAt {first : GatewayConfig} (h : ServingInv env factory jobs first s) :
    RoutesAt env factory s.versions (s.versions.length - 1) s.calls.shared.tables.routes := by
  obtain ⟨earlier, v, hversions, hroutes⟩ := h.newest
  refine ⟨v, ?_, hroutes⟩
  rw [hversions, List.length_append, List.length_singleton, Nat.add_sub_cancel, List.getElem?_concat_length]

omit [DecidableEq κ] in
/-- A call takes a step. -/
theorem servingInv_call {first : GatewayConfig} (h : ServingInv env factory jobs first s) {i : ι}
    {c : Config ι (Stage σ) (Shared ι σ)} (hfire : (calls env factory).fire i s.calls = some c) :
    ServingInv env factory jobs first
      { s with calls := c, versions := noteVersion i (c.threads i) s.versions } := by
  obtain ⟨hstep, hframe⟩ := System.fire_spec hfire
  have hcall := callStep_cases hstep
  have howns : ∀ j, (jobs j).Owns (c.threads j) := by
    intro j
    by_cases hji : j = i
    · rw [hji]
      exact owns_step hcall (h.owns i)
    · rw [hframe j hji]
      exact h.owns j
  have hsound := sound_step h.sound hfire
  rcases routes_cases hcall with ⟨hroutes, hnot, hwritten⟩ | ⟨t, hbefore, hafter, hroutes⟩
  · have hsame : noteVersion i (c.threads i) s.versions = s.versions := by
      unfold noteVersion
      split
      · rename_i t heq
        exact absurd heq (hnot t)
      · rfl
    rw [hsame]
    refine ⟨hsound, howns, h.versions, ?_, fun j hj => ?_, h.requests⟩
    · show ∃ earlier v, s.versions = earlier ++ [v] ∧
        compileRoutes env factory (Version.gateway v) = .ok c.shared.tables.routes
      rw [hroutes]
      exact h.newest
    · by_cases hji : j = i
      · subst hji
        exact h.noted j (hwritten hj)
      · exact h.noted j (by rw [← hframe j hji]; exact hj)
  · -- the call writes its routes: a new version
    have hnew : noteVersion i (c.threads i) s.versions = s.versions ++ [⟨some i, t.gateway⟩] := by
      rw [hafter]
      rfl
    have hbuilt := h.sound.built i t (by rw [hbefore]; rfl)
    have hcompiled := (buildTables_eq_ok.mp hbuilt).2.2
    rw [hnew]
    refine ⟨hsound, howns, fun v hv => ?_, ⟨s.versions, _, rfl, ?_⟩, fun j hj => ?_,
      fun k => (h.requests k).append _⟩
    · rcases List.mem_append.mp hv with hold | hnew
      · exact h.versions v hold
      · obtain rfl := List.mem_singleton.mp hnew
        refine ⟨⟨_, hcompiled⟩, fun hnone => (by cases hnone), fun j hj => ?_⟩
        obtain rfl := Option.some.inj hj
        have hown := h.owns i
        rw [hbefore] at hown
        exact hown
    · show compileRoutes env factory t.gateway = .ok c.shared.tables.routes
      rw [hroutes]
      exact hcompiled
    · by_cases hji : j = i
      · exact ⟨_, List.mem_append_right _ List.mem_cons_self, by rw [hji]⟩
      · obtain ⟨v, hv, hwriter⟩ := h.noted j (by rw [← hframe j hji]; exact hj)
        exact ⟨v, List.mem_append_left _ hv, hwriter⟩

/-- **Anyone's step keeps it.** -/
theorem servingInv_step {first : GatewayConfig} (h : ServingInv env factory jobs first s)
    (hstep : ServingStep env factory s s') : ServingInv env factory jobs first s' := by
  cases hstep with
  | call hfire => exact servingInv_call h hfire
  | @request k stage w hrequest =>
    refine ⟨h.sound, h.owns, h.versions, h.newest, h.noted, fun j => ?_⟩
    show ServedBy env factory s.versions (Function.update s.requests k stage j)
    by_cases hjk : j = k
    · rw [hjk, Function.update_self]
      exact servedBy_step h.routesAt (h.requests k) hrequest
    · rw [Function.update_of_ne hjk]
      exact h.requests j
  | background w => exact ⟨h.sound, h.owns, h.versions, h.newest, h.noted, h.requests⟩

theorem servingInv_of_serves {first : GatewayConfig} (h : ServingInv env factory jobs first s)
    (hrun : Serves env factory s s') : ServingInv env factory jobs first s' := by
  induction hrun with
  | refl => exact h
  | tail _ hstep ih => exact servingInv_step ih hstep

/-- What has been read is not forgotten. -/
structure Later (s s' : Serving ι κ σ) : Prop where
  versions : s.versions <+: s'.versions
  inputs : ∀ k, (s'.requests k).input = (s.requests k).input
  /-- a request that had read no version before has read none of the older ones -/
  fresh : ∀ k n, (s.requests k).version = none → (s'.requests k).version = some n →
    s.versions.length - 1 ≤ n

theorem later_step {s₀ : Serving ι κ σ} (h : Later s₀ s) (hstep : ServingStep env factory s s') :
    Later s₀ s' := by
  cases hstep with
  | @call i c hfire =>
    refine ⟨h.versions.trans ?_, h.inputs, h.fresh⟩
    show s.versions <+: noteVersion i (c.threads i) s.versions
    unfold noteVersion
    split
    · exact List.prefix_append _ _
    · exact List.prefix_refl _
  | @request k stage w hrequest =>
    obtain ⟨hinput, hversion⟩ := version_step hrequest
    have hrequests : ∀ j, (Function.update s.requests k stage j).input = (s.requests j).input ∧
        ((Function.update s.requests k stage j).version = (s.requests j).version ∨
          (Function.update s.requests k stage j).version = some (s.versions.length - 1)) := by
      intro j
      by_cases hjk : j = k
      · subst hjk
        rw [Function.update_self]
        exact ⟨hinput, hversion.imp id And.right⟩
      · rw [Function.update_of_ne hjk]
        exact ⟨rfl, Or.inl rfl⟩
    refine ⟨h.versions, fun j => (hrequests j).1.trans (h.inputs j), fun j n hnone hn => ?_⟩
    rcases (hrequests j).2 with hold | hnew
    · exact h.fresh j n hnone (hold.symm.trans hn)
    · have heq : s.versions.length - 1 = n := Option.some.inj (hnew.symm.trans hn)
      have hle := h.versions.length_le
      omega
  | background w => exact ⟨h.versions, h.inputs, h.fresh⟩

theorem later_of_serves (hrun : Serves env factory s s') : Later s s' := by
  induction hrun with
  | refl => exact ⟨List.prefix_refl _, fun _ => rfl, fun k n hnone hn => by rw [hnone] at hn; cases hn⟩
  | tail _ hstep ih => exact later_step ih hstep

/-- **One config serves a request.**  In every interleaving of requests, calls and background tasks:
    what is put in place is the first config or one that a call was made for; each request is
    answered by one of these, by the route its routes give and along the graph of its policy, or by
    a 404 if they give none; and it makes no more visits than the policy has nodes, and one, if the
    policy's walks have no cycle. -/
theorem served_by_one_config (h0 : buildTables env factory tables.gateway = .ok tables)
    (hrun : Serves env factory (startServing jobs requests tables w) s) :
    (∀ v ∈ s.versions, VersionOf env factory jobs tables.gateway v) ∧
    ∀ k, (s.requests k).input = requests k ∧ ServedBy env factory s.versions (s.requests k) ∧
      ∀ served visits, (s.requests k).progress = some (served, visits) →
        ∃ v p, s.versions[served.version]? = some v ∧ served.route ∈ v.gateway.routes ∧
          v.gateway.policyAt served.route.policy = some p ∧
          (p.AcyclicWalk → visits.length ≤ p.nodes.length + 1) := by
  have h := servingInv_of_serves (servingInv_start requests w h0) hrun
  refine ⟨h.versions, fun k => ⟨(later_of_serves hrun).inputs k, h.requests k,
    fun served visits hprogress => ?_⟩⟩
  have hserved := h.requests k
  have hwalk : served.Routed env factory s.versions ∧ ∃ before last id ctx,
      visits = before ++ last ∧ last.length ≤ 1 ∧ Follows served.graph served.graph.entryNodeId
        (served.request.context served.startMs) before id ctx := by
    cases hstage : s.requests k with
    | waiting | unrouted =>
      rw [hstage] at hprogress
      cases hprogress
    | walking served' id ctx visits' =>
      rw [hstage] at hprogress hserved
      obtain ⟨rfl, rfl⟩ := Prod.mk.inj (Option.some.inj hprogress)
      exact ⟨hserved.1, visits', [], id, ctx, (List.append_nil _).symm, Nat.zero_le 1, hserved.2⟩
    | answered served' ctx visits' =>
      rw [hstage] at hprogress hserved
      obtain ⟨rfl, rfl⟩ := Prod.mk.inj (Option.some.inj hprogress)
      obtain ⟨hrouted, earlier, id, ctx', v, w₁, w₂, hfollows, -, -, hvisits, -⟩ := hserved
      exact ⟨hrouted, earlier, [v], id, ctx', hvisits, Nat.le_refl 1, hfollows⟩
  obtain ⟨⟨routes, ⟨v, hv, hroutes⟩, hfound⟩, before, last, id, ctx, hvisits, hlast, hfollows⟩ := hwalk
  obtain ⟨hroute, p, hp, -, hcompile⟩ := binds_of_mem hroutes (List.mem_of_find?_eq_some hfound)
  refine ⟨v, p, hv, hroute, hp, fun hacyclic => ?_⟩
  have hle := hfollows.length_le hcompile hacyclic
  rw [hvisits, List.length_append]
  omega

/-- **No older config.**  A request that has not read the routes when a call has returned is answered
    by the config of this call or by one that was put in place after it. -/
theorem no_older_config (h0 : buildTables env factory tables.gateway = .ok tables)
    (hrun : Serves env factory (startServing jobs requests tables w) s) {i : ι}
    (hreturned : s.calls.threads i = .returned (.ok ())) {k : κ}
    (hwaiting : (s.requests k).version = none) (hlater : Serves env factory s s') {n : Nat}
    (hread : (s'.requests k).version = some n) :
    ∃ m v, s'.versions[m]? = some v ∧ v.writer = some i ∧ (jobs i).Wants v.gateway ∧ m ≤ n := by
  have h := servingInv_of_serves (servingInv_start requests w h0) hrun
  obtain ⟨hgrown, -, hfresh⟩ := later_of_serves hlater
  obtain ⟨v, hv, hwriter⟩ := h.noted i (by rw [hreturned]; trivial)
  obtain ⟨m, hm, hmv⟩ := List.getElem_of_mem hv
  have hle := hfresh k n hwaiting hread
  refine ⟨m, v, ?_, hwriter, (h.versions v hv).wanted i hwriter, by omega⟩
  obtain ⟨more, hmore⟩ := hgrown
  rw [← hmore, List.getElem?_append_left hm, List.getElem?_eq_getElem hm, hmv]

end Run

/-! ## A request whose route is taken away -/

/-- One route for everything. -/
def oneRoute : GatewayConfig where
  routes := [{ name := "all", matchRule := {}, policy := "p" }]
  policies := [structuralPolicy none]

/-- A request for `/`. -/
def rootRequest : Incoming where
  parts := { method := "GET", uri := { scheme := none, path := "/", query := none }, version := .http11, headers := [] }
  protocol := none
  body := none
  remoteAddr := "127.0.0.1:1"
  clientCert := none

theorem oneRoute_tables : ∃ graph, buildTables (fun _ => none) (createPlugin (σ := Unit) unknownTypes)
    oneRoute = .ok ⟨oneRoute, {}, [({ name := "all", matchRule := {}, policy := "p" }, graph)]⟩ := by
  obtain ⟨graph, hgraph, -⟩ := structuralPolicy_compiles none (by decide)
  refine ⟨graph, buildTables_eq_ok.mpr ⟨rfl, rfl, compileRoutes_eq_ok.mpr ⟨fun p hp => ?_, ?_⟩⟩⟩
  · rw [List.mem_singleton.mp hp]
    exact ⟨graph, hgraph⟩
  · exact .cons ⟨rfl, structuralPolicy none, rfl, hgraph⟩ .nil

section Steps

variable {ι κ σ : Type} [DecidableEq ι] [DecidableEq κ] [CaseMapping] {env : Env}
  {factory : PluginFactory σ} {s₀ s : Serving ι κ σ}

theorem Serves.request (h : Serves env factory s₀ s) (k : κ) {stage : RequestStage σ} {w : σ}
    (hstep : requestStep s.calls.shared (s.versions.length - 1) (s.requests k) s.world = some (stage, w)) :
    Serves env factory s₀ { s with requests := Function.update s.requests k stage, world := w } :=
  h.tail (.request hstep)

theorem Serves.call (h : Serves env factory s₀ s) (i : ι) {c : Config ι (Stage σ) (Shared ι σ)}
    (hfire : (calls env factory).fire i s.calls = some c) :
    Serves env factory s₀ { s with calls := c, versions := noteVersion i (c.threads i) s.versions } :=
  h.tail (.call hfire)

end Steps

/-- The request has its route when the config is replaced by an empty one. -/
theorem served_by_one_config_replaced :
    let _ : CaseMapping := asciiCaseMapping
    ∃ (tables : Tables Unit) (s : Serving Unit Unit Unit),
      Serves (fun _ => none) (createPlugin unknownTypes)
        (startServing (fun _ => .apply {}) (fun _ => (rootRequest, 0)) tables ()) s ∧
      s.versions.map (·.gateway) = [oneRoute, {}] ∧ (s.requests ()).version = some 0 ∧
      ServedBy (fun _ => none) (createPlugin unknownTypes) s.versions (s.requests ()) := by
  intro _
  obtain ⟨graph, htables⟩ := oneRoute_tables
  let start : Serving Unit Unit Unit := startServing (fun _ => .apply {}) (fun _ => (rootRequest, 0))
    ⟨oneRoute, {}, [({ name := "all", matchRule := {}, policy := "p" }, graph)]⟩ ()
  have hstart : Serves (fun _ => none) (createPlugin unknownTypes) start start := .refl
  have hread := hstart.request () rfl
  have hcall := ((((hread.call () rfl).call () rfl).call () rfl).call () rfl).call () rfl
  obtain ⟨-, hserved⟩ := served_by_one_config htables hcall
  exact ⟨_, _, hcall, rfl, rfl, (hserved ()).2.1⟩

/-- A request after the call that has put an empty config in place. -/
theorem no_older_config_replaced :
    let _ : CaseMapping := asciiCaseMapping
    ∃ s s' : Serving Unit Unit Unit,
      Serves (fun _ => none) (createPlugin unknownTypes)
        (startServing (fun _ => .apply {}) (fun _ => (rootRequest, 0)) emptyTables ()) s ∧
      s.calls.threads () = .returned (.ok ()) ∧
      Serves (fun _ => none) (createPlugin unknownTypes) s s' ∧ (s'.requests ()).version = some 1 ∧
      ∃ m v, s'.versions[m]? = some v ∧ v.writer = some () ∧ v.gateway = emptyTables.gateway ∧ m ≤ 1 := by
  intro _
  let start : Serving Unit Unit Unit :=
    startServing (fun _ => .apply {}) (fun _ => (rootRequest, 0)) emptyTables ()
  have hstart : Serves (fun _ => none) (createPlugin unknownTypes) start start := .refl
  have hcall := ((((hstart.call () rfl).call () rfl).call () rfl).call () rfl).call () rfl
  have hrun : ∃ s s', Serves (fun _ => none) (createPlugin unknownTypes) start s ∧
      s.calls.threads () = .returned (.ok ()) ∧ (s.requests ()).version = none ∧
      Serves (fun _ => none) (createPlugin unknownTypes) s s' ∧ (s'.requests ()).version = some 1 :=
    ⟨_, _, hcall, rfl, rfl, Serves.request .refl () rfl, rfl⟩
  obtain ⟨s, s', hcall, hreturned, hwaiting, hlater, hread⟩ := hrun
  exact ⟨s, s', hcall, hreturned, hlater, hread, no_older_config rfl hcall hreturned hwaiting hlater hread⟩

end Featherbit
