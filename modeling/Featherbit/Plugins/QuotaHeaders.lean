/-
  THE QUOTA HEADERS BEHIND A `limit-count` NODE.

  1. **One edit** keeps a header unless it names it or assigns the whole map (`ShowsQuota.edit`).

  2. **One node** keeps the quota of an earlier one, if it is not itself made to change it (`Unrelated`: no
     later count, no configured name) and nothing without the quota takes the place of the headers
     (`Preserving`).

  3. **A run** (`quota_shown`): induction on the rest of the walk.

  The `upstream` node replaces `context.response.headers` wholesale, and so do the other nodes that answer in
  its place, a cache hit and a script: the quota of a limiter before one of them reaches the client only if
  what is assigned has it too (`upstream_drops_quota`).
-/
import Mathlib
import Featherbit.Graph.Tracing
import Featherbit.RateLimit.Isolation
import Featherbit.Plugins.ResponseHeaders

namespace Featherbit

section Quota

variable {σ τ : Type} [WholeSeconds]

/-- The headers carry the quota that the node reported. -/
structure ShowsQuota (limit : LimitCountPlugin τ) (result : WindowResult)
    (headers : HashMap (List String)) : Prop where
  limit : headers["x-ratelimit-limit"]? = some [toString limit.count]
  remaining : headers["x-ratelimit-remaining"]? = some [toString result.remaining]
  reset : headers["x-ratelimit-reset"]? = some [toString (WholeSeconds.ceilSecs result.reset)]

/-- The header is one of the quota. -/
def IsQuotaName (name : String) : Prop := ∃ q ∈ quotaNames, eqIgnoreAsciiCase q name = true

/-- No edit is a later count's, and none is configured for a header of the quota. -/
structure Unrelated (p : NativePlugin) (edits : List HeaderEdit) : Prop where
  rateLimiting : p.LimitsRate → ∀ e ∈ edits, ∀ name, e.named = some (.code, name) → ¬ IsQuotaName name
  configured : ∀ e ∈ edits, ∀ name, e.named = some (.config, name) → ¬ IsQuotaName name

/-- What takes the place of the headers carries the quota, and no policy server names a header of it. -/
structure Preserving (limit : LimitCountPlugin τ) (result : WindowResult) (edits : List HeaderEdit) :
    Prop where
  assigned : ∀ headers, .assign headers ∈ edits → ShowsQuota limit result headers
  answered : ∀ e ∈ edits, ∀ name, e.named = some (.answer, name) → ¬ IsQuotaName name

variable {limit : LimitCountPlugin τ} {result : WindowResult} {headers : HashMap (List String)}

/-! ## One edit, and the edits of one node -/

/-- The same three headers, the same quota. -/
theorem ShowsQuota.congr {headers' : HashMap (List String)} (h : ShowsQuota limit result headers)
    (hsame : ∀ q ∈ quotaNames, headers'[q]? = headers[q]?) : ShowsQuota limit result headers' where
  limit := (hsame _ (by decide)).trans h.limit
  remaining := (hsame _ (by decide)).trans h.remaining
  reset := (hsame _ (by decide)).trans h.reset

theorem ShowsQuota.edit {e : HeaderEdit} {source : NameSource} {name : String}
    (h : ShowsQuota limit result headers) (hnamed : e.named = some (source, name))
    (hother : ¬ IsQuotaName name) : ShowsQuota limit result (e.apply headers) := by
  refine h.congr fun q hq => HeaderEdit.getElem?_apply headers hnamed ?_
  by_contra hsame
  exact hother ⟨q, hq, by simpa using hsame⟩

theorem ShowsQuota.edits {p : NativePlugin} {edits : List HeaderEdit} (hmade : ∀ e ∈ edits, p.Makes e)
    (hunrelated : Unrelated p edits) (hpreserving : Preserving limit result edits)
    (h : ShowsQuota limit result headers) : ShowsQuota limit result (applyEdits edits headers) := by
  -- the conditions are about every edit, so the induction goes over a part of them
  suffices hpart : ∀ (part : List HeaderEdit) (headers : HashMap (List String)), part ⊆ edits →
      ShowsQuota limit result headers → ShowsQuota limit result (applyEdits part headers) from
    hpart edits headers (List.Subset.refl edits) h
  intro part
  induction part with
  | nil => exact fun headers _ h => h
  | cons e part ih =>
    intro headers hsubset h
    have he : e ∈ edits := hsubset List.mem_cons_self
    refine ih _ (fun x hx => hsubset (List.mem_cons_of_mem e hx)) ?_
    cases hnamed : e.named with
    | none =>
      cases e with
      | assign headers' => exact hpreserving.assigned headers' he
      | _ => cases hnamed
    | some named =>
      obtain ⟨source, name⟩ := named
      refine h.edit hnamed ?_
      cases source with
      | code =>
        rintro ⟨q, hq, hsame⟩
        have hlimits := NativePlugin.limitsRate_of_code (hmade e he) hnamed hq hsame
        exact hunrelated.rateLimiting hlimits e he name hnamed ⟨q, hq, hsame⟩
      | config => exact hunrelated.configured e he name hnamed
      | answer => exact hpreserving.answered e he name hnamed

/-! ## Runs -/

/-- Where a walk is: at a node, with a context and a world. -/
structure WalkPoint (σ : Type) where
  id : String
  ctx : Context
  world : σ

/-- The visit of one point leads to the other. -/
def CompiledGraph.Hop (g : CompiledGraph σ) (s s' : WalkPoint σ) : Prop :=
  ∃ v, g.visit s.id s.ctx s.world = (v, s'.world) ∧ v.next = some s'.id ∧ v.after = s'.ctx

variable {g : CompiledGraph σ}

omit [WholeSeconds] in
/-- A walk comes by every point it reaches. -/
theorem walk_of_reached {s s' : WalkPoint σ} {visits : List Visit} {c : Context} {w' : σ}
    (hreached : Relation.ReflTransGen g.Hop s s') (h : g.Walk s.id s.ctx s.world visits c w') :
    ∃ visits', g.Walk s'.id s'.ctx s'.world visits' c w' := by
  induction hreached using Relation.ReflTransGen.head_induction_on generalizing visits with
  | refl => exact ⟨visits, h⟩
  | head hhop _ ih =>
    obtain ⟨v, hv, hnext, hafter⟩ := hhop
    cases h with
    | last hv' hend =>
      obtain ⟨rfl, -⟩ := Prod.mk.inj (hv.symm.trans hv')
      rw [hnext] at hend
      cases hend
    | step hv' hnext' hrest =>
      obtain ⟨rfl, rfl⟩ := Prod.mk.inj (hv.symm.trans hv')
      obtain rfl := Option.some.inj (hnext.symm.trans hnext')
      rw [hafter] at hrest
      exact ih hrest

/-- At this point the limiter is visited, shows its quota, and admits the request. -/
structure Admits [JsonText] (g : CompiledGraph σ) (limit : LimitCountPlugin τ) (result : WindowResult)
    (s : WalkPoint σ) : Prop where
  shows : limit.showLimitQuotaHeader = true
  allowed : result.allowed = true
  answers : ∃ node, g.nodes[s.id]? = some node ∧
    (node.execute s.ctx ∅ s.world).1 = limit.respond s.ctx (.ok result)

theorem showsQuota_quotaEdits (hshows : limit.showLimitQuotaHeader = true)
    (headers : HashMap (List String)) :
    ShowsQuota limit result (applyEdits (limit.quotaEdits result.remaining result.reset) headers) := by
  rw [LimitCountPlugin.quotaEdits, hshows]
  show ShowsQuota limit result (((headers.insert _ _).insert _ _).insert _ _)
  constructor
  · rw [HashMap.get_insert, if_neg (by decide), HashMap.get_insert, if_neg (by decide),
      HashMap.get_insert, if_pos rfl]
  · rw [HashMap.get_insert, if_neg (by decide), HashMap.get_insert, if_pos rfl]
  · rw [HashMap.get_insert, if_pos rfl]

/-- An admitted request is handed on with the quota. -/
theorem Admits.showsQuota [JsonText] {s : WalkPoint σ} {v : Visit} {w' : σ}
    (h : Admits g limit result s) (hv : g.visit s.id s.ctx s.world = (v, w')) :
    ShowsQuota limit result v.after.response.headers := by
  obtain ⟨node, hnode, hexec⟩ := h.answers
  have hresult : limit.respond s.ctx (.ok result) =
      .ok { context := limit.setQuotaHeaders s.ctx result.remaining result.reset, namedOutputs := ∅ } := by
    unfold LimitCountPlugin.respond
    dsimp only
    rw [if_pos h.allowed]
  have hafter : v.after = limit.setQuotaHeaders s.ctx result.remaining result.reset := by
    rcases g.visit_cases s.id s.ctx s.world with
      ⟨hnone, -⟩ | ⟨node', output, w₁, hnode', hexec', hvisit⟩ | ⟨node', err, w₁, hnode', hexec', -⟩
    · rw [hnode] at hnone
      cases hnone
    · obtain rfl := Option.some.inj (hnode.symm.trans hnode')
      obtain ⟨rfl, -⟩ := Prod.mk.inj (hv.symm.trans hvisit)
      rw [hexec', hresult] at hexec
      show output.context = _
      rw [Except.ok.inj hexec]
    · obtain rfl := Option.some.inj (hnode.symm.trans hnode')
      rw [hexec', hresult] at hexec
      cases hexec
  rw [hafter, limit.setQuotaHeaders_headers]
  exact showsQuota_quotaEdits h.shows _

/-- The node at this point leaves the quota of `limit` alone. -/
def LeavesQuota (logs : ∀ (id : String) (node : Plugin σ), g.nodes[id]? = some node → EditLog node)
    (limit : LimitCountPlugin τ) (result : WindowResult) (s : WalkPoint σ) : Prop :=
  ∀ node (hnode : g.nodes[s.id]? = some node),
    Unrelated (logs s.id node hnode).plugin ((logs s.id node hnode).edits s.ctx ∅ s.world) ∧
      Preserving limit result ((logs s.id node hnode).edits s.ctx ∅ s.world)

variable {logs : ∀ (id : String) (node : Plugin σ), g.nodes[id]? = some node → EditLog node}

/-- One visit keeps the quota. -/
theorem showsQuota_visit {id : String} {ctx : Context} {w w' : σ} {v : Visit}
    (hleaves : LeavesQuota logs limit result ⟨id, ctx, w⟩) (hv : g.visit id ctx w = (v, w'))
    (h : ShowsQuota limit result ctx.response.headers) :
    ShowsQuota limit result v.after.response.headers := by
  have hnode : ∀ node (hfound : g.nodes[id]? = some node),
      ShowsQuota limit result (PluginResult.context (node.execute ctx ∅ w).1).response.headers := by
    intro node hfound
    obtain ⟨hunrelated, hpreserving⟩ := hleaves node hfound
    rw [(logs id node hfound).does]
    exact h.edits ((logs id node hfound).made ctx ∅ w) hunrelated hpreserving
  rcases g.visit_cases id ctx w with
    ⟨-, hvisit⟩ | ⟨node, output, w₁, hfound, hexec, hvisit⟩ | ⟨node, err, w₁, hfound, hexec, hvisit⟩
  · obtain ⟨rfl, -⟩ := Prod.mk.inj (hv.symm.trans hvisit)
    exact h
  · obtain ⟨rfl, -⟩ := Prod.mk.inj (hv.symm.trans hvisit)
    have hafter := hnode node hfound
    rw [hexec] at hafter
    exact hafter
  · obtain ⟨rfl, -⟩ := Prod.mk.inj (hv.symm.trans hvisit)
    have hafter : ShowsQuota limit result (err.tagged id).response.headers := by
      have hafter := hnode node hfound
      rw [hexec] at hafter
      exact hafter
    show ShowsQuota limit result (if _ then _ else _ : Context).response.headers
    split
    · exact hafter
    · -- the engine's own response has its content type, and the other headers
      exact hafter.edit (e := .insert .code "content-type" ["application/json"]) rfl
        (by rintro ⟨q, hq, hsame⟩; revert q; decide)

/-- The rest of a walk keeps it, if every point of the rest leaves it alone. -/
theorem showsQuota_walk {id : String} {ctx c : Context} {w w' : σ} {visits : List Visit}
    (hwalk : g.Walk id ctx w visits c w')
    (hleaves : ∀ s, Relation.ReflTransGen g.Hop ⟨id, ctx, w⟩ s → LeavesQuota logs limit result s)
    (h : ShowsQuota limit result ctx.response.headers) : ShowsQuota limit result c.response.headers := by
  induction hwalk with
  | last hv _ => exact showsQuota_visit (hleaves _ .refl) hv h
  | step hv hnext _ ih =>
    refine ih (fun s hs => hleaves s (.head ⟨_, hv, hnext, rfl⟩ hs)) ?_
    exact showsQuota_visit (hleaves _ .refl) hv h

/-- **The quota reaches the client**: wherever in a run a `limit-count` node admits the request, the context
    that the graph returns carries the node's values, if no later node is made to change them and nothing
    without them takes the place of the headers. -/
theorem quota_shown [CaseMapping] [JsonText] {g : CompiledGraph σ}
    (logs : ∀ (id : String) (node : Plugin σ), g.nodes[id]? = some node → EditLog node)
    {limit : LimitCountPlugin τ} {result : WindowResult} {fuel : Nat} {ctx c : Context} {w w' : σ}
    {s : WalkPoint σ} (hrun : g.execute fuel ctx w = some (c, w'))
    (hreached : Relation.ReflTransGen g.Hop ⟨g.entryNodeId, ctx, w⟩ s) (hadmits : Admits g limit result s)
    (hlater : ∀ s', Relation.TransGen g.Hop s s' → LeavesQuota logs limit result s') :
    ShowsQuota limit result c.response.headers := by
  obtain ⟨exit, hexit, heq⟩ := Option.map_eq_some_iff.mp hrun
  obtain ⟨rfl, rfl⟩ := Prod.mk.inj heq
  obtain ⟨visits, hwalk, -⟩ := walk_of_iterate hexit
  obtain ⟨visits', hwalk'⟩ := walk_of_reached hreached hwalk
  generalize exit.ctx = c at hwalk' ⊢
  cases hwalk' with
  | last hv _ => exact hadmits.showsQuota hv
  | step hv hnext hrest =>
    refine showsQuota_walk hrest (fun s' hs' => hlater s' ?_) (hadmits.showsQuota hv)
    exact .head' ⟨_, hv, hnext, rfl⟩ hs'

end Quota

/-! ## A limiter alone -/

/-- What the first request of a client is told. -/
def firstOfMinute : WindowResult := ⟨true, 0, durationFromSecs 60, 1⟩

theorem respond_first [CaseMapping] [JsonText] [WholeSeconds] (ctx : Context) :
    (onePerMinuteNode.toPlugin.execute ctx ∅ (0, ∅)).1 =
      onePerMinuteNode.respond ctx (.ok firstOfMinute) := by
  show onePerMinuteNode.respond ctx (.ok (countRequest 1 (durationFromSecs 60) 0
    (∅ : LocalCounterStore)[onePerMinuteNode.resolveKey ctx]?).1) = _
  rw [Std.ExtTreeMap.getElem?_empty]
  rfl

/-- The first visit of the node, in any graph. -/
theorem visit_first [CaseMapping] [JsonText] [WholeSeconds] {g : CompiledGraph (Nat × LocalCounterStore)}
    (hlimit : g.nodes["limit"]? = some onePerMinuteNode.toPlugin) (ctx : Context) :
    ∃ w, g.visit "limit" ctx (0, ∅) =
      (g.okVisit "limit" onePerMinuteNode.toPlugin {
        context := onePerMinuteNode.setQuotaHeaders ctx 0 (durationFromSecs 60)
        namedOutputs := ∅ }, w) :=
  ⟨_, CompiledGraph.visit_success hlimit (Prod.ext (respond_first ctx) rfl)⟩

section Minute

variable [CaseMapping] [JsonText] [WholeSeconds]

/-- One request a minute for each client, and nothing behind it. -/
def minuteGraph : CompiledGraph (Nat × LocalCounterStore) where
  nodes := ((∅ : HashMap (Plugin (Nat × LocalCounterStore))).insert "client" clientPlugin).insert "limit"
    onePerMinuteNode.toPlugin
  successEdges := (∅ : HashMap String).insert "limit" "client"
  errorEdges := ∅
  entryNodeId := "limit"
  terminalNodeIds := (∅ : HashSet).insert "client"
  catchAllHandler := none
  policyName := "minute"

theorem minuteGraph_nodes {id : String} (hid : id ≠ "limit") {node : Plugin (Nat × LocalCounterStore)}
    (h : minuteGraph.nodes[id]? = some node) : node = clientPlugin := by
  unfold minuteGraph at h
  rw [HashMap.get_insert, if_neg hid, HashMap.get_insert] at h
  split at h
  · exact (Option.some.inj h).symm
  · rw [Std.ExtTreeMap.getElem?_empty] at h
    cases h

theorem minuteGraph_limit : minuteGraph.nodes["limit"]? = some onePerMinuteNode.toPlugin := by
  unfold minuteGraph
  rw [HashMap.get_insert, if_pos rfl]

/-- The logs of its nodes. -/
def minuteLogs (id : String) (node : Plugin (Nat × LocalCounterStore))
    (h : minuteGraph.nodes[id]? = some node) : EditLog node :=
  if hid : id = "limit" then
    onePerMinuteNode.editLog.cast (Option.some.inj (h.symm.trans (hid ▸ minuteGraph_limit)))
  else (passThroughLog "client").cast (minuteGraph_nodes hid h)

/-- Every step of a walk through it leads to the client. -/
theorem minuteGraph_hop {s s' : WalkPoint (Nat × LocalCounterStore)} (h : minuteGraph.Hop s s') :
    s'.id = "client" := by
  obtain ⟨v, hv, hnext, -⟩ := h
  rcases minuteGraph.visit_cases s.id s.ctx s.world with
    ⟨-, hvisit⟩ | ⟨node, output, w₁, -, -, hvisit⟩ | ⟨node, err, w₁, -, -, hvisit⟩
  · obtain ⟨rfl, -⟩ := Prod.mk.inj (hv.symm.trans hvisit)
    cases hnext
  · obtain ⟨rfl, -⟩ := Prod.mk.inj (hv.symm.trans hvisit)
    have hedge : minuteGraph.nextOnSuccess s.id = some s'.id := hnext
    unfold CompiledGraph.nextOnSuccess at hedge
    split at hedge
    · cases hedge
    · have hedge' : ((∅ : HashMap String).insert "limit" "client")[s.id]? = some s'.id := hedge
      rw [HashMap.get_insert] at hedge'
      split at hedge'
      · exact (Option.some.inj hedge').symm
      · rw [Std.ExtTreeMap.getElem?_empty] at hedge'
        cases hedge'
  · obtain ⟨rfl, -⟩ := Prod.mk.inj (hv.symm.trans hvisit)
    have hedge : (minuteGraph.nextOnError s.id).map (·.1) = some s'.id := hnext
    have hnone : minuteGraph.nextOnError s.id = none := by
      show (((∅ : HashMap String)[s.id]?).map _).or none = none
      rw [Std.ExtTreeMap.getElem?_empty]
      rfl
    rw [hnone] at hedge
    cases hedge

theorem minuteGraph_leaves {limit : LimitCountPlugin LocalCounterStore} {result : WindowResult}
    {s s' : WalkPoint (Nat × LocalCounterStore)} (h : Relation.TransGen minuteGraph.Hop s s') :
    LeavesQuota minuteLogs limit result s' := by
  have hid : s'.id = "client" := by
    cases h with
    | single hhop => exact minuteGraph_hop hhop
    | tail _ hhop => exact minuteGraph_hop hhop
  intro node hnode
  have hne : s'.id ≠ "limit" := by
    rw [hid]
    decide
  have hlog : minuteLogs s'.id node hnode =
      (passThroughLog "client").cast (minuteGraph_nodes hne hnode) := dif_neg hne
  rw [hlog]
  have hnone : ∀ e : HeaderEdit, e ∉ ([] : List HeaderEdit) := fun e => List.not_mem_nil
  exact ⟨⟨fun _ e he => absurd he (hnone e), fun e he => absurd he (hnone e)⟩,
    ⟨fun headers he => absurd he (hnone _), fun e he => absurd he (hnone e)⟩⟩

end Minute

/-- Without a backend behind the node, the quota is shown. -/
theorem quota_shown_minute :
    let _ : CaseMapping := asciiCaseMapping
    let _ : JsonText := oneFieldText
    let _ : WholeSeconds := exactSeconds
    let ctx := Context.new default
    ∃ c w', minuteGraph.execute 2 ctx (0, ∅) = some (c, w') ∧
      ShowsQuota onePerMinuteNode firstOfMinute c.response.headers := by
  intro _ _ _ ctx
  let limited := onePerMinuteNode.setQuotaHeaders ctx 0 (durationFromSecs 60)
  obtain ⟨w, hv⟩ := visit_first minuteGraph_limit ctx
  have hclient : minuteGraph.nodes["client"]? = some clientPlugin := by
    show ((_ : HashMap _).insert _ _)["client"]? = _
    rw [HashMap.get_insert, if_neg (by decide), HashMap.get_insert, if_pos rfl]
  have hv' : minuteGraph.visit "client" limited w =
      (minuteGraph.okVisit "client" clientPlugin { context := limited, namedOutputs := ∅ }, w) :=
    CompiledGraph.visit_success hclient rfl
  have hwalk : minuteGraph.Walk "limit" ctx (0, ∅)
      [minuteGraph.okVisit "limit" onePerMinuteNode.toPlugin { context := limited, namedOutputs := ∅ },
        minuteGraph.okVisit "client" clientPlugin { context := limited, namedOutputs := ∅ }] limited w :=
    .step hv rfl (.last hv' rfl)
  have hrun : minuteGraph.execute 2 ctx (0, ∅) = some (limited, w) := execute_of_walk hwalk (Nat.le_refl 2)
  have hadmits : Admits minuteGraph onePerMinuteNode firstOfMinute ⟨"limit", ctx, 0, ∅⟩ :=
    ⟨rfl, rfl, _, minuteGraph_limit, respond_first ctx⟩
  exact ⟨limited, w, hrun, quota_shown minuteLogs hrun .refl hadmits fun s' hs' => minuteGraph_leaves hs'⟩

/-! ## A limiter in front of a backend -/

section Shop

variable [CaseMapping] [JsonText] [WholeSeconds] [MethodParser] [DurationText]

/-- A backend's reply, without a quota of its own. -/
def pageReply : OutboundResponse where
  status := 200
  headers := (∅ : HashMap (List String)).insert "content-type" ["text/html"]
  body := asBytes "<p>open</p>"

/-- An `upstream` node with one backend. -/
def shopBackend : Plugin (Nat × LocalCounterStore) :=
  UpstreamPlugin.toPlugin ⟨60000, false, true⟩ fun _ w => ((⟨"shop", 3000⟩, fun _ => .ok pageReply), w)

def shopTypes : PluginFactory (Nat × LocalCounterStore) where
  create nodeType config :=
    match nodeType with
    | "limit-count" => (LimitCountPlugin.fromConfig config .default).map LimitCountPlugin.toPlugin
    | "upstream" => .ok shopBackend
    | other => .error ("Unknown plugin type: " ++ other)
  typed := by
    intro nodeType config plugin h
    split at h
    · cases hlimit : LimitCountPlugin.fromConfig config .default with
      | error message =>
        rw [hlimit] at h
        cases h
      | ok limit =>
        rw [hlimit] at h
        rw [← Except.ok.inj h]
        rfl
    · rw [← Except.ok.inj h]
      rfl
    · cases h

end Shop

/-- One request a minute for each client, then the backend. -/
def limitedShop : PolicyConfig where
  name := "limited-shop"
  nodes :=
    [{ id := "listener", nodeType := "listener" },
      { id := "limit", nodeType := "limit-count", config := onePerMinute },
      { id := "backend", nodeType := "upstream" },
      { id := "client", nodeType := "client" }]
  edges :=
    [{ «from» := "listener.out", «to» := "limit.in" },
      { «from» := "limit.success", «to» := "backend.in" },
      { «from» := "backend.success", «to» := "client.in" }]

/-- A first request is admitted, and the headers of its quota are not in the response: the backend's reply
    has taken their place. -/
theorem upstream_drops_quota :
    let _ : CaseMapping := asciiCaseMapping
    let _ : JsonText := oneFieldText
    let _ : WholeSeconds := exactSeconds
    let _ : MethodParser := tokenMethods
    let _ : DurationText := ⟨fun _ => "60s"⟩
    let ctx := Context.new default
    ∃ g, validatePolicy limitedShop = .ok () ∧
      compilePolicy (fun _ => none) (createPlugin shopTypes) limitedShop = .ok g ∧
      (∀ id node, id ≠ "limit" → g.nodes[id]? = some node →
        node.pluginType ∈ ["listener", "upstream", "client"]) ∧
      Admits g onePerMinuteNode firstOfMinute ⟨g.entryNodeId, ctx, 0, ∅⟩ ∧
      ∃ c w', g.execute 3 ctx (0, ∅) = some (c, w') ∧ c.response.statusCode = 200 ∧
        ∀ q ∈ quotaNames, c.response.headers[q]? = none := by
  intro _ _ _ _ _ ctx
  obtain ⟨g, hg⟩ : ∃ g, compilePolicy (fun _ => none) (createPlugin shopTypes) limitedShop = .ok g := ⟨_, rfl⟩
  have hcomp := compiled_of_compile hg
  have hentry := hcomp.entry_of_listener (l := "listener") (by decide)
  have hid : g.entryNodeId = "limit" := hentry.trans (by decide)
  have hlimit : g.nodes["limit"]? = some onePerMinuteNode.toPlugin := by
    rw [hcomp.nodes]
    rfl
  have hbackend : g.nodes["backend"]? = some shopBackend := by
    rw [hcomp.nodes]
    rfl
  have hclient : g.nodes["client"]? = some clientPlugin := by
    rw [hcomp.nodes]
    rfl
  have hnext : g.nextOnSuccess "limit" = some "backend" := by
    rw [hcomp.nextOnSuccess]
    decide
  have hnext' : g.nextOnSuccess "backend" = some "client" := by
    rw [hcomp.nextOnSuccess]
    decide
  have hend : g.nextOnSuccess "client" = none := by
    rw [hcomp.nextOnSuccess]
    decide
  refine ⟨g, by decide +kernel, hg, ?_, ?_, ?_⟩
  · intro id node hother hnode
    rw [hcomp.nodes] at hnode
    obtain ⟨n, hn, hplugin⟩ := Option.bind_eq_some_iff.mp hnode
    obtain ⟨hmem, rfl⟩ := PolicyConfig.mem_of_nodeAt hn
    have htypes : ∀ n ∈ limitedShop.nodes, n.id ≠ "limit" →
        n.nodeType ∈ ["listener", "upstream", "client"] := by decide
    rw [NodeConfig.plugin_typed hplugin]
    exact htypes n hmem hother
  · rw [hid]
    exact ⟨rfl, rfl, _, hlimit, respond_first ctx⟩
  · -- the three visits of the walk
    let limited := onePerMinuteNode.setQuotaHeaders ctx 0 (durationFromSecs 60)
    let served : Context := { limited with response := ⟨200, pageReply.headers, pageReply.body⟩ }
    obtain ⟨w, hv⟩ := visit_first hlimit ctx
    have hv' : g.visit "backend" limited w =
        (g.okVisit "backend" shopBackend { context := served, namedOutputs := ∅ }, w) :=
      CompiledGraph.visit_success hbackend rfl
    have hv'' : g.visit "client" served w =
        (g.okVisit "client" clientPlugin { context := served, namedOutputs := ∅ }, w) :=
      CompiledGraph.visit_success hclient rfl
    have hwalk : g.Walk g.entryNodeId ctx (0, ∅)
        [g.okVisit "limit" onePerMinuteNode.toPlugin { context := limited, namedOutputs := ∅ },
          g.okVisit "backend" shopBackend { context := served, namedOutputs := ∅ },
          g.okVisit "client" clientPlugin { context := served, namedOutputs := ∅ }] served w := by
      rw [hid]
      exact .step hv hnext (.step hv' hnext' (.last hv'' hend))
    exact ⟨served, w, execute_of_walk hwalk (Nat.le_refl 3), rfl, by decide +kernel⟩

end Featherbit
