/-
  THE MUTATING ADMIN HANDLERS (`admin/routes.rs`, `admin/policies.rs`, `admin/consumers.rs`).

  Every one of them takes a copy of the gateway config, edits one list of it, and commits the
  candidate: the candidate, or the early answer, is a function of the config (`candidate`); what
  is answered after a successful commit is fixed (`success`).  There are three lists and four
  edits; `Collection` says how a list sits in the config and the four edits are written over it.

  Abstractly a gateway config is a partial map from (kind, name) to resources, `lookup`; the one
  fact later modules need is `candidate_lookup`: a handler updates that map at its own key.
-/
import Featherbit.State

namespace Featherbit

/-- The JSON body of an Admin answer: `{"status": ..}` or `{"error": ..}`. -/
inductive AdminBody where
  | status (s : String)
  | error (s : String)
  | rejected (e : ConfigError)
deriving DecidableEq

structure AdminResponse where
  statusCode : UInt16
  body : AdminBody
deriving DecidableEq

namespace AdminResponse

def created : AdminResponse := ⟨201, .status "created"⟩
def updated : AdminResponse := ⟨200, .status "updated"⟩
def deleted : AdminResponse := ⟨200, .status "deleted"⟩
def notFound : AdminResponse := ⟨404, .error "not_found"⟩
def conflict (message : String) : AdminResponse := ⟨409, .error message⟩
def badRequest (e : ConfigError) : AdminResponse := ⟨400, .rejected e⟩

end AdminResponse

/-- A mutating handler. -/
structure Handler where
  /-- the candidate built from a snapshot of the config, or the answer given without a commit -/
  candidate : GatewayConfig → Except AdminResponse GatewayConfig
  /-- the answer after a successful commit -/
  success : AdminResponse

section Handle

variable {σ : Type} (env : Env) (factory : PluginFactory σ)

/-- The answer once the commit has returned. -/
def Handler.respond (h : Handler) : Except ConfigError Unit → AdminResponse
  | .ok () => h.success
  | .error e => .badRequest e

/-- A handler over `FileConfigStore`, whose `commit` is `apply_gateway`, with no other call in
    between. -/
def Handler.handle (h : Handler) (tables : Tables σ) : AdminResponse × Tables σ :=
  match h.candidate tables.gateway with
  | .error answer => (answer, tables)
  | .ok candidate =>
    let (result, tables') := applyGateway env factory tables candidate
    (h.respond result, tables')

variable {env factory}

/-- A handler that commits its candidate and does not answer `400` has swapped in the candidate's
    tables. -/
theorem Handler.build_of_handle {h : Handler} {tables tables' : Tables σ} {answer : AdminResponse}
    {candidate : GatewayConfig} (hc : h.candidate tables.gateway = .ok candidate)
    (hans : h.handle env factory tables = (answer, tables'))
    (hgood : ∀ e, answer ≠ .badRequest e) : buildTables env factory candidate = .ok tables' := by
  simp only [Handler.handle, hc, applyGateway] at hans
  cases hb : buildTables env factory candidate with
  | error e =>
    rw [hb] at hans
    exact absurd (congrArg Prod.fst hans).symm (hgood e)
  | ok built =>
    rw [hb] at hans
    rw [show built = tables' from congrArg Prod.snd hans]

/-- A candidate that builds is swapped in, and the handler answers success. -/
theorem Handler.handle_of_build (h : Handler) (tables : Tables σ) {tables' : Tables σ}
    {candidate : GatewayConfig}
    (hc : h.candidate tables.gateway = .ok candidate)
    (hb : buildTables env factory candidate = .ok tables') :
    h.handle env factory tables = (h.success, tables') := by
  simp only [Handler.handle, hc, applyGateway, hb]
  rfl

end Handle

/-! ## The three lists of a gateway config -/

/-- The sorts of resources. -/
inductive ResourceKind where
  | route
  | policy
  | consumer
deriving DecidableEq

/-- One resource of any sort. -/
inductive Resource where
  | route (r : RouteConfig)
  | policy (p : PolicyConfig)
  | consumer (c : ConsumerConfig)
deriving DecidableEq

/-- How a list of named resources sits in a gateway config. -/
structure Collection (α : Type) where
  kind : ResourceKind
  name : α → String
  rename : String → α → α
  rows : GatewayConfig → List α
  withRows : List α → GatewayConfig → GatewayConfig
  resource : α → Resource

def routeRows : Collection RouteConfig where
  kind := .route
  name := (·.name)
  rename name r := { r with name := name }
  rows gw := gw.routes
  withRows rows gw := { gw with routes := rows }
  resource := .route

def policyRows : Collection PolicyConfig where
  kind := .policy
  name := (·.name)
  rename name p := { p with name := name }
  rows gw := gw.policies
  withRows rows gw := { gw with policies := rows }
  resource := .policy

def consumerRows : Collection ConsumerConfig where
  kind := .consumer
  name := (·.name)
  rename name c := { c with name := name }
  rows gw := gw.consumers
  withRows rows gw := { gw with consumers := rows }
  resource := .consumer

namespace Collection

variable {α : Type} (c : Collection α)

/-- `POST`: append the resource, unless its name is taken. -/
def create (message : String) (x : α) : Handler where
  candidate gw :=
    if (c.rows gw).any fun y => c.name y = c.name x then .error (.conflict message)
    else .ok (c.withRows (c.rows gw ++ [x]) gw)
  success := .created

/-- `PUT` on an existing name: overwrite the first resource of that name. -/
def update (name : String) (x : α) : Handler where
  candidate gw :=
    match Keyed.replaceFirst c.name name (c.rename name x) (c.rows gw) with
    | some rows => .ok (c.withRows rows gw)
    | none => .error .notFound
  success := .updated

/-- `PUT` on any name: overwrite the first resource of that name, else append. -/
def upsert (name : String) (x : α) : Handler where
  candidate gw :=
    match Keyed.replaceFirst c.name name (c.rename name x) (c.rows gw) with
    | some rows => .ok (c.withRows rows gw)
    | none => .ok (c.withRows (c.rows gw ++ [c.rename name x]) gw)
  success := .updated

/-- `DELETE`: drop every resource of that name. -/
def delete (name : String) : Handler where
  candidate gw :=
    let rows := (c.rows gw).filter fun y => c.name y ≠ name
    if rows.length = (c.rows gw).length then .error .notFound
    else .ok (c.withRows rows gw)
  success := .deleted

end Collection

/-! ## The handlers -/

def createRoute (route : RouteConfig) : Handler := routeRows.create "route already exists" route
def updateRoute (name : String) (route : RouteConfig) : Handler := routeRows.update name route
def deleteRoute (name : String) : Handler := routeRows.delete name
def updatePolicy (name : String) (policy : PolicyConfig) : Handler := policyRows.upsert name policy
def deletePolicy (name : String) : Handler := policyRows.delete name
def createConsumer (consumer : ConsumerConfig) : Handler :=
  consumerRows.create "consumer already exists" consumer
def upsertConsumer (name : String) (consumer : ConsumerConfig) : Handler :=
  consumerRows.upsert name consumer
def deleteConsumer (name : String) : Handler := consumerRows.delete name

/-- A mutating request to the Admin API. -/
inductive AdminRequest where
  | createRoute (route : RouteConfig)
  | updateRoute (name : String) (route : RouteConfig)
  | deleteRoute (name : String)
  | updatePolicy (name : String) (policy : PolicyConfig)
  | deletePolicy (name : String)
  | createConsumer (consumer : ConsumerConfig)
  | upsertConsumer (name : String) (consumer : ConsumerConfig)
  | deleteConsumer (name : String)

namespace AdminRequest

/-- The handler a request is routed to. -/
def handler : AdminRequest → Handler
  | createRoute route => Featherbit.createRoute route
  | updateRoute name route => Featherbit.updateRoute name route
  | deleteRoute name => Featherbit.deleteRoute name
  | updatePolicy name policy => Featherbit.updatePolicy name policy
  | deletePolicy name => Featherbit.deletePolicy name
  | createConsumer consumer => Featherbit.createConsumer consumer
  | upsertConsumer name consumer => Featherbit.upsertConsumer name consumer
  | deleteConsumer name => Featherbit.deleteConsumer name

/-- The resource a request modifies. -/
def key : AdminRequest → ResourceKind × String
  | createRoute route => (.route, route.name)
  | updateRoute name _ | deleteRoute name => (.route, name)
  | updatePolicy name _ | deletePolicy name => (.policy, name)
  | createConsumer consumer => (.consumer, consumer.name)
  | upsertConsumer name _ | deleteConsumer name => (.consumer, name)

/-- What a request asks to find under its key afterwards. -/
def effect : AdminRequest → Option Resource
  | createRoute route => some (.route route)
  | updateRoute name route => some (.route { route with name := name })
  | updatePolicy name policy => some (.policy { policy with name := name })
  | createConsumer consumer => some (.consumer consumer)
  | upsertConsumer name consumer => some (.consumer { consumer with name := name })
  | deleteRoute _ | deletePolicy _ | deleteConsumer _ => none

end AdminRequest

/-! ## A gateway config as a map -/

namespace GatewayConfig

/-- The resource of a kind and a name: the first one declared with it. -/
def lookup (gw : GatewayConfig) : ResourceKind × String → Option Resource
  | (.route, name) => (Keyed.lookup (·.name) name gw.routes).map .route
  | (.policy, name) => (Keyed.lookup (·.name) name gw.policies).map .policy
  | (.consumer, name) => (Keyed.lookup (·.name) name gw.consumers).map .consumer

end GatewayConfig

namespace Collection

variable {α : Type}

/-- The collection is the part of `lookup` of its kind, and edits that part alone. -/
structure Lawful (c : Collection α) : Prop where
  name_rename : ∀ name x, c.name (c.rename name x) = name
  lookup_self : ∀ gw name, gw.lookup (c.kind, name) =
    (Keyed.lookup c.name name (c.rows gw)).map c.resource
  rows_withRows : ∀ rows gw, c.rows (c.withRows rows gw) = rows
  lookup_other : ∀ rows gw (k : ResourceKind × String), k.1 ≠ c.kind →
    (c.withRows rows gw).lookup k = gw.lookup k

theorem routeRows_lawful : routeRows.Lawful where
  name_rename _ _ := rfl
  lookup_self _ _ := rfl
  rows_withRows _ _ := rfl
  lookup_other := by rintro rows gw ⟨_ | _ | _, name⟩ h <;> first | rfl | exact absurd rfl h

theorem policyRows_lawful : policyRows.Lawful where
  name_rename _ _ := rfl
  lookup_self _ _ := rfl
  rows_withRows _ _ := rfl
  lookup_other := by rintro rows gw ⟨_ | _ | _, name⟩ h <;> first | rfl | exact absurd rfl h

theorem consumerRows_lawful : consumerRows.Lawful where
  name_rename _ _ := rfl
  lookup_self _ _ := rfl
  rows_withRows _ _ := rfl
  lookup_other := by rintro rows gw ⟨_ | _ | _, name⟩ h <;> first | rfl | exact absurd rfl h

section Edits

variable {c : Collection α} (hc : c.Lawful) {gw gw' : GatewayConfig}
include hc

/-- An edit of the rows that sets one name, seen as an edit of the map. -/
theorem Lawful.lookup_withRows {rows : List α} {name : String} {x : Option α}
    (h : ∀ n, Keyed.lookup c.name n rows =
      if n = name then x else Keyed.lookup c.name n (c.rows gw)) (k : ResourceKind × String) :
    (c.withRows rows gw).lookup k =
      if k = (c.kind, name) then x.map c.resource else gw.lookup k := by
  obtain ⟨kind, n⟩ := k
  by_cases hkind : kind = c.kind
  · subst hkind
    rw [hc.lookup_self, hc.lookup_self, hc.rows_withRows, h n]
    by_cases hn : n = name
    · simp [hn]
    · simp [hn]
  · rw [hc.lookup_other rows gw _ hkind, if_neg]
    exact fun h => hkind (congrArg Prod.fst h)

theorem Lawful.create_lookup {message : String} {x : α}
    (h : (c.create message x).candidate gw = .ok gw') (k : ResourceKind × String) :
    gw'.lookup k = if k = (c.kind, c.name x) then some (c.resource x) else gw.lookup k := by
  simp only [create] at h
  split at h
  · nomatch h
  · rename_i hnew
    rw [← Except.ok.inj h]
    have hnone : Keyed.lookup c.name (c.name x) (c.rows gw) = none := by
      rw [Keyed.lookup_eq_none]
      simpa using hnew
    exact hc.lookup_withRows (x := some x) (Keyed.lookup_append_singleton hnone) k

theorem Lawful.replace_lookup {rows : List α} {name : String} {x : α}
    (h : Keyed.replaceFirst c.name name (c.rename name x) (c.rows gw) = some rows)
    (k : ResourceKind × String) :
    (c.withRows rows gw).lookup k =
      if k = (c.kind, name) then some (c.resource (c.rename name x)) else gw.lookup k := by
  refine hc.lookup_withRows (x := some (c.rename name x)) (fun n => ?_) k
  have hname := hc.name_rename name x
  have h' : Keyed.replaceFirst c.name (c.name (c.rename name x)) (c.rename name x) (c.rows gw) =
      some rows := by rw [hname]; exact h
  rw [Keyed.lookup_replaceFirst h' n, hname]

theorem Lawful.update_lookup {name : String} {x : α} (h : (c.update name x).candidate gw = .ok gw')
    (k : ResourceKind × String) :
    gw'.lookup k =
      if k = (c.kind, name) then some (c.resource (c.rename name x)) else gw.lookup k := by
  simp only [update] at h
  split at h
  · rename_i rows hrows
    rw [← Except.ok.inj h]
    exact hc.replace_lookup hrows k
  · cases h

theorem Lawful.upsert_lookup {name : String} {x : α} (h : (c.upsert name x).candidate gw = .ok gw')
    (k : ResourceKind × String) :
    gw'.lookup k =
      if k = (c.kind, name) then some (c.resource (c.rename name x)) else gw.lookup k := by
  simp only [upsert] at h
  split at h
  · rename_i rows hrows
    rw [← Except.ok.inj h]
    exact hc.replace_lookup hrows k
  · rename_i hnone
    rw [← Except.ok.inj h]
    refine hc.lookup_withRows (x := some (c.rename name x)) (fun n => ?_) k
    have hname := hc.name_rename name x
    have hnone' : Keyed.lookup c.name (c.name (c.rename name x)) (c.rows gw) = none := by
      rw [hname]; exact Keyed.replaceFirst_eq_none.mp hnone
    rw [Keyed.lookup_append_singleton hnone' n, hname]

theorem Lawful.delete_lookup {name : String} (h : (c.delete name).candidate gw = .ok gw')
    (k : ResourceKind × String) :
    gw'.lookup k = if k = (c.kind, name) then none else gw.lookup k := by
  simp only [delete] at h
  split at h
  · nomatch h
  · rw [← Except.ok.inj h]
    exact hc.lookup_withRows (x := none)
      (fun n => by simpa using Keyed.lookup_filter_ne name n (c.rows gw)) k

end Edits

end Collection

/-- **A handler is an update of the map at its own key**, and leaves every other resource. -/
theorem candidate_lookup (req : AdminRequest) {gw gw' : GatewayConfig}
    (h : req.handler.candidate gw = .ok gw') (k : ResourceKind × String) :
    gw'.lookup k = if k = req.key then req.effect else gw.lookup k := by
  cases req with
  | createRoute route => exact Collection.routeRows_lawful.create_lookup h k
  | updateRoute name route => exact Collection.routeRows_lawful.update_lookup h k
  | deleteRoute name => exact Collection.routeRows_lawful.delete_lookup h k
  | updatePolicy name policy => exact Collection.policyRows_lawful.upsert_lookup h k
  | deletePolicy name => exact Collection.policyRows_lawful.delete_lookup h k
  | createConsumer consumer => exact Collection.consumerRows_lawful.create_lookup h k
  | upsertConsumer name consumer => exact Collection.consumerRows_lawful.upsert_lookup h k
  | deleteConsumer name => exact Collection.consumerRows_lawful.delete_lookup h k

end Featherbit
