/-
  STRUCTURAL VALIDATION of policy node graphs (`graph/validation.rs`), run before compilation.

  Every rule contributes its own violations and validation does not stop at the first one.  The
  validator reads an endpoint up to its FIRST dot (`validatedNode`); the compiler reads it up to
  its LAST one (`Graph.Engine`).
-/
import Featherbit.Config.Gateway

namespace Featherbit

/-- The node id the validator reads out of an endpoint: `split('.').next().unwrap_or("")`. -/
def validatedNode (endpoint : String) : String := splitFirst '.' endpoint

namespace PolicyConfig

variable (policy : PolicyConfig)

def nodeIds : List String := policy.nodes.map (·.id)

/-- The ids of the nodes of one type. -/
def idsOfType (nodeType : String) : List String :=
  (policy.nodes.filter fun n => n.nodeType = nodeType).map (·.id)

end PolicyConfig

section Rules

variable (policy : PolicyConfig)

def listenerErrors : List String :=
  if policy.nodes.any fun n => n.nodeType = "listener" then []
  else ["Policy must have a 'listener' node"]

def clientErrors : List String :=
  if policy.nodes.any fun n => n.nodeType = "client" then []
  else ["Policy must have a 'client' node"]

/-- Edges that reference a node that does not exist, by the id before the first dot. -/
def edgeErrors : List String :=
  policy.edges.flatMap fun edge =>
    (if validatedNode edge.from ∈ policy.nodeIds then []
      else ["Edge references unknown source node: '" ++ validatedNode edge.from ++ "'"]) ++
    (if validatedNode edge.to ∈ policy.nodeIds then []
      else ["Edge references unknown target node: '" ++ validatedNode edge.to ++ "'"])

/-- One edge per input port, `client` and `error-handler` inputs excepted.  `seen` are the target
    endpoints met so far, compared as written. -/
def inputErrors : List EdgeConfig → List String → List String
  | [], _ => []
  | edge :: edges, seen =>
    let toNode := validatedNode edge.to
    if toNode ∈ policy.idsOfType "client" ∨ toNode ∈ policy.idsOfType "error-handler" then
      inputErrors edges seen
    else if edge.to ∈ seen then
      ("Node '" ++ toNode ++ "' input '" ++ edge.to ++
        "' has multiple incoming edges — each input accepts only one edge") ::
        inputErrors edges seen
    else inputErrors edges (edge.to :: seen)

/-- The nodes that count as connected: edge endpoints, and the catch-all handler. -/
def connectedNodes : List String :=
  (policy.edges.flatMap fun edge => [validatedNode edge.from, validatedNode edge.to]) ++
    policy.errorHandler.toList

def orphanErrors : List String :=
  (policy.nodes.filter fun n => n.id ∉ connectedNodes policy).map fun n =>
    "Orphan node '" ++ n.id ++ "' has no connections"

def handlerErrors : List String :=
  match policy.errorHandler with
  | some handler =>
    if handler ∈ policy.nodeIds then []
    else ["Policy error_handler references unknown node: '" ++ handler ++ "'"]
  | none => []

/-- `validate_policy`. -/
def validatePolicy : Except (List String) Unit :=
  let errors := listenerErrors policy ++ clientErrors policy ++ edgeErrors policy ++
    inputErrors policy policy.edges [] ++ orphanErrors policy ++ handlerErrors policy
  if errors = [] then .ok () else .error errors

end Rules

/-! ## What an accepted policy satisfies -/

/-- The rules of `validate_policy` that the results below rest on. -/
structure Accepted (policy : PolicyConfig) : Prop where
  listener : ∃ n ∈ policy.nodes, n.nodeType = "listener"
  source : ∀ e ∈ policy.edges, validatedNode e.from ∈ policy.nodeIds
  target : ∀ e ∈ policy.edges, validatedNode e.to ∈ policy.nodeIds
  handler : ∀ h, policy.errorHandler = some h → h ∈ policy.nodeIds

theorem accepted_of_validate {policy : PolicyConfig} (h : validatePolicy policy = .ok ()) :
    Accepted policy := by
  have hnil : listenerErrors policy ++ clientErrors policy ++ edgeErrors policy ++
      inputErrors policy policy.edges [] ++ orphanErrors policy ++ handlerErrors policy = [] := by
    by_contra hne
    simp only [validatePolicy, if_neg hne] at h
    nomatch h
  simp only [List.append_eq_nil_iff] at hnil
  obtain ⟨⟨⟨⟨⟨hl, -⟩, he⟩, -⟩, -⟩, hh⟩ := hnil
  have hedge : ∀ e ∈ policy.edges,
      validatedNode e.from ∈ policy.nodeIds ∧ validatedNode e.to ∈ policy.nodeIds := by
    intro e hmem
    have h0 := List.flatMap_eq_nil_iff.mp he e hmem
    simpa [List.append_eq_nil_iff] using h0
  refine ⟨?_, fun e hm => (hedge e hm).1, fun e hm => (hedge e hm).2, fun id hid => ?_⟩
  · simpa [listenerErrors] using hl
  · simpa [handlerErrors, hid] using hh

end Featherbit
