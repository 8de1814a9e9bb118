/-
  ENDPOINTS AND THE ONE-EDGE RULE: what the validator and the compiler read out of `node_id.port`, and
  when `validate_policy` is content.

  The validator's id is in the node of an endpoint and the port is not (`validatedNode_append`), so it
  is the same for an endpoint and for its node (`validatedNode_endpointNode`).
-/
import Featherbit.Graph.Engine

namespace Featherbit

/-! ## Endpoints -/

/-- An endpoint written from a node and a port without a dot reads back as the two. -/
theorem parseEdgeEndpoint_append {s : String} (id port : String) (hs : s.toList = '.' :: port.toList)
    (hp : '.' ∉ port.toList) : parseEdgeEndpoint (id ++ s) = (id, port) := by
  have hsplit : rsplitOnceChar '.' (id ++ s) = some (id, port) := by
    rw [rsplitOnceChar, String.toList_append, hs, Split.rsplitOnce_append hp]
    simp
  rw [parseEdgeEndpoint, hsplit]

/-- An endpoint is its node, or its node, a dot and its port. -/
theorem endpoint_eq (endpoint : String) : endpoint = endpointNode endpoint ∨
    ∃ s port, s.toList = '.' :: port ∧ endpoint = endpointNode endpoint ++ s := by
  unfold endpointNode parseEdgeEndpoint rsplitOnceChar
  cases hsplit : Split.rsplitOnce '.' endpoint.toList with
  | none => exact Or.inl rfl
  | some parts =>
    refine Or.inr ⟨String.ofList ('.' :: parts.2), parts.2, String.toList_ofList, ?_⟩
    rw [← String.toList_inj]
    simpa using Split.eq_of_rsplitOnce hsplit

/-- What the validator reads of an endpoint is in the node, whatever the port. -/
theorem validatedNode_append {s : String} (id : String) (port : List Char)
    (hs : s.toList = '.' :: port) : validatedNode (id ++ s) = validatedNode id := by
  unfold validatedNode splitFirst
  rw [String.toList_append, hs]
  congr 1
  induction id.toList with
  | nil => rfl
  | cons c cs ih =>
    by_cases hc : c = '.'
    · simp [hc]
    · simpa [hc] using ih

/-- A node id without a dot is read as it is. -/
theorem validatedNode_of_no_dot {id : String} (hid : '.' ∉ id.toList) : validatedNode id = id := by
  have htake : id.toList.takeWhile (· ≠ '.') = id.toList := by
    rw [List.takeWhile_eq_self_iff]
    intro c hc
    exact decide_eq_true fun h => hid (h ▸ hc)
  rw [validatedNode, splitFirst, htake, String.ofList_toList]

theorem no_dot_validatedNode (endpoint : String) : '.' ∉ (validatedNode endpoint).toList := by
  rw [validatedNode, splitFirst, String.toList_ofList]
  intro h
  have hne := List.mem_takeWhile_imp h
  simp at hne

/-- The validator reads the same id out of an endpoint and out of its node. -/
theorem validatedNode_endpointNode (endpoint : String) :
    validatedNode (endpointNode endpoint) = validatedNode endpoint := by
  rcases endpoint_eq endpoint with h | ⟨s, port, hs, h⟩
  · rw [← h]
  · conv_rhs => rw [h]
    rw [validatedNode_append _ port hs]

/-! ## The one-edge rule -/

section Rule

variable (policy : PolicyConfig)

/-- The one-edge rule applies to the input: its node is no `client` and no `error-handler`. -/
def PolicyConfig.OneEdge (endpoint : String) : Prop :=
  validatedNode endpoint ∉ policy.idsOfType "client" ∧
    validatedNode endpoint ∉ policy.idsOfType "error-handler"

instance (endpoint : String) : Decidable (policy.OneEdge endpoint) :=
  inferInstanceAs (Decidable (_ ∧ _))

/-- The edges the one-edge rule is about. -/
def PolicyConfig.ruledEdges : List EdgeConfig := policy.edges.filter fun e => policy.OneEdge e.to

/-- The one-edge rule is met where the endpoints it is about differ, from each other and from those
    already seen. -/
theorem inputErrors_eq_nil :
    ∀ (edges : List EdgeConfig) (seen : List String), inputErrors policy edges seen = [] ↔
      (((edges.filter fun e => policy.OneEdge e.to).map (·.to)).Nodup ∧
        ∀ e ∈ edges.filter fun e => policy.OneEdge e.to, e.to ∉ seen) := by
  intro edges
  induction edges with
  | nil => intro seen; simp [inputErrors]
  | cons e edges ih =>
    intro seen
    rw [inputErrors]
    by_cases hrule : policy.OneEdge e.to
    · have hnot : ¬ (validatedNode e.to ∈ policy.idsOfType "client" ∨
          validatedNode e.to ∈ policy.idsOfType "error-handler") := not_or.mpr hrule
      simp only [if_neg hnot]
      by_cases hseen : e.to ∈ seen
      · simp [hseen, hrule]
      · simp only [if_neg hseen]
        rw [ih (e.to :: seen)]
        simp only [List.filter_cons, hrule, decide_true, if_true, List.map_cons, List.nodup_cons,
          List.mem_cons, List.mem_map, not_or]
        constructor
        · rintro ⟨hnodup, hall⟩
          refine ⟨⟨?_, hnodup⟩, ?_⟩
          · rintro ⟨x, hx, hxe⟩
            exact (hall x hx).1 hxe
          · rintro x (rfl | hx)
            · exact hseen
            · exact (hall x hx).2
        · rintro ⟨⟨hfresh, hnodup⟩, hall⟩
          refine ⟨hnodup, fun x hx => ⟨?_, hall x (Or.inr hx)⟩⟩
          intro hxe
          exact hfresh ⟨x, hx, hxe⟩
    · have hexempt : validatedNode e.to ∈ policy.idsOfType "client" ∨
          validatedNode e.to ∈ policy.idsOfType "error-handler" := by
        by_contra h
        exact hrule (not_or.mp h)
      simp only [if_pos hexempt]
      rw [ih seen]
      simp [hrule]

end Rule

theorem validatePolicy_eq_ok (policy : PolicyConfig) : validatePolicy policy = .ok () ↔
    listenerErrors policy = [] ∧ clientErrors policy = [] ∧ edgeErrors policy = [] ∧
      inputErrors policy policy.edges [] = [] ∧ orphanErrors policy = [] ∧
      handlerErrors policy = [] := by
  unfold validatePolicy
  dsimp only
  split
  · rename_i h
    simpa [List.append_eq_nil_iff, and_assoc] using h
  · rename_i h
    simpa [List.append_eq_nil_iff, and_assoc] using h

end Featherbit
