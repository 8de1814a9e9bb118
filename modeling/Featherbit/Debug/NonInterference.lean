/-
  REDACTION HIDES THE SECRETS: with body capture off, two runs that differ only in secret values
  leave the same recording.

  * A snapshot of two contexts that differ only in secret values is the same
    (`capture_same`): each place a value enters a snapshot is a field of `SameButSecrets`.
  * What a step records besides the snapshot is the node and what came of it.  Two runs that stand
    at the same node go on to the same next one, since the errors in the context tell whether the
    node failed (`failed_same`): plugins leave the errors to the engine.
  * So two walks go through the same nodes (`visits_same`), and a recorder is told the same of
    both (`foldl_record_same`).
-/
import Featherbit.Graph.Tracing

namespace Featherbit

section Agreement

variable [CaseMapping]

/-! ## Contexts that differ only in secrets -/

/-- One of the listed names, in any case of its letters. -/
def MatchesName (names : List String) (name : String) : Prop :=
  ∃ n ∈ names, toLowercase n = toLowercase name

/-- A `context.message` key that holds a secret: one of the listed keys, or one with a marked
    substring in it. -/
def MatchesMessageKey (keys : List String) (key : String) : Prop :=
  MatchesName keys key ∨
    ∃ s ∈ defaultRedactMessageSubstrings, s.toList <:+: (toLowercase key).toList

omit [CaseMapping] in
/-- The two maps have the same keys and, but for the secret ones, the same under each; under a
    secret key only the shape of what is there is the same. -/
def AgreeBut {α β : Type} (isSecret : String → Prop) (shape : α → β) (m m' : HashMap α) : Prop :=
  ∀ k, m[k]? = m'[k]? ∨ isSecret k ∧ m[k]?.map shape = m'[k]?.map shape

/-- The secret names an operator configures, besides the built-in ones. -/
structure SecretNames where
  headers : List String
  queryParams : List String
  messageKeys : List String

namespace SecretNames

variable (names : SecretNames)

def IsHeader (name : String) : Prop := MatchesName (defaultRedactHeaders ++ names.headers) name

def IsQuery (name : String) : Prop := MatchesName (defaultRedactQuery ++ names.queryParams) name

/-- The options of a capture without bodies. -/
def options (maxBodyBytes : Nat) : CaptureOptions where
  captureBodies := false
  maxBodyBytes := maxBodyBytes
  redaction := RedactionPolicy.new names.headers names.queryParams names.messageKeys

end SecretNames

/-- The contexts differ at most in values under secret names, of which they have the same number.
    Of the bodies only the length has to agree. -/
structure SameButSecrets (names : SecretNames) (ctx ctx' : Context) : Prop where
  method : ctx.request.method = ctx'.request.method
  path : ctx.request.path = ctx'.request.path
  host : ctx.request.host = ctx'.request.host
  scheme : ctx.request.scheme = ctx'.request.scheme
  requestHeaders :
    AgreeBut names.IsHeader List.length ctx.request.headers ctx'.request.headers
  queryParams :
    AgreeBut names.IsQuery List.length ctx.request.queryParams ctx'.request.queryParams
  requestBody : ctx.request.body.length = ctx'.request.body.length
  statusCode : ctx.response.statusCode = ctx'.response.statusCode
  responseHeaders :
    AgreeBut names.IsHeader List.length ctx.response.headers ctx'.response.headers
  responseBody : ctx.response.body.length = ctx'.response.body.length
  message :
    AgreeBut (MatchesMessageKey names.messageKeys) (fun _ => ()) ctx.message ctx'.message
  errors : ctx.errors = ctx'.errors

/-! ## What the policy takes for a secret -/

omit [CaseMapping] in
/-- A name written in ASCII without capitals. -/
def isLowerAscii (name : String) : Bool :=
  name.toList.all fun c => decide (c.toNat < 128) && decide (c.toLower = c)

theorem toLowercase_eq_self {name : String} (h : isLowerAscii name = true) :
    toLowercase name = name := by
  have hchar : ∀ c ∈ name.toList, c.toNat < 128 ∧ c.toLower = c := by
    intro c hc
    simpa using List.all_eq_true.mp h c hc
  rw [CaseMapping.toLowercase_ascii name fun c hc => (hchar c hc).1,
    List.map_congr_left fun c hc => (hchar c hc).2, List.map_id', String.ofList_toList]

theorem toLowercase_defaultRedactHeaders :
    ∀ name ∈ defaultRedactHeaders, toLowercase name = name :=
  fun name hmem =>
    toLowercase_eq_self (List.all_eq_true.mp (by decide : defaultRedactHeaders.all isLowerAscii)
      name hmem)

theorem toLowercase_defaultRedactQuery :
    ∀ name ∈ defaultRedactQuery, toLowercase name = name :=
  fun name hmem =>
    toLowercase_eq_self (List.all_eq_true.mp (by decide : defaultRedactQuery.all isLowerAscii)
      name hmem)

/-- A denylist of built-in lower-case names and the lowered configured ones holds every name that
    matches one of them. -/
theorem mem_denylist {builtin extra : List String} (hbuiltin : ∀ n ∈ builtin, toLowercase n = n)
    {name : String} (h : MatchesName (builtin ++ extra) name) :
    toLowercase name ∈ builtin ++ extra.map toLowercase := by
  obtain ⟨n, hmem, heq⟩ := h
  rw [← heq]
  rcases List.mem_append.mp hmem with hn | hn
  · rw [hbuiltin n hn]
    exact List.mem_append_left _ hn
  · exact List.mem_append_right _ (List.mem_map_of_mem hn)

namespace SecretNames

variable {names : SecretNames} {maxBodyBytes : Nat}

theorem IsHeader.isSecret {name : String} (h : names.IsHeader name) :
    (names.options maxBodyBytes).redaction.headerIsSecret name = true :=
  decide_eq_true (mem_denylist toLowercase_defaultRedactHeaders h)

theorem IsQuery.isSecret {name : String} (h : names.IsQuery name) :
    (names.options maxBodyBytes).redaction.queryIsSecret name = true :=
  decide_eq_true (mem_denylist toLowercase_defaultRedactQuery h)

theorem isSecret_of_matchesMessageKey {key : String} (h : MatchesMessageKey names.messageKeys key) :
    (names.options maxBodyBytes).redaction.messageIsSecret key = true := by
  show (decide (toLowercase key ∈ names.messageKeys.map toLowercase) ||
    defaultRedactMessageSubstrings.any
      fun s => decide (s.toList <:+: (toLowercase key).toList)) = true
  rw [Bool.or_eq_true, decide_eq_true_iff, List.any_eq_true]
  rcases h with ⟨n, hn, heq⟩ | ⟨s, hs, hsub⟩
  · rw [← heq]
    exact Or.inl (List.mem_map_of_mem hn)
  · exact Or.inr ⟨s, hs, decide_eq_true hsub⟩

end SecretNames

/-! ## What a snapshot shows -/

omit [CaseMapping] in
/-- A function that sees only the shape of what is under a secret key maps both to the same. -/
theorem map_same {α β γ : Type} {secret : String → Prop} {shape : α → β} {f : String → α → γ}
    (hf : ∀ k, secret k → ∃ g : β → γ, ∀ v, f k v = g (shape v)) {m m' : HashMap α}
    (h : AgreeBut secret shape m m') : m.map f = m'.map f := by
  refine Std.ExtTreeMap.ext_getElem? fun k => ?_
  rw [Std.ExtTreeMap.getElem?_map, Std.ExtTreeMap.getElem?_map]
  rcases h k with heq | ⟨hk, hshape⟩
  · rw [heq]
  · -- under a secret key the result is a function of the shape
    obtain ⟨g, hg⟩ := hf k hk
    have hmap : ∀ o : Option α, o.map (f k) = (o.map shape).map g := by
      intro o
      rw [Option.map_map]
      exact Option.map_congr fun v _ => hg v
    rw [hmap, hmap, hshape]

omit [CaseMapping] in
theorem redactMap_same {secret : String → Prop} {isSecret : String → Bool}
    (hsecret : ∀ k, secret k → isSecret k = true) {m m' : HashMap (List String)}
    (h : AgreeBut secret List.length m m') : redactMap m isSecret = redactMap m' isSecret := by
  refine map_same (fun k hk => ⟨fun n => List.replicate n REDACTED, fun values => ?_⟩) h
  rw [if_pos (hsecret k hk), List.map_const']

variable {names : SecretNames} {maxBodyBytes : Nat}

theorem message_same {m m' : HashMap Json}
    (h : AgreeBut (MatchesMessageKey names.messageKeys) (fun _ => ()) m m') :
    (m.map fun k v =>
        if (names.options maxBodyBytes).redaction.messageIsSecret k then .string REDACTED else v) =
      m'.map fun k v =>
        if (names.options maxBodyBytes).redaction.messageIsSecret k then .string REDACTED
        else v :=
  map_same (fun _ hk => ⟨fun _ => .string REDACTED, fun _ =>
    if_pos (SecretNames.isSecret_of_matchesMessageKey hk)⟩) h

/-- With capture off a body shows its length. -/
theorem captureBody_same {body body' : Bytes} (h : body.length = body'.length)
    (prev prev' : Option Bytes) :
    captureBody body prev (names.options maxBodyBytes) =
      captureBody body' prev' (names.options maxBodyBytes) := by
  show ({ len := body.length } : BodyCapture) = { len := body'.length }
  rw [h]

/-- **A snapshot does not show the secrets.** -/
theorem capture_same {ctx ctx' : Context} (h : SameButSecrets names ctx ctx')
    (prev prev' : PreviousBodies) :
    ContextSnapshot.capture ctx (names.options maxBodyBytes) prev =
      ContextSnapshot.capture ctx' (names.options maxBodyBytes) prev' := by
  have hheader : ∀ k, names.IsHeader k →
      (names.options maxBodyBytes).redaction.headerIsSecret k = true :=
    fun _ hk => hk.isSecret
  have hquery : ∀ k, names.IsQuery k →
      (names.options maxBodyBytes).redaction.queryIsSecret k = true :=
    fun _ hk => hk.isSecret
  unfold ContextSnapshot.capture
  rw [h.method, h.path, h.host, h.scheme, h.statusCode, h.errors,
    redactMap_same hheader h.requestHeaders, redactMap_same hquery h.queryParams,
    redactMap_same hheader h.responseHeaders, message_same h.message,
    captureBody_same h.requestBody prev.request prev'.request,
    captureBody_same h.responseBody prev.response prev'.response]

/-! ## What a recorder is told -/

/-- Two visits a recorder cannot tell apart. -/
structure SameVisit (names : SecretNames) (v v' : Visit) : Prop where
  nodeId : v.nodeId = v'.nodeId
  nodeType : v.nodeType = v'.nodeType
  outcome : v.outcome = v'.outcome
  edge : v.edge = v'.edge
  next : v.next = v'.next
  after : SameButSecrets names v.after v'.after

/-- Two recorders that have kept the same; the bodies they have seen last may differ. -/
structure SameRecording (opts : CaptureOptions) (r r' : TraceRecorder) : Prop where
  left : r.opts = opts
  right : r'.opts = opts
  maxSteps : r.maxSteps = r'.maxSteps
  initial : r.initial = r'.initial
  steps : r.steps = r'.steps
  notes : r.notes = r'.notes
  truncated : r.truncated = r'.truncated

theorem new_same {ctx ctx' : Context} (h : SameButSecrets names ctx ctx') (maxSteps : Nat) :
    SameRecording (names.options maxBodyBytes)
      (TraceRecorder.new ctx (names.options maxBodyBytes) maxSteps)
      (TraceRecorder.new ctx' (names.options maxBodyBytes) maxSteps) :=
  ⟨rfl, rfl, rfl, capture_same h {} {}, rfl, rfl, rfl⟩

/-- Told of two such visits, they still have kept the same. -/
theorem record_same {r r' : TraceRecorder} {v v' : Visit}
    (hr : SameRecording (names.options maxBodyBytes) r r') (hv : SameVisit names v v') :
    SameRecording (names.options maxBodyBytes) (r.record v) (r'.record v') := by
  have hafter : ContextSnapshot.capture v.after r.opts r.prevBodies =
      ContextSnapshot.capture v'.after r'.opts r'.prevBodies := by
    rw [hr.left, hr.right]
    exact capture_same hv.after r.prevBodies r'.prevBodies
  unfold TraceRecorder.record TraceRecorder.recordStep
  dsimp only
  rw [← hr.steps, ← hr.maxSteps, ← hr.truncated, ← hr.notes, ← hafter, ← hv.nodeId,
    ← hv.nodeType, ← hv.outcome, ← hv.edge, ← hv.next]
  split
  · -- both are full
    split
    · exact ⟨hr.left, hr.right, hr.maxSteps, hr.initial, hr.steps, hr.notes, hr.truncated⟩
    · exact ⟨hr.left, hr.right, rfl, hr.initial, rfl, rfl, rfl⟩
  · exact ⟨hr.left, hr.right, rfl, hr.initial, rfl, rfl, rfl⟩

theorem foldl_record_same {visits visits' : List Visit}
    (hvisits : List.Forall₂ (SameVisit names) visits visits') {r r' : TraceRecorder}
    (hr : SameRecording (names.options maxBodyBytes) r r') :
    SameRecording (names.options maxBodyBytes) (visits.foldl TraceRecorder.record r)
      (visits'.foldl TraceRecorder.record r') := by
  induction hvisits generalizing r r' with
  | nil => exact hr
  | cons hv _ ih => exact ih (record_same hr hv)

/-! ## Two walks side by side -/

section Walks

variable {σ : Type} {g : CompiledGraph σ}

omit [CaseMapping] in
/-- The errors after a failed visit: those of before, and its own. -/
theorem failedVisit_errors {node : Plugin σ} (hkeeps : node.KeepsErrors) {id : String}
    {ctx : Context} {w w₁ : σ} {err : PluginExecutionError}
    (hexec : node.execute ctx ∅ w = (.error err, w₁)) :
    (g.failedVisit id node err).after.errors =
      ctx.errors ++ [{ err.error with nodeId := id }] := by
  have hkept : err.context.errors = ctx.errors := by
    have h := hkeeps ctx ∅ w
    rwa [hexec] at h
  rw [← hkept]
  unfold CompiledGraph.failedVisit
  dsimp only
  split
  · rfl
  · rfl

omit [CaseMapping] in
theorem okVisit_errors {node : Plugin σ} (hkeeps : node.KeepsErrors) {id : String}
    {ctx : Context} {w w₁ : σ} {output : PluginOutput}
    (hexec : node.execute ctx ∅ w = (.ok output, w₁)) :
    (g.okVisit id node output).after.errors = ctx.errors := by
  have h := hkeeps ctx ∅ w
  rwa [hexec] at h

/-- Two visits of one node, with the same errors before and contexts that differ only in secrets
    after, went the same way. -/
theorem visit_same (hkeeps : ∀ (id : String) (node : Plugin σ), g.nodes[id]? = some node →
      node.KeepsErrors)
    {id : String} {ctx ctx' : Context} {w w' w₁ w₁' : σ} {v v' : Visit}
    (hv : g.visit id ctx w = (v, w₁)) (hv' : g.visit id ctx' w' = (v', w₁'))
    (herrors : ctx.errors = ctx'.errors) (hafter : SameButSecrets names v.after v'.after) :
    SameVisit names v v' := by
  cases hn : g.nodes[id]? with
  | none =>
    obtain ⟨rfl, -⟩ := Prod.mk.inj (hv.symm.trans (CompiledGraph.visit_missing hn))
    obtain ⟨rfl, -⟩ := Prod.mk.inj (hv'.symm.trans (CompiledGraph.visit_missing hn))
    exact ⟨rfl, rfl, rfl, rfl, rfl, hafter⟩
  | some node =>
    -- both runs execute the node, each in its own context and world
    have hkeep := hkeeps id node hn
    obtain ⟨result, u, hexec⟩ : ∃ result u, node.execute ctx ∅ w = (result, u) := ⟨_, _, rfl⟩
    obtain ⟨result', u', hexec'⟩ : ∃ result u, node.execute ctx' ∅ w' = (result, u) := ⟨_, _, rfl⟩
    have herr := hafter.errors
    cases result with
    | ok output =>
      obtain ⟨rfl, -⟩ := Prod.mk.inj (hv.symm.trans (CompiledGraph.visit_success hn hexec))
      rw [okVisit_errors hkeep hexec] at herr
      cases result' with
      | ok output' =>
        obtain ⟨rfl, -⟩ := Prod.mk.inj (hv'.symm.trans (CompiledGraph.visit_success hn hexec'))
        exact ⟨rfl, rfl, rfl, rfl, rfl, hafter⟩
      | error err' =>
        -- the second run has one error more
        obtain ⟨rfl, -⟩ := Prod.mk.inj (hv'.symm.trans (CompiledGraph.visit_failure hn hexec'))
        rw [failedVisit_errors hkeep hexec', herrors] at herr
        exact absurd herr (by simp)
    | error err =>
      obtain ⟨rfl, -⟩ := Prod.mk.inj (hv.symm.trans (CompiledGraph.visit_failure hn hexec))
      rw [failedVisit_errors hkeep hexec] at herr
      cases result' with
      | ok output' =>
        obtain ⟨rfl, -⟩ := Prod.mk.inj (hv'.symm.trans (CompiledGraph.visit_success hn hexec'))
        rw [okVisit_errors hkeep hexec', herrors] at herr
        exact absurd herr (by simp)
      | error err' =>
        obtain ⟨rfl, -⟩ := Prod.mk.inj (hv'.symm.trans (CompiledGraph.visit_failure hn hexec'))
        rw [failedVisit_errors hkeep hexec', herrors] at herr
        -- both failed: the errors they appended are the last ones of equal lists
        have hlast := List.cons.inj (List.append_cancel_left herr)
        have houtcome : (err.error.code, err.error.message) =
            (err'.error.code, err'.error.message) :=
          congrArg (fun e => (e.code, e.message)) hlast.1
        obtain ⟨hcode, hmessage⟩ := Prod.mk.inj houtcome
        refine ⟨rfl, rfl, ?_, rfl, rfl, hafter⟩
        show StepOutcome.error _ _ = StepOutcome.error _ _
        rw [hcode, hmessage]

/-- Two runs that differ only in secrets at every step visit the same nodes, and to the end. -/
theorem visits_same (hkeeps : ∀ (id : String) (node : Plugin σ), g.nodes[id]? = some node →
      node.KeepsErrors)
    {id : String} {ctx ctx' c c' : Context} {w w' u u' : σ} {visits visits' : List Visit}
    (hwalk : g.Walk id ctx w visits c u) (hwalk' : g.Walk id ctx' w' visits' c' u')
    (herrors : ctx.errors = ctx'.errors)
    (hsteps : ∀ (i : Nat) (v v' : Visit), visits[i]? = some v → visits'[i]? = some v' →
        SameButSecrets names v.after v'.after) :
    List.Forall₂ (SameVisit names) visits visits' := by
  induction hwalk generalizing ctx' w' visits' with
  | last hv hend =>
    cases hwalk' with
    | last hv' hend' =>
      exact .cons (visit_same hkeeps hv hv' herrors (hsteps 0 _ _ rfl rfl)) .nil
    | step hv' hnext' hrest' =>
      have hsame := visit_same hkeeps hv hv' herrors (hsteps 0 _ _ rfl rfl)
      rw [← hsame.next, hend] at hnext'
      cases hnext'
  | step hv hnext _ ih =>
    cases hwalk' with
    | last hv' hend' =>
      have hsame := visit_same hkeeps hv hv' herrors (hsteps 0 _ _ rfl rfl)
      rw [← hsame.next, hnext] at hend'
      cases hend'
    | step hv' hnext' hrest' =>
      have hsame := visit_same hkeeps hv hv' herrors (hsteps 0 _ _ rfl rfl)
      rw [← hsame.next, hnext] at hnext'
      obtain rfl := Option.some.inj hnext'
      exact .cons hsame (ih hrest' hsame.after.errors fun i v v' hi hi' =>
        hsteps (i + 1) v v' hi hi')

/-- **Redaction does not interfere.**  Two runs of a graph with body capture off, whose contexts
    differ only in secret values before the first step and after every one, leave recordings with
    the same initial snapshot, the same steps and the same notes. -/
theorem redaction_noninterfering (hkeeps : ∀ (id : String) (node : Plugin σ),
      g.nodes[id]? = some node → node.KeepsErrors)
    {ctx ctx' c c' : Context} {w w' u u' : σ} {visits visits' : List Visit}
    (hwalk : g.Walk g.entryNodeId ctx w visits c u)
    (hwalk' : g.Walk g.entryNodeId ctx' w' visits' c' u')
    (hinitial : SameButSecrets names ctx ctx')
    (hsteps : ∀ (i : Nat) (v v' : Visit), visits[i]? = some v → visits'[i]? = some v' →
      SameButSecrets names v.after v'.after)
    (maxBodyBytes maxSteps : Nat) {fuel : Nat} (hfuel : visits.length ≤ fuel) :
    ∃ r r',
      g.executeTraced fuel ctx (TraceRecorder.new ctx (names.options maxBodyBytes) maxSteps) w =
        some (c, r, u) ∧
      g.executeTraced fuel ctx' (TraceRecorder.new ctx' (names.options maxBodyBytes) maxSteps) w' =
        some (c', r', u') ∧
      r.initial = r'.initial ∧ r.steps = r'.steps ∧ r.notes = r'.notes := by
  have hvisits := visits_same hkeeps hwalk hwalk' hinitial.errors hsteps
  have hfuel' : visits'.length ≤ fuel := by
    rw [← hvisits.length_eq]
    exact hfuel
  have hsame := foldl_record_same hvisits
    (new_same hinitial maxSteps : SameRecording (names.options maxBodyBytes) _ _)
  exact ⟨_, _, executeTraced_of_walk hwalk hfuel _, executeTraced_of_walk hwalk' hfuel' _,
    hsame.initial, hsame.steps, hsame.notes⟩

end Walks

end Agreement

/-- A request with a bearer token. -/
def bearerContext (token : String) : Context :=
  Context.new
    { (default : GatewayRequest) with
      headers := (∅ : HashMap (List String)).insert "authorization" [token] }

/-- The recording of a request does not depend on its bearer token. -/
theorem redaction_noninterfering_bearer :
    ∃ g : CompiledGraph Unit, ∀ (_ : CaseMapping), ∃ r r',
      g.executeTraced 1 (bearerContext "alice")
          (TraceRecorder.new (bearerContext "alice") ((SecretNames.mk [] [] []).options 8192) 8)
          () = some ((bearerContext "alice").nodeNotFound "client.backup", r, ()) ∧
      g.executeTraced 1 (bearerContext "bob")
          (TraceRecorder.new (bearerContext "bob") ((SecretNames.mk [] [] []).options 8192) 8)
          () = some ((bearerContext "bob").nodeNotFound "client.backup", r', ()) ∧
      r.initial = r'.initial ∧ r.steps = r'.steps ∧ r.notes = r'.notes := by
  obtain ⟨g, -, hkeeps, hwalk⟩ := dottedTarget_walk
  refine ⟨g, fun cases => ?_⟩
  have hheaders : AgreeBut (SecretNames.mk [] [] []).IsHeader List.length
      (bearerContext "alice").request.headers (bearerContext "bob").request.headers := by
    intro k
    show ((∅ : HashMap (List String)).insert "authorization" ["alice"])[k]? =
        ((∅ : HashMap (List String)).insert "authorization" ["bob"])[k]? ∨ _ ∧
      ((∅ : HashMap (List String)).insert "authorization" ["alice"])[k]?.map List.length =
        ((∅ : HashMap (List String)).insert "authorization" ["bob"])[k]?.map List.length
    rw [HashMap.get_insert, HashMap.get_insert]
    by_cases hk : k = "authorization"
    · rw [if_pos hk, if_pos hk, hk]
      exact .inr ⟨⟨"authorization", by decide, rfl⟩, rfl⟩
    · rw [if_neg hk, if_neg hk]
      exact .inl rfl
  have hinitial : SameButSecrets (SecretNames.mk [] [] []) (bearerContext "alice")
      (bearerContext "bob") :=
    ⟨rfl, rfl, rfl, rfl, hheaders, fun _ => .inl rfl, rfl, rfl, fun _ => .inl rfl, rfl,
      fun _ => .inl rfl, rfl⟩
  refine redaction_noninterfering hkeeps (hwalk _) (hwalk _) hinitial ?_ 8192 8 (Nat.le_refl 1)
  rintro (_ | i) v v' hv hv'
  · obtain rfl := Option.some.inj hv
    obtain rfl := Option.some.inj hv'
    exact ⟨rfl, rfl, rfl, rfl, hheaders, fun _ => .inl rfl, rfl, rfl, fun _ => .inl rfl, rfl,
      fun _ => .inl rfl, rfl⟩
  · cases hv

end Featherbit
