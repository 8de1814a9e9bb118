/-
  REPLAYING A TRACE: does the JSON of a snapshot give the context back?

  1. Reading back what a snapshot is written as loses nothing of it: the nested fields are flattened
     in key order (`normalizeContext_toValue`), and the flat ones read one by one (`input_read`).
     So a snapshot replays as what it shows (`materializeContext_toValue`).
  2. With body capture on, a body that is neither clipped nor binary is shown as its text, unless
     it is byte for byte the one of the step before: then only the flag `unchanged` is, and it
     replays as an empty body (`captureBody_whole`).
  3. Hence a step replays exactly if it left neither body as it was, empty ones apart
     (`trace_replays_iff`); the initial snapshot, with nothing before it, always does.
-/
import Featherbit.Debug.Sandbox
import Featherbit.Graph.Tracing

namespace Featherbit

/-! ## A snapshot as JSON -/

/-- A map as an object. -/
def mapValue {α : Type} (write : α → Json) (m : HashMap α) : Json :=
  .object (m.toList.map fun field => (field.1, write field.2))

def stringsValue (values : List String) : Json := .array (values.map .string)

/-- A field that is left out when it has no value. -/
def optionalField (key : String) (value : Option Json) : List (String × Json) :=
  (value.map fun v => (key, v)).toList

/-- A flag that is left out when it is `false`. -/
def flagField (key : String) (b : Bool) : List (String × Json) :=
  if b then [(key, .bool true)] else []

def BodyCapture.toValue (body : BodyCapture) : Json :=
  .object (flagField "binary" body.binary ++
    ("len", .number (.posInt (.ofNat body.len))) ::
      (optionalField "text" (body.text.map .string) ++ flagField "truncated" body.truncated ++
        flagField "unchanged" body.unchanged))

def RequestSnapshot.toValue (request : RequestSnapshot) : Json :=
  .object [("body", request.body.toValue), ("headers", mapValue stringsValue request.headers),
    ("host", .string request.host), ("method", .string request.method),
    ("path", .string request.path), ("query_params", mapValue stringsValue request.queryParams),
    ("scheme", .string request.scheme)]

def ResponseSnapshot.toValue (response : ResponseSnapshot) : Json :=
  .object [("body", response.body.toValue), ("headers", mapValue stringsValue response.headers),
    ("status_code", .number (.posInt response.statusCode.toUInt64))]

def GatewayError.toValue (err : GatewayError) : Json :=
  .object [("code", .string err.code), ("message", .string err.message),
    ("metadata", mapValue id err.metadata), ("node_id", .string err.nodeId)]

/-- `serde_json::to_value(snapshot)`. -/
def ContextSnapshot.toValue (snapshot : ContextSnapshot) : Json :=
  .object [("errors", .array (snapshot.errors.map GatewayError.toValue)),
    ("message", mapValue id snapshot.message), ("request", snapshot.request.toValue),
    ("response", snapshot.response.toValue)]

/-! ## The round trip of a snapshot -/

/-- What a body object has to replay is its text. -/
theorem bodyText_toValue (body : BodyCapture) : bodyText body.toValue = body.text := by
  obtain ⟨len, text, truncated, unchanged, binary⟩ := body
  cases text <;> cases truncated <;> cases unchanged <;> cases binary <;> rfl

/-- The flat fields a response becomes. -/
def ResponseSnapshot.flatFields (response : ResponseSnapshot) : List (String × Json) :=
  optionalField "body" (response.body.text.map .string) ++
    [("headers", mapValue stringsValue response.headers),
      ("status_code", .number (.posInt response.statusCode.toUInt64))]

/-- The flat fields a snapshot becomes. -/
def ContextSnapshot.flatFields (snapshot : ContextSnapshot) : List (String × Json) :=
  optionalField "body" (snapshot.request.body.text.map .string) ++
    [("headers", mapValue stringsValue snapshot.request.headers),
      ("host", .string snapshot.request.host), ("message", mapValue id snapshot.message),
      ("method", .string snapshot.request.method), ("path", .string snapshot.request.path),
      ("query_params", mapValue stringsValue snapshot.request.queryParams),
      ("response", .object snapshot.response.flatFields),
      ("scheme", .string snapshot.request.scheme)]

theorem liftField_of_ne {key : String} (h : key ≠ "body") (obj : List (String × Json))
    (value : Json) : liftField obj (key, value) = Json.insertField key value obj := by
  rw [liftField, if_neg h]

/-- The body of a request is lifted as its text, if it has one. -/
theorem liftField_body (obj : List (String × Json)) (body : BodyCapture) :
    liftField obj ("body", body.toValue) =
      (body.text.map fun text => Json.insertField "body" (.string text) obj).getD obj := by
  rw [liftField, if_pos rfl, bodyText_toValue]
  cases body.text with
  | none => rfl
  | some text => rfl

theorem liftRequest_toValue (request : RequestSnapshot) (errors message response : Json) :
    liftRequest [("errors", errors), ("message", message), ("request", request.toValue),
        ("response", response)] =
      optionalField "body" (request.body.text.map .string) ++
        [("errors", errors), ("headers", mapValue stringsValue request.headers),
          ("host", .string request.host), ("message", message),
          ("method", .string request.method), ("path", .string request.path),
          ("query_params", mapValue stringsValue request.queryParams),
          ("response", response), ("scheme", .string request.scheme)] := by
  show [("headers", mapValue stringsValue request.headers), ("host", .string request.host),
    ("method", .string request.method), ("path", .string request.path),
    ("query_params", mapValue stringsValue request.queryParams),
    ("scheme", .string request.scheme)].foldl liftField
      (liftField [("errors", errors), ("message", message), ("response", response)]
        ("body", request.body.toValue)) = _
  rw [liftField_body]
  -- every key finds its place by comparison with the keys that are already there
  cases request.body.text with
  | none =>
    simp (disch := decide +kernel) only [Option.map_none, Option.getD_none, List.foldl_cons,
      List.foldl_nil, liftField_of_ne, Json.insertField_of_lt, Json.insertField_of_gt,
      Json.insertField_nil]
    rfl
  | some text =>
    simp (disch := decide +kernel) only [Option.map_some, Option.getD_some, List.foldl_cons,
      List.foldl_nil, liftField_of_ne, Json.insertField_of_lt, Json.insertField_of_gt,
      Json.insertField_nil]
    rfl

theorem flattenResponse_toValue {obj : List (String × Json)} {response : ResponseSnapshot}
    (h : obj.lookup "response" = some response.toValue) :
    flattenResponse obj = Json.insertField "response" (.object response.flatFields) obj := by
  have hlookup : [("body", response.body.toValue),
      ("headers", mapValue stringsValue response.headers),
      ("status_code", Json.number (.posInt response.statusCode.toUInt64))].lookup "body" =
      some response.body.toValue := rfl
  unfold flattenResponse ResponseSnapshot.flatFields
  rw [h]
  simp only [ResponseSnapshot.toValue, hlookup, bodyText_toValue]
  cases response.body.text with
  | none => rfl
  | some text => simp only [Json.insertField_self]; rfl

theorem normalizeContext_toValue (snapshot : ContextSnapshot) :
    normalizeContext snapshot.toValue = .object snapshot.flatFields := by
  have hlift := liftRequest_toValue snapshot.request
    (.array (snapshot.errors.map GatewayError.toValue)) (mapValue id snapshot.message)
    snapshot.response.toValue
  show Json.object (Json.removeField "errors" (flattenResponse (liftRequest _))) = _
  rw [hlift, ContextSnapshot.flatFields]
  cases snapshot.request.body.text with
  | none =>
    rw [flattenResponse_toValue rfl]
    simp (disch := decide +kernel) only [optionalField, Option.map_none, Option.toList_none,
      List.nil_append, Json.insertField_of_gt, Json.insertField_self]
    rfl
  | some text =>
    rw [flattenResponse_toValue rfl]
    simp (disch := decide +kernel) only [optionalField, Option.map_some, Option.toList_some,
      List.cons_append, List.nil_append, Json.insertField_of_gt, Json.insertField_self]
    rfl

theorem readStringOrList_strings (values : List String) :
    readStringOrList (stringsValue values) = .ok (.many values) := by
  have hvec : Serde.readVec Serde.readString (stringsValue values) = .ok values :=
    @Serde.readVec_array _ Serde.readString Json.string (fun _ => rfl) values
  have hstring : Serde.readString (stringsValue values) =
      .error (.invalidType (stringsValue values)) := rfl
  simp only [readStringOrList, hstring, hvec]

/-- Headers and query parameters read back as lists. -/
theorem readMap_strings (m : HashMap (List String)) :
    Serde.readMap readStringOrList (mapValue stringsValue m) = .ok (m.map fun _ v => .many v) :=
  Serde.readMap_object readStringOrList_strings m

theorem readMap_values (m : HashMap Json) : Serde.readMap .ok (mapValue id m) = .ok m := by
  have hmap : m.map (fun _ a => id a) = m := by
    refine Std.ExtTreeMap.ext_getElem? fun k => ?_
    rw [Std.ExtTreeMap.getElem?_map]
    cases m[k]? <;> rfl
  rw [mapValue, Serde.readMap_object (fun _ => rfl) m, hmap]

theorem readU16_toUInt64 (n : UInt16) :
    Serde.readU16 (.number (.posInt n.toUInt64)) = .ok n := by
  have hlt : n.toUInt64.toNat < 2 ^ 16 := by
    rw [UInt16.toNat_toUInt64]
    exact n.toNat_lt
  show (if n.toUInt64.toNat < 2 ^ 16 then Except.ok n.toUInt64.toUInt16 else _) = _
  rw [if_pos hlt, UInt16.toUInt16_toUInt64]

theorem response_read (response : ResponseSnapshot) :
    ResponseInput.read (.object response.flatFields) =
      .ok
        { statusCode := some response.statusCode
          headers := response.headers.map fun _ v => .many v
          body := response.body.text } := by
  have hheaders := readMap_strings response.headers
  have hstatus := readU16_toUInt64 response.statusCode
  show (response.flatFields).foldlM ResponseInput.setField {} = _
  unfold ResponseSnapshot.flatFields
  cases response.body.text with
  | none =>
    simp only [optionalField, Option.map_none, Option.toList_none, List.nil_append,
      List.foldlM_cons, List.foldlM_nil, ResponseInput.setField, hheaders, Serde.readOption, hstatus]
    rfl
  | some text =>
    simp only [optionalField, Option.map_some, Option.toList_some, List.cons_append, List.nil_append,
      List.foldlM_cons, List.foldlM_nil, ResponseInput.setField, hheaders, Serde.readOption, hstatus]
    rfl

/-- What the flat fields of a snapshot read as. -/
def ContextSnapshot.input (snapshot : ContextSnapshot) : SandboxContextInput where
  method := some snapshot.request.method
  path := some snapshot.request.path
  host := some snapshot.request.host
  scheme := some snapshot.request.scheme
  headers := snapshot.request.headers.map fun _ v => .many v
  queryParams := snapshot.request.queryParams.map fun _ v => .many v
  body := snapshot.request.body.text
  message := snapshot.message
  response := some
    { statusCode := some snapshot.response.statusCode
      headers := snapshot.response.headers.map fun _ v => .many v
      body := snapshot.response.body.text }

theorem input_read (snapshot : ContextSnapshot) :
    SandboxContextInput.read (.object snapshot.flatFields) = .ok snapshot.input := by
  have hheaders := readMap_strings snapshot.request.headers
  have hquery := readMap_strings snapshot.request.queryParams
  have hmessage := readMap_values snapshot.message
  have hresponse := response_read snapshot.response
  show (snapshot.flatFields).foldlM SandboxContextInput.setField {} = _
  unfold ContextSnapshot.flatFields ContextSnapshot.input
  cases snapshot.request.body.text with
  | none =>
    simp only [optionalField, Option.map_none, Option.toList_none, List.nil_append,
      List.foldlM_cons, List.foldlM_nil, SandboxContextInput.setField, Serde.readOption,
      Serde.readString, hheaders, hquery, hmessage, hresponse]
    rfl
  | some text =>
    simp only [optionalField, Option.map_some, Option.toList_some, List.cons_append, List.nil_append,
      List.foldlM_cons, List.foldlM_nil, SandboxContextInput.setField, Serde.readOption,
      Serde.readString, hheaders, hquery, hmessage, hresponse]
    rfl

/-- The context a snapshot replays as. -/
def ContextSnapshot.replayed (snapshot : ContextSnapshot) : Context where
  request :=
    { method := snapshot.request.method
      path := snapshot.request.path
      host := snapshot.request.host
      scheme := snapshot.request.scheme
      headers := snapshot.request.headers
      queryParams := snapshot.request.queryParams
      body := (snapshot.request.body.text.map asBytes).getD []
      remoteAddr := "127.0.0.1:0"
      protocol := .http1 }
  response :=
    { statusCode := snapshot.response.statusCode
      headers := snapshot.response.headers
      body := (snapshot.response.body.text.map asBytes).getD [] }
  message := snapshot.message
  errors := []

/-- Lists of values come through the input's maps as they were. -/
theorem map_intoVec (m : HashMap (List String)) :
    ((m.map fun _ v => StringOrList.many v).map fun _ v => v.intoVec) = m := by
  refine Std.ExtTreeMap.ext_getElem? fun k => ?_
  rw [Std.ExtTreeMap.getElem?_map, Std.ExtTreeMap.getElem?_map]
  cases m[k]? <;> rfl

/-- **The JSON of a snapshot is read back whole**: what a snapshot shows is what it replays as. -/
theorem materializeContext_toValue [Base64] [SerdeText] (snapshot : ContextSnapshot) :
    materializeContext snapshot.toValue = .ok snapshot.replayed := by
  have hread := input_read snapshot
  unfold materializeContext
  rw [normalizeContext_toValue]
  simp only [hread]
  unfold SandboxContextInput.intoContext ContextSnapshot.replayed ContextSnapshot.input
  simp only [Option.getD_some, map_intoVec]
  cases snapshot.request.body.text with
  | none => rfl
  | some text => rfl

/-! ## What a body shows -/

/-- Neither clipped nor binary. -/
def BodyCapture.Whole (body : BodyCapture) : Prop := body.truncated = false ∧ body.binary = false

/-- A body that is the previous step's is not shown again. -/
theorem captureBody_unchanged (body : Bytes) {opts : CaptureOptions}
    (hcapture : opts.captureBodies = true) :
    captureBody body (some body) opts = { len := body.length, unchanged := true } := by
  simp only [captureBody, hcapture, if_true, Bool.true_eq_false, if_false]

/-- Another text within the limit is shown. -/
theorem captureBody_text {text : String} {prev : Option Bytes} {opts : CaptureOptions}
    (hcapture : opts.captureBodies = true) (hprev : prev ≠ some (asBytes text))
    (hshort : (asBytes text).length ≤ opts.maxBodyBytes) :
    captureBody (asBytes text) prev opts =
      { len := (asBytes text).length, text := some text } := by
  have hlong : ¬ (asBytes text).length > opts.maxBodyBytes := by omega
  simp only [captureBody, hcapture, hprev, hlong, decide_false, Bool.true_eq_false,
    Bool.false_eq_true, if_false, fromUtf8_asBytes]

/-- A body captured whole replays as it was, unless it is the previous step's: then its text is
    left out, and it replays as an empty one. -/
theorem captureBody_whole {body : Bytes} {prev : Option Bytes} {opts : CaptureOptions}
    (hcapture : opts.captureBodies = true) (hwhole : (captureBody body prev opts).Whole) :
    ((captureBody body prev opts).text.map asBytes).getD [] = if prev = some body then [] else body := by
  by_cases hprev : prev = some body
  · rw [if_pos hprev, hprev, captureBody_unchanged body hcapture]
    rfl
  · rw [if_neg hprev]
    unfold captureBody BodyCapture.Whole at hwhole
    unfold captureBody
    simp only [hcapture, hprev, Bool.true_eq_false, if_false] at hwhole ⊢
    by_cases hlong : body.length > opts.maxBodyBytes
    · -- every way to show a long body says that it is clipped
      exfalso
      simp only [hlong, decide_true, if_true] at hwhole
      split at hwhole
      · exact Bool.noConfusion hwhole.1
      · split at hwhole
        · exact Bool.noConfusion hwhole.1
        · exact Bool.noConfusion hwhole.1
    · simp only [hlong, decide_false, Bool.false_eq_true, if_false] at hwhole ⊢
      cases htext : fromUtf8 body with
      | some s => exact (fromUtf8_eq_some.mp htext).symm
      | none =>
        -- cut inside a character, or binary
        exfalso
        rw [htext] at hwhole
        simp only at hwhole
        split at hwhole
        · exact Bool.noConfusion hwhole.1
        · exact Bool.noConfusion hwhole.2
theorem body_replayed_iff {body : Bytes} {prev : Option Bytes} {opts : CaptureOptions}
    (hcapture : opts.captureBodies = true) (hwhole : (captureBody body prev opts).Whole) :
    ((captureBody body prev opts).text.map asBytes).getD [] = body ↔
      (prev = some body → body = []) := by
  rw [captureBody_whole hcapture hwhole]
  by_cases hprev : prev = some body
  · rw [if_pos hprev]
    exact ⟨fun h _ => h.symm, fun h => (h hprev).symm⟩
  · rw [if_neg hprev]
    exact ⟨fun _ h => absurd h hprev, fun _ => rfl⟩

/-! ## When a snapshot replays -/

/-- The contexts agree in the request a client could have sent, the response and the message. -/
structure SameExchange (c ctx : Context) : Prop where
  method : c.request.method = ctx.request.method
  path : c.request.path = ctx.request.path
  host : c.request.host = ctx.request.host
  scheme : c.request.scheme = ctx.request.scheme
  headers : c.request.headers = ctx.request.headers
  queryParams : c.request.queryParams = ctx.request.queryParams
  body : c.request.body = ctx.request.body
  response : c.response = ctx.response
  message : c.message = ctx.message

/-- The JSON of the snapshot is read back as the context. -/
def Replays [Base64] [SerdeText] (snapshot : ContextSnapshot) (ctx : Context) : Prop :=
  ∃ c, materializeContext snapshot.toValue = .ok c ∧ SameExchange c ctx

/-- The context has no value that the policy redacts. -/
structure NothingSecret [CaseMapping] (policy : RedactionPolicy) (ctx : Context) : Prop where
  requestHeaders : ∀ (name : String) (values : List String),
    ctx.request.headers[name]? = some values → policy.headerIsSecret name = true → values = []
  queryParams : ∀ (name : String) (values : List String),
    ctx.request.queryParams[name]? = some values → policy.queryIsSecret name = true → values = []
  responseHeaders : ∀ (name : String) (values : List String),
    ctx.response.headers[name]? = some values → policy.headerIsSecret name = true → values = []
  message : ∀ key ∈ ctx.message, policy.messageIsSecret key = false

/-- Both bodies of the snapshot are neither clipped nor binary. -/
structure ContextSnapshot.Whole (snapshot : ContextSnapshot) : Prop where
  request : snapshot.request.body.Whole
  response : snapshot.response.body.Whole

theorem redactMap_eq_self {m : HashMap (List String)} {isSecret : String → Bool}
    (h : ∀ name values, m[name]? = some values → isSecret name = true → values = []) :
    redactMap m isSecret = m := by
  refine Std.ExtTreeMap.ext_getElem? fun name => ?_
  rw [redactMap, Std.ExtTreeMap.getElem?_map]
  cases hname : m[name]? with
  | none => rfl
  | some values =>
    rw [Option.map_some]
    cases hsecret : isSecret name with
    | false => rfl
    | true =>
      obtain rfl := h name values hname hsecret
      rfl

section Snapshots

variable [CaseMapping] [Base64] [SerdeText]

/-- **When a snapshot replays**: exactly if neither body is left out for being the same as
    before, empty ones apart. -/
theorem replays_capture_iff {ctx : Context} {opts : CaptureOptions} {prev : PreviousBodies}
    (hcapture : opts.captureBodies = true) (hsecret : NothingSecret opts.redaction ctx)
    (hwhole : (ContextSnapshot.capture ctx opts prev).Whole) :
    Replays (ContextSnapshot.capture ctx opts prev) ctx ↔
      (prev.request = some ctx.request.body → ctx.request.body = []) ∧
        (prev.response = some ctx.response.body → ctx.response.body = []) := by
  have hmessage : (ContextSnapshot.capture ctx opts prev).message = ctx.message := by
    refine Std.ExtTreeMap.ext_getElem? fun key => ?_
    show (ctx.message.map fun k v =>
      if opts.redaction.messageIsSecret k then .string REDACTED else v)[key]? = _
    rw [Std.ExtTreeMap.getElem?_map]
    cases hkey : ctx.message[key]? with
    | none => rfl
    | some v =>
      have hmem : key ∈ ctx.message := by
        rw [Std.ExtTreeMap.mem_iff_isSome_getElem?, hkey]
        rfl
      rw [Option.map_some, if_neg (by rw [hsecret.message key hmem]; exact Bool.false_ne_true)]
  rw [← body_replayed_iff hcapture hwhole.request, ← body_replayed_iff hcapture hwhole.response]
  constructor
  · rintro ⟨c, hc, hsame⟩
    rw [materializeContext_toValue] at hc
    obtain rfl := Except.ok.inj hc
    exact ⟨hsame.body, congrArg GatewayResponse.body hsame.response⟩
  · rintro ⟨hrequest, hresponse⟩
    have hheaders : (ContextSnapshot.capture ctx opts prev).response.headers =
        ctx.response.headers := redactMap_eq_self hsecret.responseHeaders
    have hbody : ((ContextSnapshot.capture ctx opts prev).response.body.text.map asBytes).getD [] =
        ctx.response.body := hresponse
    refine ⟨_, materializeContext_toValue _, rfl, rfl, rfl, rfl,
      redactMap_eq_self hsecret.requestHeaders, redactMap_eq_self hsecret.queryParams, hrequest,
      ?_, hmessage⟩
    show (⟨_, _, _⟩ : GatewayResponse) = ctx.response
    rw [hheaders, hbody]
    rfl

/-! ## When a trace replays -/

omit [CaseMapping] [Base64] [SerdeText] in
/-- No body was left as it was by the step from `before` to `after`, empty ones apart. -/
def BodiesChanged (before after : Context) : Prop :=
  (before.request.body = after.request.body → after.request.body = []) ∧
    (before.response.body = after.response.body → after.response.body = [])

/-- The steps of a recording, each with the context before and the one after it: `before` is the
    context before the first. -/
theorem step_replays_iff {opts : CaptureOptions} (hcapture : opts.captureBodies = true) :
    ∀ (visits : List Visit) (before : Context) (index i : Nat) (v : Visit) (step : NodeStep),
      visits[i]? = some v →
      (stepsOf opts (PreviousBodies.of before) index visits)[i]? = some step →
      NothingSecret opts.redaction v.after → step.after.Whole →
      ∃ prev, (before :: visits.map (·.after))[i]? = some prev ∧
        (Replays step.after v.after ↔ BodiesChanged prev v.after) := by
  intro visits
  induction visits with
  | nil => intro before index i v step hv; cases hv
  | cons first visits ih =>
    intro before index i v step hv hstep hsecret hwhole
    cases i with
    | zero =>
      -- the recorder has seen the bodies of the context before
      obtain rfl := Option.some.inj hv
      obtain rfl := Option.some.inj hstep
      refine ⟨before, rfl, (replays_capture_iff hcapture hsecret hwhole).trans ?_⟩
      simp only [BodiesChanged, PreviousBodies.of, Option.some.injEq]
    | succ i => exact ih first.after (index + 1) i v step hv hstep hsecret hwhole

/-- **When a recorded trace replays.**  Taken with body capture on, and where nothing in a snapshot
    was redacted, clipped or binary: the initial snapshot replays; that of a step replays exactly
    if the step left neither body as it was, empty ones apart. -/
theorem trace_replays_iff {σ : Type} {g : CompiledGraph σ} {opts : CaptureOptions}
    (hcapture : opts.captureBodies = true) {ctx c : Context} {w w' : σ} {visits : List Visit}
    (hwalk : g.Walk g.entryNodeId ctx w visits c w') {fuel : Nat} (hfuel : visits.length ≤ fuel)
    (maxSteps : Nat) :
    ∃ r, g.executeTraced fuel ctx (TraceRecorder.new ctx opts maxSteps) w = some (c, r, w') ∧
      (NothingSecret opts.redaction ctx → r.initial.Whole → Replays r.initial ctx) ∧
      ∀ (i : Nat) (v : Visit) (step : NodeStep),
        visits[i]? = some v → r.steps[i]? = some step →
        NothingSecret opts.redaction v.after → step.after.Whole →
        ∃ before, (ctx :: visits.map (·.after))[i]? = some before ∧
          (Replays step.after v.after ↔ BodiesChanged before v.after) := by
  refine ⟨_, executeTraced_of_walk hwalk hfuel _, ?_, ?_⟩
  · intro hsecret hwhole
    rw [foldl_record_initial] at hwhole ⊢
    exact (replays_capture_iff hcapture hsecret hwhole).mpr
      ⟨(fun h => by cases h), (fun h => by cases h)⟩
  · intro i v step hv hstep hsecret hwhole
    rw [foldl_record_steps] at hstep
    -- a step that was recorded is among the first `maxSteps`
    have htake : ((stepsOf opts (PreviousBodies.of ctx) 0 visits).take (maxSteps - 0))[i]? =
        some step := by
      rw [← stepsOf_take]
      exact hstep
    rw [List.getElem?_take] at htake
    split at htake
    · exact step_replays_iff hcapture visits ctx 0 i v step hv htake hsecret hwhole
    · cases htake

end Snapshots

/-! ## A request whose body no node touches -/

/-- A request of this body and no header. -/
def requestWith (body : Bytes) : Context := Context.new { (default : GatewayRequest) with body := body }

/-- The default options, with body capture on. -/
def bodyOptions [CaseMapping] : CaptureOptions := { CaptureOptions.default with captureBodies := true }

section Example

variable [CaseMapping]

theorem nothingSecret_requestWith (policy : RedactionPolicy) (body : Bytes) :
    NothingSecret policy (requestWith body) := by
  refine ⟨?_, ?_, ?_, ?_⟩
  · intro name values h; cases (Std.ExtTreeMap.getElem?_empty.symm.trans h)
  · intro name values h; cases (Std.ExtTreeMap.getElem?_empty.symm.trans h)
  · intro name values h; cases (Std.ExtTreeMap.getElem?_empty.symm.trans h)
  · intro key hkey; exact absurd hkey Std.ExtTreeMap.not_mem_empty

theorem nothingSecret_nodeNotFound {policy : RedactionPolicy} {ctx : Context}
    (h : NothingSecret policy ctx) (id : String) : NothingSecret policy (ctx.nodeNotFound id) :=
  ⟨h.requestHeaders, h.queryParams, h.responseHeaders, h.message⟩

/-- The snapshot after a failed lookup: the request's body is the one before, the response's the
    error text. -/
theorem whole_nodeNotFound (body : Bytes) :
    (ContextSnapshot.capture ((requestWith body).nodeNotFound "client.backup") bodyOptions
      (PreviousBodies.of (requestWith body))).Whole := by
  refine ⟨?_, ?_⟩
  · show (captureBody body (some body) bodyOptions).Whole
    rw [captureBody_unchanged body rfl]
    exact ⟨rfl, rfl⟩
  · show (captureBody (asBytes "Graph error: node 'client.backup' not found") (some [])
      bodyOptions).Whole
    have hshort : (asBytes "Graph error: node 'client.backup' not found").length ≤ 8192 := by decide
    rw [captureBody_text rfl (by decide) hshort]
    exact ⟨rfl, rfl⟩

/-- An empty body that comes first is shown as the empty text. -/
theorem whole_emptyBody : (captureBody [] none bodyOptions).Whole := by
  show (captureBody (asBytes "") none bodyOptions).Whole
  rw [captureBody_text rfl (by decide) (Nat.zero_le _)]
  exact ⟨rfl, rfl⟩

end Example

/-- A request without a body replays at every step of this walk. -/
theorem trace_replays_emptyBody :
    ∃ g : CompiledGraph Unit, ∀ (_ : CaseMapping) (_ : Base64) (_ : SerdeText),
      ∃ r step, g.executeTraced 1 (requestWith []) (TraceRecorder.new (requestWith []) bodyOptions 8)
          () = some ((requestWith []).nodeNotFound "client.backup", r, ()) ∧
        r.steps = [step] ∧ Replays r.initial (requestWith []) ∧
        Replays step.after ((requestWith []).nodeNotFound "client.backup") := by
  obtain ⟨g, -, -, hwalk⟩ := dottedTarget_walk
  refine ⟨g, fun cases base64 serde => ?_⟩
  obtain ⟨r, hrun, hinitial, hsteps⟩ := @trace_replays_iff cases base64 serde Unit g bodyOptions rfl
    _ _ _ _ _ (hwalk (requestWith [])) 1 (Nat.le_refl 1) 8
  obtain rfl := congrArg (fun e => e.2.1) (Option.some.inj
    (hrun.symm.trans (executeTraced_of_walk (hwalk (requestWith [])) (Nat.le_refl 1) _)))
  have hsecret := nothingSecret_requestWith bodyOptions.redaction []
  obtain ⟨before, hbefore, hreplays⟩ := hsteps 0 _ _ rfl rfl (nothingSecret_nodeNotFound hsecret _)
    (whole_nodeNotFound [])
  obtain rfl := Option.some.inj hbefore
  refine ⟨_, _, hrun, rfl, hinitial hsecret ⟨whole_emptyBody, whole_emptyBody⟩,
    hreplays.mpr ⟨fun _ => rfl, fun h => ?_⟩⟩
  exact absurd h (by decide)

/-- A body that no node touches is lost at the first step. -/
theorem untouched_body_lost :
    ∃ g : CompiledGraph Unit, ∀ (_ : CaseMapping) (_ : Base64) (_ : SerdeText),
      ∃ r step, g.executeTraced 1 (requestWith (asBytes "payload"))
          (TraceRecorder.new (requestWith (asBytes "payload")) bodyOptions 8) () =
          some ((requestWith (asBytes "payload")).nodeNotFound "client.backup", r, ()) ∧
        r.steps = [step] ∧ step.after.Whole ∧
        NothingSecret bodyOptions.redaction
          ((requestWith (asBytes "payload")).nodeNotFound "client.backup") ∧
        ¬ Replays step.after ((requestWith (asBytes "payload")).nodeNotFound "client.backup") := by
  obtain ⟨g, -, -, hwalk⟩ := dottedTarget_walk
  refine ⟨g, fun cases base64 serde => ⟨_, _,
    executeTraced_of_walk (hwalk _) (Nat.le_refl 1) _, rfl, whole_nodeNotFound _,
    nothingSecret_nodeNotFound (nothingSecret_requestWith _ _) _, fun h => ?_⟩⟩
  have hlost := (replays_capture_iff rfl
    (nothingSecret_nodeNotFound (nothingSecret_requestWith _ (asBytes "payload")) _)
    (whole_nodeNotFound (asBytes "payload"))).mp h
  exact absurd (hlost.1 rfl) (by decide)

end Featherbit
