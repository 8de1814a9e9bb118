/-
  THE RESPONSE (`handle_request` of `server/listener.rs`, after the walk of the graph): the final
  context becomes an HTTP response, or the `unwrap` on the builder fails.

  The builder takes a status from 100 to 999 and the header names and values that the `http` crate
  takes; a node may leave any status and any headers (`status_42_panics`).

  1. `respond_isSome`: the response is built exactly when it is `Sendable`, by induction on the
     fields that are added.
  2. `sendable_of_run`: nodes that keep the response sendable make every walk end with one.
-/
import Featherbit.Graph.Tracing
import Featherbit.Plugins.Script
import Featherbit.Server.Listener

namespace Featherbit

/-- Letters, digits and dashes, as in `content-type` or a UUID. -/
def isTokenChar (c : Char) : Bool := c.isAlphanum || c == '-'

/-- Visible ASCII and the blank. -/
def isVisible (c : Char) : Bool := 32 ≤ c.toNat && c.toNat < 127

/-- The `http` crate, as far as a response is built with it. -/
class HttpTypes where
  /-- `StatusCode::from_u16` takes it -/
  statusCode : UInt16 → Bool
  statusCode_iff : ∀ s, statusCode s = true ↔ 100 ≤ s.toNat ∧ s.toNat < 1000
  /-- `HeaderName::try_from` -/
  headerName : String → Option String
  headerName_token : ∀ s, s ≠ "" → s.length < 2 ^ 15 → s.toList.all isTokenChar →
    (headerName s).isSome
  /-- `HeaderValue::try_from` -/
  headerValue : String → Option Bytes
  headerValue_visible : ∀ s, s.toList.all isVisible → (headerValue s).isSome
  /-- a header map that takes no further value (`MaxSizeReached`) -/
  full : List (String × Bytes) → Bool
  full_few : ∀ headers, headers.length < 1024 → full headers = false

/-- The response that is sent. -/
structure HttpResponse where
  status : UInt16
  headers : List (String × Bytes)
  body : Bytes

section Response

variable [HttpTypes]

open HttpTypes

/-- `builder.header(key, value)`; `none` is a builder that holds an error. -/
def addHeader (builder : Option HttpResponse) (field : String × String) : Option HttpResponse := do
  let response ← builder
  let name ← headerName field.1
  let value ← headerValue field.2
  if full response.headers then none
  else some { response with headers := response.headers ++ [(name, value)] }

/-- The headers of a response, one value at a time. -/
def headerFields (headers : HashMap (List String)) : List (String × String) :=
  headers.toList.flatMap fun entry => entry.2.map fun value => (entry.1, value)

/-- The header that names the trace. -/
def traceFields (traceId : Option String) : List (String × String) :=
  traceId.toList.map fun id => ("x-featherbit-trace-id", id)

/-- What a final context is sent as; `none` where `unwrap` meets an error. -/
def respond (ctx : Context) (traceId : Option String) : Option HttpResponse :=
  let status := if ctx.response.statusCode = 0 then 200 else ctx.response.statusCode
  let builder :=
    if statusCode status then some { status := status, headers := [], body := [] } else none
  let builder := (headerFields ctx.response.headers).foldl addHeader builder
  let builder := (traceFields traceId).foldl addHeader builder
  builder.map fun response => { response with body := ctx.response.body }

/-! ## When it is built -/

/-- Every field that is sent. -/
def sentFields (response : GatewayResponse) (traceId : Option String) : List (String × String) :=
  headerFields response.headers ++ traceFields traceId

/-- The header map after these fields. -/
def headerMap (fields : List (String × String)) : List (String × Bytes) :=
  fields.filterMap fun field => (headerName field.1).bind fun name =>
    (headerValue field.2).map fun value => (name, value)

/-- The `http` crate takes the status, every name, every value, and as many of them. -/
structure Sendable (traceId : Option String) (response : GatewayResponse) : Prop where
  status : response.statusCode = 0 ∨
    100 ≤ response.statusCode.toNat ∧ response.statusCode.toNat < 1000
  fields : ∀ field ∈ sentFields response traceId,
    (headerName field.1).isSome ∧ (headerValue field.2).isSome
  room : ∀ before field after, sentFields response traceId = before ++ field :: after →
    full (headerMap before) = false

theorem foldl_addHeader_none (fields : List (String × String)) :
    fields.foldl addHeader none = none := by
  induction fields with
  | nil => rfl
  | cons field fields ih => exact ih

theorem headerMap_append (l l' : List (String × String)) :
    headerMap (l ++ l') = headerMap l ++ headerMap l' := List.filterMap_append

/-- Fields are added as long as each is taken and there is room. -/
theorem foldl_addHeader_isSome (fields before : List (String × String)) (response : HttpResponse)
    (hbefore : response.headers = headerMap before) :
    (fields.foldl addHeader (some response)).isSome ↔
      (∀ field ∈ fields, (headerName field.1).isSome ∧ (headerValue field.2).isSome) ∧
      ∀ left field right, fields = left ++ field :: right →
        full (headerMap (before ++ left)) = false := by
  induction fields generalizing before response with
  | nil => simp
  | cons field fields ih =>
    rw [List.foldl_cons]
    -- what stops the builder at the first field stops the whole loop
    have hstop : addHeader (some response) field = none →
        (fields.foldl addHeader (addHeader (some response) field)).isSome = false := by
      intro hnone
      rw [hnone, foldl_addHeader_none]
      rfl
    cases hname : headerName field.1 with
    | none =>
      rw [hstop (by simp [addHeader, hname])]
      simp [hname]
    | some name =>
      cases hvalue : headerValue field.2 with
      | none =>
        rw [hstop (by simp [addHeader, hname, hvalue])]
        simp [hvalue]
      | some value =>
        cases hfull : full response.headers with
        | true =>
          rw [hstop (by simp [addHeader, hname, hvalue, hfull])]
          refine iff_of_false Bool.false_ne_true fun hall => ?_
          have hroom := hall.2 [] field fields rfl
          rw [List.append_nil, ← hbefore, hfull] at hroom
          cases hroom
        | false =>
          have hstep : addHeader (some response) field =
              some { response with headers := response.headers ++ [(name, value)] } := by
            simp [addHeader, hname, hvalue, hfull]
          have hmap : response.headers ++ [(name, value)] = headerMap (before ++ [field]) := by
            rw [headerMap_append, hbefore]
            simp [headerMap, hname, hvalue]
          rw [hstep, ih (before ++ [field]) _ hmap]
          constructor
          · rintro ⟨hfields, hroom⟩
            refine ⟨fun f hf => ?_, fun left f right heq => ?_⟩
            · rcases List.mem_cons.mp hf with rfl | hf
              · exact ⟨by rw [hname]; rfl, by rw [hvalue]; rfl⟩
              · exact hfields f hf
            · cases left with
              | nil =>
                rw [List.append_nil, ← hbefore]
                exact hfull
              | cons first left =>
                obtain ⟨rfl, htail⟩ := List.cons.inj heq
                have hrest := hroom left f right htail
                rwa [List.append_assoc, List.singleton_append] at hrest
          · rintro ⟨hfields, hroom⟩
            refine ⟨fun f hf => hfields f (List.mem_cons_of_mem _ hf), fun left f right heq => ?_⟩
            rw [List.append_assoc, List.singleton_append]
            exact hroom (field :: left) f right (congrArg (field :: ·) heq)

/-- A response is built exactly when it is sendable. -/
theorem respond_isSome (ctx : Context) (traceId : Option String) :
    (respond ctx traceId).isSome ↔ Sendable traceId ctx.response := by
  have hstatus : statusCode (if ctx.response.statusCode = 0 then 200 else ctx.response.statusCode) =
      true ↔ ctx.response.statusCode = 0 ∨
        100 ≤ ctx.response.statusCode.toNat ∧ ctx.response.statusCode.toNat < 1000 := by
    by_cases hzero : ctx.response.statusCode = 0
    · rw [if_pos hzero, statusCode_iff]
      exact iff_of_true (by decide) (.inl hzero)
    · rw [if_neg hzero, statusCode_iff, or_iff_right hzero]
  rw [respond]
  simp only [Option.isSome_map, ← List.foldl_append]
  by_cases hok : statusCode (if ctx.response.statusCode = 0 then 200 else ctx.response.statusCode) = true
  · rw [if_pos hok, foldl_addHeader_isSome _ [] _ rfl]
    constructor
    · rintro ⟨hfields, hroom⟩
      exact ⟨hstatus.mp hok, hfields, hroom⟩
    · rintro ⟨-, hfields, hroom⟩
      exact ⟨hfields, hroom⟩
  · rw [if_neg hok, foldl_addHeader_none]
    exact iff_of_false Bool.false_ne_true fun hsend => hok (hstatus.mpr hsend.status)

/-! ## Runs -/

/-- The response that replaces one where a node fails and nothing handles it. -/
def errorResponse (response : GatewayResponse) : GatewayResponse :=
  (Context.unhandledError { Context.new default with response := response }).response

/-- Sendable, and so is the error response that may replace it. -/
def Safe (traceId : Option String) (response : GatewayResponse) : Prop :=
  Sendable traceId response ∧ Sendable traceId (errorResponse response)

/-- A node that hands back a safe response whenever it was given one. -/
def Plugin.KeepsSafe {σ : Type} (traceId : Option String) (p : Plugin σ) : Prop :=
  ∀ ctx inputs w, Safe traceId ctx.response →
    Safe traceId (PluginResult.context (p.execute ctx inputs w).1).response

theorem passThrough_keepsSafe {σ : Type} (traceId : Option String) (pluginType : String) :
    (passThrough (σ := σ) pluginType).KeepsSafe traceId :=
  fun _ _ _ h => h

variable {traceId : Option String}

/-- A response of the same headers and a status of its own. -/
theorem Sendable.of_headers {response response' : GatewayResponse} (h : Sendable traceId response)
    (hheaders : response'.headers = response.headers)
    (hstatus : 100 ≤ response'.statusCode.toNat ∧ response'.statusCode.toNat < 1000) :
    Sendable traceId response' where
  status := .inr hstatus
  fields := by
    rw [sentFields, hheaders]
    exact h.fields
  room := by
    rw [sentFields, hheaders]
    exact h.room

theorem Safe.nodeNotFound {ctx : Context} (h : Safe traceId ctx.response) (id : String) :
    Safe traceId (ctx.nodeNotFound id).response :=
  ⟨h.1.of_headers rfl (show 100 ≤ (500 : UInt16).toNat ∧ (500 : UInt16).toNat < 1000 by decide),
    h.2⟩

theorem Safe.unhandledError {ctx : Context} (h : Safe traceId ctx.response) :
    Safe traceId ctx.unhandledError.response := by
  have htwice : (errorResponse ctx.unhandledError.response).headers =
      (errorResponse ctx.response).headers := by
    refine Std.ExtTreeMap.ext_getElem? fun k => ?_
    show ((ctx.response.headers.insert _ _).insert _ _)[k]? = (ctx.response.headers.insert _ _)[k]?
    rw [HashMap.get_insert, HashMap.get_insert]
    split
    · rfl
    · rfl
  exact ⟨h.2, h.2.of_headers htwice
    (show 100 ≤ (500 : UInt16).toNat ∧ (500 : UInt16).toNat < 1000 by decide)⟩

/-- What a visit leaves behind is safe if its node keeps responses safe. -/
theorem safe_of_visit {σ : Type} {g : CompiledGraph σ}
    (hkeeps : ∀ (id : String) (node : Plugin σ), g.nodes[id]? = some node → node.KeepsSafe traceId)
    {id : String} {ctx : Context} {w w' : σ} {v : Visit} (hv : g.visit id ctx w = (v, w'))
    (h : Safe traceId ctx.response) : Safe traceId v.after.response := by
  rcases g.visit_cases id ctx w with
    ⟨-, hvisit⟩ | ⟨node, output, w₁, hnode, hexec, hvisit⟩ | ⟨node, err, w₁, hnode, hexec, hvisit⟩
  · obtain ⟨rfl, -⟩ := Prod.mk.inj (hv.symm.trans hvisit)
    exact h.nodeNotFound id
  · obtain ⟨rfl, -⟩ := Prod.mk.inj (hv.symm.trans hvisit)
    have hsafe := hkeeps id node hnode ctx ∅ w h
    rw [hexec] at hsafe
    exact hsafe
  · obtain ⟨rfl, -⟩ := Prod.mk.inj (hv.symm.trans hvisit)
    have hsafe := hkeeps id node hnode ctx ∅ w h
    rw [hexec] at hsafe
    have htagged : Safe traceId (err.tagged id).response := hsafe
    show Safe traceId (if _ then _ else _ : Context).response
    split
    · exact htagged
    · exact htagged.unhandledError

theorem safe_of_walk {σ : Type} {g : CompiledGraph σ}
    (hkeeps : ∀ (id : String) (node : Plugin σ), g.nodes[id]? = some node → node.KeepsSafe traceId)
    {id : String} {ctx c : Context} {w w' : σ} {visits : List Visit}
    (hwalk : g.Walk id ctx w visits c w') (h : Safe traceId ctx.response) :
    Safe traceId c.response := by
  induction hwalk with
  | last hv _ => exact safe_of_visit hkeeps hv h
  | step hv _ _ ih => exact ih (safe_of_visit hkeeps hv h)

/-- The characters of a trace id. -/
def IsTraceId (id : String) : Prop := id.toList.all isTokenChar

omit [HttpTypes] in
theorem isVisible_of_token {c : Char} (h : isTokenChar c = true) : isVisible c = true := by
  simp only [isTokenChar, isVisible, Char.isAlphanum, Char.isAlpha, Char.isUpper, Char.isLower,
    Char.isDigit, Bool.or_eq_true, Bool.and_eq_true, decide_eq_true_eq, beq_iff_eq, Char.toNat,
    ge_iff_le, UInt32.le_iff_toNat_le] at h ⊢
  rcases h with ((⟨hlow, hhigh⟩ | ⟨hlow, hhigh⟩) | ⟨hlow, hhigh⟩) | rfl
  · exact ⟨Nat.le_trans (by decide) hlow, Nat.lt_of_le_of_lt hhigh (by decide)⟩
  · exact ⟨Nat.le_trans (by decide) hlow, Nat.lt_of_le_of_lt hhigh (by decide)⟩
  · exact ⟨Nat.le_trans (by decide) hlow, Nat.lt_of_le_of_lt hhigh (by decide)⟩
  · decide

/-- A field whose name is a token and whose value is visible is taken. -/
theorem taken {name value : String} (hname : name ≠ "" ∧ name.length < 2 ^ 15 ∧
    name.toList.all isTokenChar = true) (hvalue : value.toList.all isVisible = true) :
    (headerName name).isSome ∧ (headerValue value).isSome :=
  ⟨headerName_token name hname.1 hname.2.1 hname.2.2, headerValue_visible value hvalue⟩

theorem sendable_of_few {response : GatewayResponse}
    (hstatus : response.statusCode = 0 ∨
      100 ≤ response.statusCode.toNat ∧ response.statusCode.toNat < 1000)
    (hfields : ∀ field ∈ sentFields response traceId,
      (headerName field.1).isSome ∧ (headerValue field.2).isSome)
    (hfew : (sentFields response traceId).length < 1024) : Sendable traceId response where
  status := hstatus
  fields := hfields
  room before field after heq := by
    refine full_few _ (Nat.lt_of_le_of_lt (List.length_filterMap_le _ before) ?_)
    rw [heq, List.length_append] at hfew
    omega

/-- A fresh response is safe. -/
theorem safe_fresh (htrace : ∀ id ∈ traceId, IsTraceId id) :
    Safe traceId { statusCode := 0, headers := ∅, body := [] } := by
  have hid : ∀ field ∈ traceFields traceId,
      (headerName field.1).isSome ∧ (headerValue field.2).isSome := by
    intro field hfield
    obtain ⟨id, hmem, rfl⟩ := List.mem_map.mp hfield
    have hall : id.toList.all isTokenChar = true := htrace id (Option.mem_toList.mp hmem)
    have hname : "x-featherbit-trace-id" ≠ "" ∧ "x-featherbit-trace-id".length < 2 ^ 15 ∧
        "x-featherbit-trace-id".toList.all isTokenChar = true := by decide +kernel
    refine taken hname ?_
    rw [List.all_eq_true] at hall ⊢
    exact fun c hc => isVisible_of_token (hall c hc)
  have hlength : (traceFields traceId).length ≤ 1 := by
    cases traceId <;> simp [traceFields]
  have hempty : headerFields ∅ = [] := rfl
  have herror : headerFields (errorResponse { statusCode := 0, headers := ∅, body := [] }).headers =
      [("content-type", "application/json")] := by decide +kernel
  refine ⟨sendable_of_few (.inl rfl) ?_ ?_, sendable_of_few (.inr ?_) ?_ ?_⟩
  · rw [sentFields, hempty]
    exact hid
  · rw [sentFields, hempty, List.nil_append]
    omega
  · show 100 ≤ (500 : UInt16).toNat ∧ (500 : UInt16).toNat < 1000
    decide
  · intro field hfield
    rw [sentFields, herror] at hfield
    rcases List.mem_cons.mp hfield with rfl | hfield
    · exact taken (by decide +kernel) (by decide +kernel)
    · exact hid field hfield
  · rw [sentFields, herror, List.length_append, List.length_singleton]
    omega

/-- **A final context can be sent** exactly when the `http` crate takes its status and its headers;
    and it can when every node of the graph keeps that up. -/
theorem final_context_sendable [CaseMapping] {σ : Type} {g : CompiledGraph σ} {req : Incoming}
    {startMs : UInt64} {recorder : Option TraceRecorder} {w : σ} {fuel : Nat} {exit : LoopExit σ}
    (hrun : g.run fuel (req.context startMs) recorder w = some exit)
    (htrace : ∀ id ∈ traceId, IsTraceId id) :
    ((respond exit.ctx traceId).isSome ↔ Sendable traceId exit.ctx.response) ∧
    ((∀ (id : String) (node : Plugin σ), g.nodes[id]? = some node → node.KeepsSafe traceId) →
      (respond exit.ctx traceId).isSome) := by
  refine ⟨respond_isSome exit.ctx traceId, fun hkeeps => ?_⟩
  obtain ⟨visits, hwalk, -⟩ := walk_of_iterate hrun
  have hsafe : Safe traceId exit.ctx.response := safe_of_walk hkeeps hwalk (safe_fresh htrace)
  exact (respond_isSome exit.ctx traceId).mpr hsafe.1

end Response

/-! ## Two graphs at work -/

/-- The `http` crate, by its documentation: tokens, visible bytes and tabs, 24576 names. -/
abbrev httpTypes : HttpTypes where
  statusCode s := decide (100 ≤ s.toNat ∧ s.toNat < 1000)
  statusCode_iff s := decide_eq_true_iff
  headerName s :=
    if s ≠ "" ∧ s.length < 2 ^ 16 ∧
        s.toList.all (fun c => c.isAlphanum || "!#$%&'*+-.^_`|~".toList.contains c) then
      some (String.ofList (s.toList.map Char.toLower))
    else none
  headerName_token s hne hlength hall := by
    have hchars : s.toList.all (fun c => c.isAlphanum || "!#$%&'*+-.^_`|~".toList.contains c) := by
      rw [List.all_eq_true] at hall ⊢
      intro c hc
      have htoken := hall c hc
      simp only [isTokenChar, Bool.or_eq_true, beq_iff_eq] at htoken
      rcases htoken with h | rfl
      · rw [h, Bool.true_or]
      · decide
    rw [if_pos ⟨hne, by omega, hchars⟩]
    rfl
  headerValue s :=
    if s.toList.all (fun c => c == '\t' || (32 ≤ c.toNat && c.toNat != 127)) then some (asBytes s)
    else none
  headerValue_visible s hall := by
    have hchars : s.toList.all (fun c => c == '\t' || (32 ≤ c.toNat && c.toNat != 127)) := by
      rw [List.all_eq_true] at hall ⊢
      intro c hc
      have hvisible := hall c hc
      simp only [isVisible, Bool.and_eq_true, decide_eq_true_eq] at hvisible
      simp only [Bool.or_eq_true, Bool.and_eq_true, decide_eq_true_eq, bne_iff_ne]
      exact .inr ⟨hvisible.1, hvisible.2.ne⟩
    rw [if_pos hchars]
    rfl
  full headers := decide (24576 ≤ (headers.map Prod.fst).dedup.length)
  full_few headers hfew := by
    have hle : (headers.map Prod.fst).dedup.length ≤ headers.length :=
      (List.dedup_sublist _).length_le.trans_eq (List.length_map _)
    exact decide_eq_false (by omega)

/-- A listener and a client. -/
def direct : PolicyConfig where
  name := "direct"
  nodes := [{ id := "listener", nodeType := "listener" }, { id := "client", nodeType := "client" }]
  edges := [{ «from» := "listener.out", «to» := "client.in" }]

theorem final_context_sendable_direct :
    let _ : HttpTypes := httpTypes
    let _ : CaseMapping := asciiCaseMapping
    ∃ g : CompiledGraph Unit,
      compilePolicy (fun _ => none) (createPlugin unknownTypes) direct = .ok g ∧
      ∀ req : Incoming, ∃ exit, g.run 1 (req.context 0) none () = some exit ∧
        (respond exit.ctx (some "4f6a")).isSome := by
  let _ : HttpTypes := httpTypes
  let _ : CaseMapping := asciiCaseMapping
  obtain ⟨g, hg⟩ : ∃ g, compilePolicy (fun _ => none) (createPlugin (σ := Unit) unknownTypes)
      direct = .ok g := ⟨_, rfl⟩
  have hcomp := compiled_of_compile hg
  have hentry := hcomp.entry_of_listener (l := "listener") (by decide)
  have hid : g.entryNodeId = "client" := hentry.trans (by decide)
  have hnode : g.nodes["client"]? = some clientPlugin := by rw [hcomp.nodes]; rfl
  have hnext : g.nextOnSuccess "client" = none := by rw [hcomp.nextOnSuccess]; decide
  have hkeeps : ∀ (id : String) (node : Plugin Unit), g.nodes[id]? = some node →
      node.KeepsSafe (some "4f6a") := by
    intro id node hnode
    rw [hcomp.nodes] at hnode
    obtain ⟨n, hn, hplugin⟩ := Option.bind_eq_some_iff.mp hnode
    have hmem : n ∈ direct.nodes := (PolicyConfig.mem_of_nodeAt hn).1
    rcases List.mem_pair.mp hmem with rfl | rfl
    · rw [← Option.some.inj hplugin]
      exact passThrough_keepsSafe _ _
    · rw [← Option.some.inj hplugin]
      exact passThrough_keepsSafe _ _
  refine ⟨g, hg, fun req => ?_⟩
  have hv : g.visit "client" (req.context 0) () =
      (g.okVisit "client" clientPlugin { context := req.context 0, namedOutputs := ∅ }, ()) :=
    CompiledGraph.visit_success hnode rfl
  have hwalk : g.Walk g.entryNodeId (req.context 0) ()
      [g.okVisit "client" clientPlugin { context := req.context 0, namedOutputs := ∅ }]
      (req.context 0) () := by
    rw [hid]
    exact .last hv hnext
  have hrun := run_of_walk hwalk (Nat.le_refl 1) none
  have htrace : ∀ id ∈ some "4f6a", IsTraceId id := by
    rintro id ⟨⟩
    exact show "4f6a".toList.all isTokenChar = true by decide +kernel
  exact ⟨_, hrun, (final_context_sendable hrun htrace).2 hkeeps⟩

/-- The assignment `t.name = value` to a field that is there. -/
def assign (name : String) (value : LuaValue) (t : LuaTable) : LuaTable :=
  t.map fun entry => if entry.1 = .string (asBytes name) then (entry.1, value) else entry

theorem assign_cons (name name' : String) (v value : LuaValue) (t : LuaTable) :
    assign name value (field name' v :: t) =
      field name' (if name = name' then value else v) :: assign name value t := by
  by_cases h : name = name'
  · simp [assign, field, h]
  · have hkey : ¬ LuaKey.string (asBytes name') = LuaKey.string (asBytes name) :=
      fun heq => h (string_injective heq).symm
    simp [assign, field, h, hkey]

/-- `ctx.response.status_code = 42; return ctx`. -/
def teapotScript : LuaValue → Except String LuaValue
  | .table ctx =>
    match getField "response" ctx with
    | .table response =>
      .ok (.table (assign "response"
        (.table (assign "status_code" (.number (F64.ofInt32 42)) response)) ctx))
    | _ => .error "attempt to index a value that is no table"
  | _ => .error "attempt to index a value that is no table"

def teapotSource : String := "function execute(ctx) ctx.response.status_code = 42 return ctx end"

def teapotExec (source : String) (_ : Option String) : Except String LuaGlobals :=
  if source = teapotSource then .ok { execute := .ok teapotScript } else .error "unknown script"

/-- The files of a gateway without any. -/
def noFiles : ScriptFiles where
  readToString _ := .error "No such file or directory (os error 2)"
  parent _ := none

def teapot : PolicyConfig where
  name := "teapot"
  nodes :=
    [{ id := "listener", nodeType := "listener" },
      { id := "shape", nodeType := "script"
        config := (∅ : HashMap Json).insert "inline" (.string teapotSource) },
      { id := "client", nodeType := "client" }]
  edges :=
    [{ «from» := "listener.out", «to» := "shape.in" },
      { «from» := "shape.out", «to» := "client.in" }]

def teapotNode : ScriptPlugin where
  runtime := { source := teapotSource, modulesPath := none, timeoutMs := 5000 }

/-- The script writes its status over the one of the response. -/
theorem teapotScript_contextTable (ctx : Context) :
    let _ : Mlua := luauOf teapotExec
    teapotScript (contextTable ctx) =
      .ok (contextTable { ctx with response := { ctx.response with statusCode := 42 } }) := by
  let _ : Mlua := luauOf teapotExec
  have hresponse : getField "response" [field "request" (requestToLua ctx.request),
      field "response" (responseToLua ctx.response), field "message" (messageToLua ctx.message)] =
        responseToLua ctx.response := by
    simp only [getField_cons, String.reduceEq, if_true, if_false]
  show teapotScript (.table [field "request" (requestToLua ctx.request),
    field "response" (responseToLua ctx.response), field "message" (messageToLua ctx.message)]) = _
  rw [teapotScript, hresponse]
  show Except.ok (LuaValue.table (assign "response" (.table (assign "status_code" _
    [field "status_code" _, field "headers" _, field "body" _])) _)) = _
  simp only [assign_cons, String.reduceEq, if_true, if_false]
  rfl

/-- A script sets a status that the builder does not take: for every request the walk ends, and the
    `unwrap` on the response fails. -/
theorem status_42_panics :
    let _ : Mlua := luauOf teapotExec
    ∃ g : CompiledGraph Unit, validatePolicy teapot = .ok () ∧
      compilePolicy (fun _ => none) (createPlugin (ScriptPlugin.factory noFiles)) teapot = .ok g ∧
      ∀ (_ : CaseMapping) (_ : HttpTypes) (req : Incoming) (startMs : UInt64),
        ∃ exit, g.run 2 (req.context startMs) none () = some exit ∧
          exit.ctx.response.statusCode = 42 ∧ respond exit.ctx none = none := by
  let _ : Mlua := luauOf teapotExec
  obtain ⟨g, hg⟩ : ∃ g : CompiledGraph Unit, compilePolicy (fun _ => none)
      (createPlugin (ScriptPlugin.factory noFiles)) teapot = .ok g := ⟨_, rfl⟩
  refine ⟨g, by decide +kernel, hg, fun _ _ req startMs => ?_⟩
  have hcomp := compiled_of_compile hg
  have hentry := hcomp.entry_of_listener (l := "listener") (by decide)
  have hid : g.entryNodeId = "shape" := hentry.trans (by decide)
  have hshape : g.nodes["shape"]? = some teapotNode.toPlugin := by rw [hcomp.nodes]; rfl
  have hclient : g.nodes["client"]? = some clientPlugin := by rw [hcomp.nodes]; rfl
  have hnext : g.nextOnSuccess "shape" = some "client" := by rw [hcomp.nextOnSuccess]; decide
  have hend : g.nextOnSuccess "client" = none := by rw [hcomp.nextOnSuccess]; decide
  let shaped : Context :=
    { req.context startMs with
      response := { (req.context startMs).response with statusCode := 42 }
      message := passedMessage (req.context startMs).message }
  have hexecute : teapotNode.execute (req.context startMs) =
      .ok { context := shaped, namedOutputs := ∅ } := by
    have hreturns : teapotNode.runtime.execute (req.context startMs) = .ok shaped :=
      LuaRuntime.execute_returns rfl rfl rfl (teapotScript_contextTable (req.context startMs)) rfl rfl
    rw [ScriptPlugin.execute, hreturns]
  have hv : g.visit "shape" (req.context startMs) () =
      (g.okVisit "shape" teapotNode.toPlugin { context := shaped, namedOutputs := ∅ }, ()) :=
    CompiledGraph.visit_success hshape (Prod.ext hexecute rfl)
  have hv' : g.visit "client" shaped () =
      (g.okVisit "client" clientPlugin { context := shaped, namedOutputs := ∅ }, ()) :=
    CompiledGraph.visit_success hclient rfl
  have hwalk : g.Walk g.entryNodeId (req.context startMs) ()
      [g.okVisit "shape" teapotNode.toPlugin { context := shaped, namedOutputs := ∅ },
        g.okVisit "client" clientPlugin { context := shaped, namedOutputs := ∅ }] shaped () := by
    rw [hid]
    exact .step hv hnext (.last hv' hend)
  refine ⟨_, run_of_walk hwalk (Nat.le_refl 2) none, rfl, ?_⟩
  have hnot : ¬ Sendable none shaped.response := by
    rintro ⟨hstatus, -, -⟩
    exact absurd hstatus (show ¬ ((42 : UInt16) = 0 ∨ 100 ≤ (42 : UInt16).toNat ∧
      (42 : UInt16).toNat < 1000) by decide)
  rw [← respond_isSome shaped none] at hnot
  exact Option.not_isSome_iff_eq_none.mp hnot

end Featherbit
