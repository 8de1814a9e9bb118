/-
  THE CONTRACT OF A SPECIFICATION, and what `oas-validator` lets through.

  A parameter is required in effect by the operation's own entry, or by that of its path where the operation
  has none of this name and location.  A body is to be valid, unless its media type is another one that the
  operation declares.

  1. **Paths** (`chosen_rel`) — the node applies the operation that the specification has at this place.
  2. **Parameters** (`listed_iff`) — the node asks for what either list requires, overridden or not.
  3. **Bodies** (`checkBody_iff`) — it checks what it takes for JSON, declared or not.
  4. **Where the contract is enforced** (`enforcedAt_iff`) — where these two make no difference.
-/
import Featherbit.Plugins.OasValidator

namespace Featherbit

namespace OasValidator

/-! ## The contract -/

/-- A part of a template that stands for any. -/
def IsTemplated (part : String) : Prop := part.toList.head? = some '{' ∧ part.toList.getLast? = some '}'

instance (part : String) : Decidable (IsTemplated part) := inferInstanceAs (Decidable (_ ∧ _))

/-- A path that a template describes, part by part. -/
def PathMatches (template path : String) : Prop :=
  List.Forall₂ (fun part reqPart => IsTemplated part ∨ part = reqPart) (pathParts template) (pathParts path)

instance (template path : String) : Decidable (PathMatches template path) :=
  inferInstanceAs (Decidable (List.Forall₂ _ _ _))

/-- How many parts of the template are literal. -/
def literals (op : SpecOp) : Nat := (pathParts op.template).countP fun part => ¬ IsTemplated part

/-- A parameter by its location and its name; the name of a header is in lower case. -/
inductive ParamKey where
  | query (name : String)
  | header (name : String)
deriving DecidableEq

/-- The entries of the list at a path or an operation, references resolved. -/
def paramsOf (spec level : Json) : List Json :=
  (((level.get "parameters").bind Json.asArray).getD []).filterMap fun raw =>
    (resolve "parameter" spec raw).toOption

def Present (request : GatewayRequest) : ParamKey → Prop
  | .query name => request.queryParams.contains name = true
  | .header name => request.headers.contains name = true

/-- The body that an operation describes. -/
def requestBodyOf (spec : Json) (op : SpecOp) : Option Json :=
  (op.operation.get "requestBody").bind fun raw => (resolve "requestBody" spec raw).toOption

def bodyRequired (spec : Json) (op : SpecOp) : Bool := ((requestBodyOf spec op).map isRequired).getD false

/-- What it declares, by media type. -/
def contentOf (spec : Json) (op : SpecOp) : Option Json := (requestBodyOf spec op).bind (Json.get "content")

/-- The schema for JSON, with the components that it may refer to. -/
def bodySchemaOf (spec : Json) (op : SpecOp) : Option Json :=
  ((((contentOf spec op).bind (Json.get "application/json")).bind (Json.get "schema")).bind Json.asObject).map
    (embedComponents spec)

/-- A media type without its parameters. -/
def mediaType (s : String) : String := toAsciiLowercase (trim (splitFirst ';' s))

/-- A declared range contains a media type. -/
def Covers (range type : String) : Prop :=
  range = type ∨ range = "*/*" ∨ ∃ main, range = main ++ "/*" ∧ startsWith type (main ++ "/") = true

/-- The media type of a request is not JSON, and the operation declares it. -/
def OtherDeclared (spec : Json) (op : SpecOp) (request : GatewayRequest) : Prop :=
  ∃ value ∈ request.headers["content-type"]?.bind List.head?, mediaType value ≠ "application/json" ∧
    ∃ declared ∈ ((contentOf spec op).bind Json.asObject).getD [], Covers (mediaType declared.1) (mediaType value)

section Contract

variable [CaseMapping]

def keyOf (param : Json) : Option ParamKey :=
  match (param.get "name").bind Json.asStr, (param.get "in").bind Json.asStr with
  | some name, some "query" => some (.query name)
  | some name, some "header" => some (.header (toLowercase name))
  | _, _ => none

/-- A list requires a parameter. -/
def RequiredIn (params : List Json) (key : ParamKey) : Prop :=
  ∃ param ∈ params, keyOf param = some key ∧ isRequired param = true

/-- The operation has an entry of its own for a parameter that its path requires, and does not require it. -/
def Overridden (spec : Json) (op : SpecOp) (key : ParamKey) : Prop :=
  RequiredIn (paramsOf spec op.pathItem) key ∧ (∃ param ∈ paramsOf spec op.operation, keyOf param = some key) ∧
    ¬ RequiredIn (paramsOf spec op.operation) key

/-- A parameter that is required in effect. -/
def RequiredInEffect (spec : Json) (op : SpecOp) (key : ParamKey) : Prop :=
  RequiredIn (paramsOf spec op.operation) key ∨
    RequiredIn (paramsOf spec op.pathItem) key ∧ ∀ param ∈ paramsOf spec op.operation, keyOf param ≠ some key

/-- The operations for a request. -/
def matching (spec : Json) (request : GatewayRequest) : List SpecOp :=
  (operationsOf spec).filter fun op =>
    request.method = toUppercase op.method ∧ PathMatches op.template request.path

/-- The one that is applied: of those with the most literal parts, the last. -/
def chosen (spec : Json) (request : GatewayRequest) : Option SpecOp :=
  LastMax.maxByKey literals (matching spec request)

variable [JsonCodec] [JsonSchema]

/-- The body is JSON, and valid where the operation has a schema for it. -/
def BodyValid (spec : Json) (op : SpecOp) (request : GatewayRequest) : Prop :=
  request.body ≠ [] → ∀ schema, bodySchemaOf spec op = some schema →
    ∃ v, JsonCodec.parse request.body = some v ∧ JsonSchema.Valid schema v

/-- What is asked of every request, whatever its body is. -/
structure Complete (spec : Json) (op : SpecOp) (request : GatewayRequest) : Prop where
  params : ∀ key, RequiredInEffect spec op key → Present request key
  body : bodyRequired spec op = true → request.body ≠ []

/-- A request that the contract lets through. -/
def Meets (spec : Json) (op : SpecOp) (request : GatewayRequest) : Prop :=
  Complete spec op request ∧ (BodyValid spec op request ∨ OtherDeclared spec op request)

end Contract

/-! ## Paths -/

theorem parseSegment_templated {part : String} (h : IsTemplated part) : parseSegment part = .param := if_pos h

theorem parseSegment_literal {part : String} (h : ¬ IsTemplated part) : parseSegment part = .literal part := if_neg h

/-- The node's matching is that of the template. -/
theorem pathMatches_iff (template path : String) :
    pathMatches (parseTemplate template).1 path = true ↔ PathMatches template path := by
  have hpart : ∀ part reqPart, reqPart ∈ pathParts path →
      ((parseSegment part).accepts reqPart = true ↔ IsTemplated part ∨ part = reqPart) := by
    intro part reqPart hreq
    have hne : reqPart ≠ "" := of_decide_eq_true (List.mem_filter.mp hreq).2
    by_cases h : IsTemplated part
    · rw [parseSegment_templated h]
      exact iff_of_true (decide_eq_true hne) (Or.inl h)
    · rw [parseSegment_literal h, or_iff_right h]
      exact decide_eq_true_iff
  unfold pathMatches parseTemplate PathMatches
  dsimp only
  rw [List.length_map, List.forall₂_iff_zip]
  split
  · rename_i hlength
    refine iff_of_false Bool.false_ne_true fun h => hlength h.1.symm
  · rename_i hlength
    rw [and_iff_right (not_not.mp hlength).symm, List.all_eq_true, List.zip_map_left]
    constructor
    · intro h part reqPart hmem
      exact (hpart part reqPart (List.of_mem_zip hmem).2).mp (h _ (List.mem_map_of_mem hmem))
    · intro h row hrow
      obtain ⟨⟨part, reqPart⟩, hmem, rfl⟩ := List.mem_map.mp hrow
      exact (hpart part reqPart (List.of_mem_zip hmem).2).mpr (h hmem)

theorem parseTemplate_literals (op : SpecOp) : (parseTemplate op.template).2 = literals op := by
  unfold parseTemplate literals
  dsimp only
  rw [List.countP_map]
  refine List.countP_congr fun part _ => ?_
  by_cases h : IsTemplated part
  · rw [Function.comp_apply, parseSegment_templated h]
    exact iff_of_false Bool.false_ne_true fun hnot => of_decide_eq_true hnot h
  · rw [Function.comp_apply, parseSegment_literal h]
    exact iff_of_true rfl (decide_eq_true h)

section Compiled

variable [CaseMapping]

/-! ## Parameters -/

/-- The names that were collected have a parameter. -/
def Listed (required : List String × List String) : ParamKey → Prop
  | .query name => name ∈ required.1
  | .header name => name ∈ required.2

theorem keyOf_of_name_none {param : Json} (h : (param.get "name").bind Json.asStr = none) :
    keyOf param = none := by
  unfold keyOf
  rw [h]

/-- The key of a parameter, by its location. -/
theorem keyOf_of_name {param : Json} {name : String} (h : (param.get "name").bind Json.asStr = some name) :
    keyOf param =
      if (param.get "in").bind Json.asStr = some "query" then some (.query name)
      else if (param.get "in").bind Json.asStr = some "header" then some (.header (toLowercase name))
      else none := by
  unfold keyOf
  rw [h]
  split
  · rename_i hname hloc
    obtain rfl := Option.some.inj hname
    rw [if_pos hloc]
  · rename_i hname hloc
    obtain rfl := Option.some.inj hname
    rw [hloc, if_neg (by decide), if_pos rfl]
  · rename_i hquery hheader
    rw [if_neg (hquery name rfl), if_neg (hheader name rfl)]

/-- One parameter more. -/
theorem listed_pushParam {required : List String × List String} {param : Json} (key : ParamKey) :
    Listed (pushParam required param) key ↔
      Listed required key ∨ keyOf param = some key ∧ isRequired param = true := by
  unfold pushParam
  split
  · rename_i hrequired
    rw [and_iff_left hrequired]
    split
    · rename_i name hname
      rw [keyOf_of_name hname]
      split
      · rename_i hloc
        rw [hloc, if_pos rfl]
        cases key <;> simp [Listed, eq_comm]
      · rename_i hloc
        rw [hloc, if_neg (by decide), if_pos rfl]
        cases key <;> simp [Listed, eq_comm]
      · rename_i hquery hheader
        rw [if_neg hquery, if_neg hheader]
        exact (or_iff_left (Option.some_ne_none key).symm).symm
    · rename_i hname
      rw [keyOf_of_name_none hname]
      exact (or_iff_left (Option.some_ne_none key).symm).symm
  · rename_i hoptional
    exact (or_iff_left fun h => hoptional h.2).symm

/-- A list requires what its entries do, one after another. -/
theorem listed_entries {spec : Json} {arr : List Json} {required required' : List String × List String}
    (h : arr.foldlM (fun required raw => do
      let param ← resolve "parameter" spec raw
      .ok (pushParam required param)) required = .ok required') (key : ParamKey) :
    Listed required' key ↔ Listed required key ∨
      RequiredIn (arr.filterMap fun raw => (resolve "parameter" spec raw).toOption) key := by
  unfold RequiredIn
  induction arr generalizing required with
  | nil =>
    obtain rfl := Except.ok.inj h
    simp
  | cons raw arr ih =>
    rw [List.foldlM_cons] at h
    obtain ⟨next, hnext, h⟩ := TryFold.bind_eq_ok.mp h
    obtain ⟨param, hparam, hpush⟩ := TryFold.bind_eq_ok.mp hnext
    obtain rfl := Except.ok.inj hpush
    rw [ih h, listed_pushParam, List.filterMap_cons, hparam, or_assoc]
    refine or_congr_right ?_
    show _ ↔ ∃ p ∈ param :: _, _
    rw [List.exists_mem_cons_iff]

theorem listed_level {spec level : Json} {required required' : List String × List String}
    (h : (level.get "parameters").toList.foldlM (collectList spec) required = .ok required') (key : ParamKey) :
    Listed required' key ↔ Listed required key ∨ RequiredIn (paramsOf spec level) key := by
  unfold paramsOf
  cases hlist : level.get "parameters" with
  | none =>
    rw [hlist] at h
    obtain rfl := Except.ok.inj h
    exact (or_iff_left fun ⟨_, hmem, _⟩ => List.not_mem_nil hmem).symm
  | some list =>
    rw [hlist, Option.toList_some, List.foldlM_cons] at h
    obtain ⟨next, hnext, h⟩ := TryFold.bind_eq_ok.mp h
    obtain rfl := Except.ok.inj h
    unfold collectList at hnext
    rw [Option.bind_some]
    split at hnext
    · cases hnext
    · rename_i arr harr
      rw [harr]
      exact listed_entries hnext key

/-- **Parameters.**  The node asks for what either list requires. -/
theorem listed_iff {spec pathItem operation : Json} {required : List String × List String}
    (h : collectRequiredParams spec pathItem operation = .ok required) (key : ParamKey) :
    Listed required key ↔ RequiredIn (paramsOf spec pathItem) key ∨ RequiredIn (paramsOf spec operation) key := by
  unfold collectRequiredParams at h
  rw [List.foldlM_append] at h
  obtain ⟨fromPath, hpath, hoperation⟩ := TryFold.bind_eq_ok.mp h
  have hnone : ¬ Listed ([], []) key := by
    cases key <;> exact List.not_mem_nil
  rw [listed_level hoperation, listed_level hpath, or_iff_right hnone]

/-- What either list requires is required in effect, or overridden. -/
theorem requiredIn_iff (spec : Json) (op : SpecOp) (key : ParamKey) :
    RequiredIn (paramsOf spec op.pathItem) key ∨ RequiredIn (paramsOf spec op.operation) key ↔
      RequiredInEffect spec op key ∨ Overridden spec op key := by
  unfold RequiredInEffect Overridden
  by_cases hown : RequiredIn (paramsOf spec op.operation) key
  · exact iff_of_true (Or.inr hown) (Or.inl (Or.inl hown))
  · rw [or_iff_left hown, or_iff_right hown, ← and_or_left, and_iff_left hown]
    refine (and_iff_left ?_).symm
    by_cases hentry : ∃ param ∈ paramsOf spec op.operation, keyOf param = some key
    · exact Or.inr hentry
    · exact Or.inl fun param hparam hkey => hentry ⟨param, hparam, hkey⟩

/-! ## Bodies -/

variable [JsonSchema]

omit [CaseMapping] in
/-- What a body is compiled to. -/
theorem compileBodySchema_ok {spec : Json} {op : SpecOp} {method template : String}
    {body : Option JsonSchema.Validator × Bool}
    (h : compileBodySchema spec op.operation method template = .ok body) :
    Option.Rel (fun schema validator => JsonSchema.validatorFor schema = .ok validator) (bodySchemaOf spec op)
      body.1 ∧ body.2 = bodyRequired spec op := by
  unfold compileBodySchema at h
  unfold bodySchemaOf bodyRequired contentOf requestBodyOf
  split at h
  · rename_i hnone
    obtain rfl := Except.ok.inj h
    rw [hnone]
    exact ⟨Option.Rel.none, rfl⟩
  · rename_i raw hraw
    obtain ⟨requestBody, hresolved, h⟩ := TryFold.bind_eq_ok.mp h
    rw [hraw, Option.bind_some, hresolved]
    show Option.Rel _ (Option.map _ (Option.bind (Option.bind (Option.bind (requestBody.get "content") _) _) _)) _ ∧ _
    dsimp only at h
    split at h
    · rename_i hnone
      obtain rfl := Except.ok.inj h
      rw [hnone]
      exact ⟨Option.Rel.none, rfl⟩
    · rename_i schema hschema
      split at h
      · rename_i validator hvalidator
        obtain rfl := Except.ok.inj h
        rw [hschema]
        exact ⟨Option.Rel.some hvalidator, rfl⟩
      · cases h
    · cases h

variable [JsonCodec] [JsonErrorText]

/-- **Bodies.**  The node checks a body that it takes for JSON. -/
theorem checkBody_iff {spec : Json} {op : SpecOp} {compiled : CompiledOp} {request : GatewayRequest}
    (h : Option.Rel (fun schema validator => JsonSchema.validatorFor schema = .ok validator)
      (bodySchemaOf spec op) compiled.bodySchema) :
    OasValidatorPlugin.checkBody compiled request = .ok () ↔
      (OasValidatorPlugin.isJson request = true → BodyValid spec op request) := by
  rw [OasValidatorPlugin.checkBody_ok_iff]
  unfold BodyValid
  generalize bodySchemaOf spec op = schema at h
  generalize compiled.bodySchema = validator at h
  cases h with
  | none =>
    refine iff_of_true (fun validator hnone => ?_) fun _ _ schema hnone => ?_
    · cases hnone
    · cases hnone
  | @some schema validator hcompiled =>
    constructor
    · intro h hjson hbody schema hschema
      obtain rfl := Option.some.inj hschema
      obtain ⟨v, hparse, hvalid⟩ := h validator rfl hbody hjson
      exact ⟨v, hparse, (JsonSchema.validate_iff hcompiled v).mp hvalid⟩
    · intro h validator hvalidator hbody hjson
      obtain rfl := Option.some.inj hvalidator
      obtain ⟨v, hparse, hvalid⟩ := h hjson hbody schema rfl
      exact ⟨v, hparse, (JsonSchema.validate_iff hcompiled v).mpr hvalid⟩

/-! ## One operation -/

omit [JsonCodec] [JsonErrorText] in
theorem compileOp_ok {spec : Json} {op : SpecOp} {compiled : CompiledOp} (h : compileOp spec op = .ok compiled) :
    compiled.method = toUppercase op.method ∧ compiled.segments = (parseTemplate op.template).1 ∧
      compiled.literalCount = literals op ∧
      collectRequiredParams spec op.pathItem op.operation =
        .ok (compiled.requiredQuery, compiled.requiredHeaders) ∧
      compileBodySchema spec op.operation op.method op.template =
        .ok (compiled.bodySchema, compiled.bodyRequired) := by
  unfold compileOp at h
  split at h
  · cases h
  · obtain ⟨required, hrequired, h⟩ := TryFold.bind_eq_ok.mp h
    obtain ⟨body, hbody, h⟩ := TryFold.bind_eq_ok.mp h
    obtain rfl := Except.ok.inj h
    exact ⟨rfl, rfl, parseTemplate_literals op, hrequired, hbody⟩

/-- The parameters that the operation overrides are there all the same. -/
def OverriddenPresent (spec : Json) (op : SpecOp) (request : GatewayRequest) : Prop :=
  ∀ key, Overridden spec op key → Present request key

/-- **One operation.**  What the check of a compiled operation asks for. -/
theorem check_iff {spec : Json} {op : SpecOp} {compiled : CompiledOp} (h : compileOp spec op = .ok compiled)
    (request : GatewayRequest) : OasValidatorPlugin.check compiled request = .ok () ↔
      Complete spec op request ∧ OverriddenPresent spec op request ∧
        (OasValidatorPlugin.isJson request = true → BodyValid spec op request) := by
  obtain ⟨-, -, -, hparams, hbody⟩ := compileOp_ok h
  obtain ⟨hschema, hrequired⟩ := compileBodySchema_ok hbody
  have hpresent : (∀ name ∈ compiled.requiredQuery, request.queryParams.contains name = true) ∧
      (∀ name ∈ compiled.requiredHeaders, request.headers.contains name = true) ↔
      ∀ key, RequiredInEffect spec op key ∨ Overridden spec op key → Present request key := by
    constructor
    · rintro ⟨hquery, hheaders⟩ key hkey
      have hlisted := (listed_iff hparams key).mpr ((requiredIn_iff spec op key).mpr hkey)
      cases key with
      | query name => exact hquery name hlisted
      | header name => exact hheaders name hlisted
    · intro h
      have hall : ∀ key, Listed (compiled.requiredQuery, compiled.requiredHeaders) key → Present request key :=
        fun key hlisted => h key ((requiredIn_iff spec op key).mp ((listed_iff hparams key).mp hlisted))
      exact ⟨fun name hname => hall (.query name) hname, fun name hname => hall (.header name) hname⟩
  rw [OasValidatorPlugin.check_ok_iff, checkBody_iff hschema, show compiled.bodyRequired = _ from hrequired,
    ← and_assoc, hpresent]
  constructor
  · rintro ⟨hall, hbody, hvalid⟩
    exact ⟨⟨fun key hkey => hall key (Or.inl hkey), hbody⟩, fun key hkey => hall key (Or.inr hkey), hvalid⟩
  · rintro ⟨⟨hparams, hbody⟩, hoverridden, hvalid⟩
    refine ⟨fun key hkey => ?_, hbody, hvalid⟩
    rcases hkey with hkey | hkey
    · exact hparams key hkey
    · exact hoverridden key hkey

/-! ## A specification -/

variable {spec : Json} {plugin : OasValidatorPlugin}

omit [JsonCodec] [JsonErrorText] in
/-- **Paths.**  What the node applies is the operation that the contract chooses. -/
theorem chosen_rel (h : List.Forall₂ (fun op compiled => compileOp spec op = .ok compiled) (operationsOf spec)
      plugin.operations) (request : GatewayRequest) :
    Option.Rel (fun op compiled => compileOp spec op = .ok compiled) (chosen spec request)
      (plugin.matchOperation request.method request.path) := by
  have hmatching : List.Forall₂ (fun op compiled => compileOp spec op = .ok compiled) (matching spec request)
      (plugin.operations.filter fun op =>
        op.method = request.method ∧ pathMatches op.segments request.path) := by
    refine List.rel_filter ?_ h
    intro op compiled hop
    obtain ⟨hmethod, hsegments, -⟩ := compileOp_ok hop
    dsimp only
    rw [decide_eq_true_iff, decide_eq_true_iff, hmethod, hsegments, pathMatches_iff]
    exact and_congr_left' eq_comm
  have hkey : ∀ op compiled, compileOp spec op = .ok compiled → literals op = compiled.literalCount :=
    fun op compiled hop => (compileOp_ok hop).2.2.1.symm
  exact LastMax.maxByKey_rel hkey hmatching

/-- The contract of a specification, for a request. -/
structure EnforcedAt (spec : Json) (plugin : OasValidatorPlugin) (ctx : Context) : Prop where
  unmatched : matching spec ctx.request = [] → plugin.execute ctx = .ok { context := ctx, namedOutputs := ∅ }
  best : matching spec ctx.request ≠ [] → ∃ op ∈ matching spec ctx.request, chosen spec ctx.request = some op ∧
    ∀ other ∈ matching spec ctx.request, literals other ≤ literals op
  passes_iff : ∀ op, chosen spec ctx.request = some op →
    ((∃ output, plugin.execute ctx = .ok output) ↔ Meets spec op ctx.request)

/-- What the node looks at besides the contract makes no difference: the parameters that are overridden are
    there where the request is valid, and an invalid body is of another declared type exactly when the
    node does not look at it. -/
def Agrees (spec : Json) (op : SpecOp) (request : GatewayRequest) : Prop :=
  Complete spec op request →
    (BodyValid spec op request → OverriddenPresent spec op request) ∧
    (¬ BodyValid spec op request → (OtherDeclared spec op request ↔
      OverriddenPresent spec op request ∧ OasValidatorPlugin.isJson request = false))

/-- What the node lets through, where an operation is chosen. -/
theorem passes_iff (h : List.Forall₂ (fun op compiled => compileOp spec op = .ok compiled) (operationsOf spec)
      plugin.operations) {ctx : Context} {op : SpecOp} (hop : chosen spec ctx.request = some op) :
    (∃ output, plugin.execute ctx = .ok output) ↔
      Complete spec op ctx.request ∧ OverriddenPresent spec op ctx.request ∧
        (OasValidatorPlugin.isJson ctx.request = true → BodyValid spec op ctx.request) := by
  have hrel := chosen_rel h ctx.request
  rw [hop] at hrel
  generalize hmatch : plugin.matchOperation ctx.request.method ctx.request.path = compiled at hrel
  cases hrel with
  | @some _ compiled hcompiled =>
    rw [← check_iff hcompiled]
    constructor
    · rintro ⟨output, hpasses⟩
      exact (OasValidatorPlugin.execute_ok_iff.mp hpasses).2 compiled hmatch
    · intro hcheck
      refine ⟨_, OasValidatorPlugin.execute_ok_iff.mpr ⟨rfl, fun other hother => ?_⟩⟩
      rw [hmatch] at hother
      obtain rfl := Option.some.inj hother
      exact hcheck

/-- A specification that was compiled is enforced where the two agree. -/
theorem enforcedAt_iff_agrees (h : List.Forall₂ (fun op compiled => compileOp spec op = .ok compiled)
      (operationsOf spec) plugin.operations) (ctx : Context) :
    EnforcedAt spec plugin ctx ↔ ∀ op, chosen spec ctx.request = some op → Agrees spec op ctx.request := by
  have hbest : matching spec ctx.request ≠ [] → ∃ op ∈ matching spec ctx.request,
      chosen spec ctx.request = some op ∧ ∀ other ∈ matching spec ctx.request, literals other ≤ literals op := by
    intro hne
    obtain ⟨op, hop⟩ : ∃ op, chosen spec ctx.request = some op :=
      Option.ne_none_iff_exists'.mp (mt LastMax.maxByKey_eq_none.mp hne)
    obtain ⟨hmem, hmost⟩ := LastMax.maxByKey_spec hop
    exact ⟨op, hmem, hop, hmost⟩
  have hunmatched : matching spec ctx.request = [] →
      plugin.execute ctx = .ok { context := ctx, namedOutputs := ∅ } := by
    intro hnone
    refine OasValidatorPlugin.execute_ok_iff.mpr ⟨rfl, fun compiled hcompiled => ?_⟩
    have hrel := chosen_rel h ctx.request
    rw [hcompiled, show chosen spec ctx.request = none from LastMax.maxByKey_eq_none.mpr hnone] at hrel
    cases hrel
  have hagrees : ∀ op, chosen spec ctx.request = some op →
      (((∃ output, plugin.execute ctx = .ok output) ↔ Meets spec op ctx.request) ↔
        Agrees spec op ctx.request) := by
    intro op hop
    rw [passes_iff h hop]
    unfold Meets Agrees
    by_cases hcomplete : Complete spec op ctx.request
    · -- only a request without a missing parameter or body can tell the two apart
      rw [and_iff_right hcomplete, and_iff_right hcomplete, forall_prop_of_true hcomplete]
      by_cases hvalid : BodyValid spec op ctx.request
      · rw [iff_true_right (Or.inl hvalid), forall_prop_of_true hvalid,
          and_iff_left (fun hnot => absurd hvalid hnot), and_iff_left (fun _ => hvalid)]
      · have hskipped : (OasValidatorPlugin.isJson ctx.request = true → BodyValid spec op ctx.request) ↔
            OasValidatorPlugin.isJson ctx.request = false := by
          rw [← Bool.not_eq_true]
          exact ⟨fun hskips hjson => hvalid (hskips hjson), fun hnot hjson => absurd hjson hnot⟩
        rw [or_iff_right hvalid, forall_prop_of_true hvalid, and_iff_right (fun hyes => absurd hyes hvalid),
          hskipped]
        exact iff_comm
    · exact iff_of_true (iff_of_false (fun hpasses => hcomplete hpasses.1) fun hmeets => hcomplete hmeets.1)
        fun hyes => absurd hyes hcomplete
  constructor
  · intro henforced op hop
    exact (hagrees op hop).mp (henforced.passes_iff op hop)
  · intro hall
    exact ⟨hunmatched, hbest, fun op hop => (hagrees op hop).mpr (hall op hop)⟩

/-- **Where the contract is enforced.** -/
theorem enforcedAt_iff {config : HashMap Json} (h : OasValidatorPlugin.fromConfig config = .ok plugin)
    (ctx : Context) : ∃ spec, config["spec"]? = some spec ∧
      (EnforcedAt spec plugin ctx ↔ ∀ op, chosen spec ctx.request = some op → Agrees spec op ctx.request) := by
  obtain ⟨spec, hspec, hoperations⟩ := OasValidatorPlugin.operations_compiled h
  exact ⟨spec, hspec, enforcedAt_iff_agrees hoperations ctx⟩

end Compiled

/-! ## An overridden header, and a body of no declared type -/

/-- The schema without keywords: every value is valid. -/
abbrev trueSchema : JsonSchema where
  Validator := Unit
  validatorFor schema := if schema = .object [] then .ok () else .error "a schema with keywords"
  validate _ _ := .ok ()
  Valid _ _ := True
  validate_iff _ _ := iff_of_true rfl trivial

def keyHeader (required : Bool) : Json :=
  .object [("in", .string "header"), ("name", .string "x-key"), ("required", .bool required)]

/-- The operation `get` makes the header of its path optional. -/
def getOperation : Json := .object [("parameters", .array [keyHeader false])]

/-- The operation `post` has a body, which is JSON. -/
def postOperation : Json :=
  .object [("requestBody", .object [("content", .object [("application/json", .object [("schema", .object [])])])])]

def exampleItem : Json :=
  .object [("get", getOperation), ("parameters", .array [keyHeader true]), ("post", postOperation)]

def exampleSpec : Json := .object [("paths", .object [("/a", exampleItem)])]

def exampleConfig : HashMap Json := (∅ : HashMap Json).insert "spec" exampleSpec

def requestTo (method : String) (headers : HashMap (List String)) (body : Bytes) : Context :=
  Context.new { (default : GatewayRequest) with method := method, path := "/a", headers := headers, body := body }

def textHeaders : HashMap (List String) :=
  ((∅ : HashMap (List String)).insert "content-type" ["text/plain"]).insert "x-key" ["k"]

theorem exampleConfig_spec : exampleConfig["spec"]? = some exampleSpec := by
  unfold exampleConfig
  rw [HashMap.get_insert, if_pos rfl]

theorem exampleConfig_compiles :
    ∃ plugin, @OasValidatorPlugin.fromConfig asciiCaseMapping trueSchema exampleConfig = .ok plugin := by
  have hcode : exampleConfig["rejected_code"]? = none := by
    unfold exampleConfig
    rw [HashMap.get_insert, if_neg (by decide)]
    rfl
  unfold OasValidatorPlugin.fromConfig OasValidatorPlugin.readRejectedCode
  rw [exampleConfig_spec, hcode]
  exact ⟨_, rfl⟩

/-- Without the optional header, `get` is refused. -/
theorem not_agrees_get :
    let _ : CaseMapping := asciiCaseMapping
    let _ : JsonSchema := trueSchema
    let _ : JsonCodec := compactJson
    ¬ Agrees exampleSpec ⟨"/a", exampleItem, "get", getOperation⟩ (requestTo "GET" ∅ []).request := by
  intro _ _ _ hagrees
  have hpath : paramsOf exampleSpec exampleItem = [keyHeader true] := rfl
  have hown : paramsOf exampleSpec getOperation = [keyHeader false] := rfl
  have hkey : ∀ b, keyOf (keyHeader b) = some (.header "x-key") := fun b => rfl
  have hoptional : ∀ key, ¬ RequiredIn (paramsOf exampleSpec getOperation) key := by
    rintro key ⟨param, hmem, -, hrequired⟩
    rw [hown, List.mem_singleton] at hmem
    rw [hmem] at hrequired
    exact absurd hrequired (by decide)
  have hcomplete : Complete exampleSpec ⟨"/a", exampleItem, "get", getOperation⟩ (requestTo "GET" ∅ []).request := by
    constructor
    · rintro key (hrequired | ⟨⟨param, hmem, hparam, -⟩, hnone⟩)
      · exact absurd hrequired (hoptional key)
      · -- the entry of the path has the key of the operation's own
        rw [hpath, List.mem_singleton] at hmem
        rw [hmem, hkey] at hparam
        refine absurd ((hkey false).trans hparam) (hnone _ ?_)
        rw [hown]
        exact List.mem_cons_self
    · intro hrequired
      exact absurd hrequired (by decide)
  have hoverridden : Overridden exampleSpec ⟨"/a", exampleItem, "get", getOperation⟩ (.header "x-key") := by
    refine ⟨⟨keyHeader true, ?_, hkey true, rfl⟩, ⟨keyHeader false, ?_, hkey false⟩, hoptional _⟩
    · rw [hpath]
      exact List.mem_cons_self
    · rw [hown]
      exact List.mem_cons_self
  have habsent : ¬ (∅ : HashMap (List String)).contains "x-key" = true := by decide
  exact habsent ((hagrees hcomplete).1 (fun hbody => absurd rfl hbody) _ hoverridden)

/-- A body that is no JSON is let through as text. -/
theorem not_agrees_post :
    let _ : CaseMapping := asciiCaseMapping
    let _ : JsonSchema := trueSchema
    let _ : JsonCodec := compactJson
    ¬ Agrees exampleSpec ⟨"/a", exampleItem, "post", postOperation⟩
      (requestTo "POST" textHeaders [0x78]).request := by
  intro _ _ _ hagrees
  have hpath : paramsOf exampleSpec exampleItem = [keyHeader true] := rfl
  have hown : paramsOf exampleSpec postOperation = [] := rfl
  have hcontains : textHeaders.contains "x-key" = true := by
    unfold textHeaders
    rw [Std.ExtTreeMap.contains_insert, Std.compare_eq_iff_eq.mpr rfl]
    rfl
  have htype : textHeaders["content-type"]? = some ["text/plain"] := by
    unfold textHeaders
    rw [HashMap.get_insert, if_neg (by decide), HashMap.get_insert, if_pos rfl]
  have hcomplete : Complete exampleSpec ⟨"/a", exampleItem, "post", postOperation⟩
      (requestTo "POST" textHeaders [0x78]).request := by
    constructor
    · rintro key (⟨param, hmem, -, -⟩ | ⟨⟨param, hmem, hparam, -⟩, -⟩)
      · rw [hown] at hmem
        cases hmem
      · rw [hpath, List.mem_singleton] at hmem
        rw [hmem] at hparam
        obtain rfl := Option.some.inj hparam
        exact hcontains
    · intro hrequired
      exact absurd hrequired (by decide)
  have hinvalid : ¬ BodyValid exampleSpec ⟨"/a", exampleItem, "post", postOperation⟩
      (requestTo "POST" textHeaders [0x78]).request := by
    intro hvalid
    obtain ⟨v, hparse, -⟩ := hvalid (List.cons_ne_nil _ _) (.object []) rfl
    have hnone : compactJson.parse [0x78] = none := by decide +kernel
    exact absurd (hparse.symm.trans hnone) (Option.some_ne_none v)
  have hvalue : (requestTo "POST" textHeaders [0x78]).request.headers["content-type"]?.bind List.head? =
      some "text/plain" := congrArg (fun values => Option.bind values List.head?) htype
  have hskipped : OasValidatorPlugin.isJson (requestTo "POST" textHeaders [0x78]).request = false := by
    rw [OasValidatorPlugin.isJson_of_type hvalue]
    decide +kernel
  have hoverridden : OverriddenPresent exampleSpec ⟨"/a", exampleItem, "post", postOperation⟩
      (requestTo "POST" textHeaders [0x78]).request := by
    rintro key ⟨-, ⟨param, hmem, -⟩, -⟩
    rw [hown] at hmem
    cases hmem
  obtain ⟨value, hmem, -, declared, hdeclared, hcovers⟩ :=
    ((hagrees hcomplete).2 hinvalid).mpr ⟨hoverridden, hskipped⟩
  obtain rfl := Option.some.inj (hvalue.symm.trans hmem)
  obtain rfl := List.mem_singleton.mp hdeclared
  rcases hcovers with h | h | ⟨main, hrange, -⟩
  · exact absurd h (by decide +kernel)
  · exact absurd h (by decide +kernel)
  · have hlast := congrArg (fun s : String => s.toList.getLast?) hrange
    dsimp only at hlast
    rw [String.toList_append, List.getLast?_append_of_ne_nil _ (by decide)] at hlast
    exact absurd hlast (by decide +kernel)

/-- Both requests are answered against the contract. -/
theorem overridden_and_undeclared :
    let _ : CaseMapping := asciiCaseMapping
    let _ : JsonSchema := trueSchema
    let _ : JsonCodec := compactJson
    let _ : JsonErrorText := ⟨fun _ => ""⟩
    ∃ plugin, OasValidatorPlugin.fromConfig exampleConfig = .ok plugin ∧
      ¬ EnforcedAt exampleSpec plugin (requestTo "GET" ∅ []) ∧
      ¬ EnforcedAt exampleSpec plugin (requestTo "POST" textHeaders [0x78]) := by
  intro _ _ _ _
  obtain ⟨plugin, hplugin⟩ := exampleConfig_compiles
  obtain ⟨spec, hspec, hcompiled⟩ := OasValidatorPlugin.operations_compiled hplugin
  obtain rfl := Option.some.inj (exampleConfig_spec.symm.trans hspec)
  refine ⟨plugin, hplugin, fun henforced => ?_, fun henforced => ?_⟩
  · exact not_agrees_get ((enforcedAt_iff_agrees hcompiled _).mp henforced _ (by decide +kernel))
  · exact not_agrees_post ((enforcedAt_iff_agrees hcompiled _).mp henforced _ (by decide +kernel))

theorem enforcedAt_iff_get :
    let _ : CaseMapping := asciiCaseMapping
    let _ : JsonSchema := trueSchema
    let _ : JsonCodec := compactJson
    let _ : JsonErrorText := ⟨fun _ => ""⟩
    ∃ plugin, OasValidatorPlugin.fromConfig exampleConfig = .ok plugin ∧ ∃ spec,
      exampleConfig["spec"]? = some spec ∧ (EnforcedAt spec plugin (requestTo "GET" ∅ []) ↔
        ∀ op, chosen spec (requestTo "GET" ∅ []).request = some op →
          Agrees spec op (requestTo "GET" ∅ []).request) := by
  intro _ _ _ _
  obtain ⟨plugin, hplugin⟩ := exampleConfig_compiles
  exact ⟨plugin, hplugin, enforcedAt_iff hplugin (requestTo "GET" ∅ [])⟩

end OasValidator

end Featherbit
