/-
  THE `oas-validator` NODE (`plugins/native/oas_validator.rs`).

  A specification is compiled once: each operation gets its segments, the names of the parameters that are
  required, and the schema of its body.  A request is checked against the operation with the most literal
  segments among those that its method and path match.

  1. **Compilation** (`operations_compiled`) — the node has the operations of the specification, in its order.
  2. **A request** (`execute_ok_iff`) — it is let through, as it is, if no operation matches or the check of
     the chosen one finds nothing.
-/
import Featherbit.Json.Text
import Featherbit.Lib.LastMax
import Featherbit.Lib.Placeholders
import Featherbit.Lib.TryFold
import Featherbit.Plugins.DataMask
import Featherbit.Plugins.ExternalAuth

namespace Featherbit

/-- `jsonschema`: a schema is compiled, and then says which values are valid. -/
class JsonSchema where
  Validator : Type
  validatorFor : Json → Except String Validator
  validate : Validator → Json → Except String Unit
  /-- What JSON Schema says of a schema and a value. -/
  Valid : Json → Json → Prop
  validate_iff : ∀ {schema validator}, validatorFor schema = .ok validator →
    ∀ v, validate validator v = .ok () ↔ Valid schema v

namespace OasValidator

/-! ## Paths -/

/-- One segment of a templated path. -/
inductive Segment where
  | literal (s : String)
  | param
deriving DecidableEq

def Segment.isLiteral : Segment → Bool
  | literal _ => true
  | param => false

/-- A segment against a part of the request's path. -/
def Segment.accepts (part : String) : Segment → Bool
  | literal lit => lit = part
  | param => part ≠ ""

/-- The parts of a path that are not empty. -/
def pathParts (path : String) : List String := (splitChar '/' path).filter (· ≠ "")

def parseSegment (part : String) : Segment :=
  if part.toList.head? = some '{' ∧ part.toList.getLast? = some '}' then .param else .literal part

/-- `parse_template`, with the number of literal segments. -/
def parseTemplate (path : String) : List Segment × Nat :=
  let segments := (pathParts path).map parseSegment
  (segments, segments.countP Segment.isLiteral)

/-- `path_matches`. -/
def pathMatches (segments : List Segment) (reqPath : String) : Bool :=
  let parts := pathParts reqPath
  if parts.length ≠ segments.length then false
  else (segments.zip parts).all fun (seg, part) => seg.accepts part

/-! ## References -/

/-- `serde_json`'s `parse_index`. -/
def parseIndex (s : String) : Option Nat :=
  if startsWith s "+" || (startsWith s "0" && s.utf8ByteSize ≠ 1) then none else DataMaskPlugin.parseUsize s

/-- A token of a pointer, with its escapes replaced. -/
def unescapeToken (token : String) : String :=
  String.ofList (Placeholders.replace ['~', '0'] ['~'] (Placeholders.replace ['~', '1'] ['/'] token.toList))

/-- One step of a pointer. -/
def pointerStep (target : Json) (token : String) : Option Json :=
  match target with
  | .object fields => fields.lookup token
  | .array items => (parseIndex token).bind fun i => items[i]?
  | _ => none

/-- `value.pointer(pointer)`. -/
def pointer (root : Json) (pointer : String) : Option Json :=
  if pointer = "" then some root
  else if startsWith pointer "/" then
    (((splitChar '/' pointer).drop 1).map unescapeToken).foldlM pointerStep root
  else none

/-- `resolve_ref`. -/
def resolveRef (root : Json) (reference : String) : Option Json :=
  (stripPrefix "#" reference).bind (pointer root)

/-- A value, or what it refers to; `what` is for the message. -/
def resolve (what : String) (spec raw : Json) : Except String Json :=
  match (raw.get "$ref").bind Json.asStr with
  | some r =>
    match resolveRef spec r with
    | some v => .ok v
    | none => .error ("oas-validator: unresolved " ++ what ++ " $ref '" ++ r ++ "'")
  | none => .ok raw

/-! ## Parameters -/

/-- A field that is `true`. -/
def isRequired (v : Json) : Bool := ((v.get "required").bind Json.asBool).getD false

section Collect

variable [CaseMapping]

/-- One parameter, added to the names of the query and of the headers. -/
def pushParam (required : List String × List String) (param : Json) : List String × List String :=
  if isRequired param then
    match (param.get "name").bind Json.asStr with
    | some name =>
      match (param.get "in").bind Json.asStr with
      | some "query" => (required.1 ++ [name], required.2)
      | some "header" => (required.1, required.2 ++ [toLowercase name])
      | _ => required
    | none => required
  else required

/-- One list of parameters. -/
def collectList (spec : Json) (required : List String × List String) (list : Json) :
    Except String (List String × List String) :=
  match list.asArray with
  | none => .error "oas-validator: 'parameters' must be an array"
  | some arr => arr.foldlM (fun required raw => do
      let param ← resolve "parameter" spec raw
      .ok (pushParam required param)) required

/-- `collect_required_params`. -/
def collectRequiredParams (spec pathItem operation : Json) : Except String (List String × List String) :=
  ((pathItem.get "parameters").toList ++ (operation.get "parameters").toList).foldlM (collectList spec) ([], [])

end Collect

/-! ## Bodies -/

/-- The components of the specification, embedded where the schema has none of its own. -/
def embedComponents (spec : Json) (schema : List (String × Json)) : Json :=
  match spec.get "components", schema.lookup "components" with
  | some components, none => .object (Json.insertField "components" components schema)
  | _, _ => .object schema

/-- `compile_body_schema`. -/
def compileBodySchema [JsonSchema] (spec operation : Json) (method template : String) :
    Except String (Option JsonSchema.Validator × Bool) :=
  match operation.get "requestBody" with
  | none => .ok (none, false)
  | some requestBody => do
    let requestBody ← resolve "requestBody" spec requestBody
    let bodyRequired := isRequired requestBody
    match ((requestBody.get "content").bind (Json.get "application/json")).bind (Json.get "schema") with
    | none => .ok (none, bodyRequired)
    | some (.object schema) =>
      match JsonSchema.validatorFor (embedComponents spec schema) with
      | .ok validator => .ok (some validator, bodyRequired)
      | .error e =>
        .error ("oas-validator: invalid requestBody schema for " ++ method ++ " " ++ template ++ ": " ++ e)
    | some _ =>
      .error ("oas-validator: " ++ method ++ " " ++ template ++ " requestBody schema must be an object")

/-! ## Operations -/

/-- An operation of the specification, where it stands. -/
structure SpecOp where
  template : String
  pathItem : Json
  method : String
  operation : Json
deriving DecidableEq

structure CompiledOp [JsonSchema] where
  /-- in upper case -/
  method : String
  segments : List Segment
  literalCount : Nat
  requiredQuery : List String
  requiredHeaders : List String
  bodySchema : Option JsonSchema.Validator
  bodyRequired : Bool

def httpMethods : List String := ["get", "put", "post", "delete", "options", "head", "patch", "trace"]

/-- The operations under a path. -/
def operationsAt (path : String × Json) : List SpecOp :=
  httpMethods.filterMap fun method => (path.2.get method).map fun operation =>
    { template := path.1, pathItem := path.2, method, operation }

/-- The paths of a specification. -/
def pathsOf (spec : Json) : Option (List (String × Json)) := (spec.get "paths").bind Json.asObject

/-- The operations of a specification. -/
def operationsOf (spec : Json) : List SpecOp := ((pathsOf spec).getD []).flatMap operationsAt

section Compile

variable [CaseMapping] [JsonSchema]

def compileOp (spec : Json) (op : SpecOp) : Except String CompiledOp :=
  if op.operation.asObject.isNone then
    .error ("oas-validator: operation '" ++ op.method ++ " " ++ op.template ++ "' must be an object")
  else do
    let required ← collectRequiredParams spec op.pathItem op.operation
    let body ← compileBodySchema spec op.operation op.method op.template
    .ok {
      method := toUppercase op.method
      segments := (parseTemplate op.template).1
      literalCount := (parseTemplate op.template).2
      requiredQuery := required.1
      requiredHeaders := required.2
      bodySchema := body.1
      bodyRequired := body.2 }

def compilePath (spec : Json) (path : String × Json) : Except String (List CompiledOp) :=
  if path.2.asObject.isNone then .error ("oas-validator: path item '" ++ path.1 ++ "' must be an object")
  else (operationsAt path).mapM (compileOp spec)

end Compile

end OasValidator

open OasValidator

structure OasValidatorPlugin [JsonSchema] where
  operations : List CompiledOp
  rejectedCode : UInt16
  rejectedMsg : Option String

namespace OasValidatorPlugin

section Config

variable [CaseMapping] [JsonSchema]

/-- The `rejected_code` key. -/
def readRejectedCode (config : HashMap Json) : Except String UInt16 :=
  match config["rejected_code"]? with
  | none => .ok 400
  | some v =>
    match v.asU64.filter fun c => 400 ≤ c && c ≤ 599 with
    | some code => .ok code.toUInt16
    | none => .error "oas-validator: 'rejected_code' must be an integer in 400..=599"

/-- `OasValidatorPlugin::from_config`. -/
def fromConfig (config : HashMap Json) : Except String OasValidatorPlugin :=
  match config["spec"]? with
  | none => .error "oas-validator: 'spec' (inline OpenAPI JSON object) is required"
  | some spec =>
    if spec.asObject.isNone then .error "oas-validator: 'spec' must be a JSON object"
    else
      match pathsOf spec with
      | none => .error "oas-validator: spec is missing a 'paths' object"
      | some paths => do
        let operations ← paths.mapM (compilePath spec)
        let rejectedCode ← readRejectedCode config
        .ok {
          operations := operations.flatten
          rejectedCode
          rejectedMsg := config["rejected_msg"]?.bind Json.asStr }

/-- **Compilation.**  The node has the operations of the specification, in its order. -/
theorem operations_compiled {config : HashMap Json} {plugin : OasValidatorPlugin}
    (h : fromConfig config = .ok plugin) : ∃ spec, config["spec"]? = some spec ∧
      List.Forall₂ (fun op compiled => compileOp spec op = .ok compiled) (operationsOf spec)
        plugin.operations := by
  unfold fromConfig at h
  split at h
  · cases h
  · rename_i spec hspec
    split at h
    · cases h
    · split at h
      · cases h
      · rename_i paths hpaths
        obtain ⟨rows, hrows, h⟩ := TryFold.bind_eq_ok.mp h
        obtain ⟨code, -, h⟩ := TryFold.bind_eq_ok.mp h
        obtain rfl := Except.ok.inj h
        refine ⟨spec, hspec, ?_⟩
        have hoperations : operationsOf spec = (paths.map operationsAt).flatten := by
          unfold operationsOf
          rw [hpaths]
          exact List.flatMap_def
        rw [hoperations]
        refine List.rel_flatten ?_
        rw [List.forall₂_map_left_iff]
        refine (TryFold.mapM_eq_ok.mp hrows).imp fun path row hrow => ?_
        unfold compilePath at hrow
        split at hrow
        · cases hrow
        · exact TryFold.mapM_eq_ok.mp hrow

end Config

/-! ## A request -/

theorem find?_absent_iff {m : HashMap (List String)} {names : List String} :
    names.find? (fun name => !m.contains name) = none ↔ ∀ name ∈ names, m.contains name = true := by
  rw [List.find?_eq_none]
  refine forall₂_congr fun name _ => ?_
  rw [Bool.not_eq_true, Bool.not_eq_false']

section Execute

variable [CaseMapping] [JsonCodec] [JsonErrorText] [JsonSchema] (plugin : OasValidatorPlugin)

/-- `match_operation`: the last of those with the most literal segments. -/
def matchOperation (method path : String) : Option CompiledOp :=
  LastMax.maxByKey CompiledOp.literalCount
    (plugin.operations.filter fun op => op.method = method ∧ pathMatches op.segments path)

/-- `reject`. -/
def reject (ctx : Context) (detail : String) : PluginExecutionError :=
  let message := plugin.rejectedMsg.getD detail
  { context := { ctx with
      response := { ctx.response with
        statusCode := plugin.rejectedCode
        body := asBytes (JsonText.toText
          (.object [("error", .string "oas_validation_failed"), ("message", .string message)]))
        headers := ctx.response.headers.insert "content-type" ["application/json"] } }
    error := { nodeId := "", code := "OAS_VALIDATION_FAILED", message, metadata := ∅ } }

/-- Whether a body is taken for JSON; without a content type it is. -/
def isJson (request : GatewayRequest) : Bool :=
  match request.headers["content-type"]?.bind List.head? with
  | some contentType => startsWith (toLowercase contentType) "application/json"
  | none => true

/-- The check of a body that is not empty. -/
def checkBody (op : CompiledOp) (request : GatewayRequest) : Except String Unit :=
  match op.bodySchema with
  | none => .ok ()
  | some validator =>
    if request.body ≠ [] ∧ isJson request then
      match JsonCodec.parse request.body with
      | none => .error ("failed to decode the request body: " ++ JsonErrorText.parseError request.body)
      | some parsed =>
        match JsonSchema.validate validator parsed with
        | .ok () => .ok ()
        | .error e => .error ("body validation failed: " ++ e)
    else .ok ()

/-- The first violation of an operation. -/
def check (op : CompiledOp) (request : GatewayRequest) : Except String Unit :=
  match op.requiredQuery.find? fun q => !request.queryParams.contains q with
  | some q => .error ("missing required query parameter '" ++ q ++ "'")
  | none =>
    match op.requiredHeaders.find? fun h => !request.headers.contains h with
    | some h => .error ("missing required header '" ++ h ++ "'")
    | none =>
      if op.bodyRequired ∧ request.body = [] then .error "request body is required"
      else checkBody op request

def execute (ctx : Context) : PluginResult :=
  match plugin.matchOperation ctx.request.method ctx.request.path with
  | none => .ok { context := ctx, namedOutputs := ∅ }
  | some op =>
    match check op ctx.request with
    | .ok () => .ok { context := ctx, namedOutputs := ∅ }
    | .error detail => .error (plugin.reject ctx detail)

variable {plugin}

omit [JsonCodec] [JsonErrorText] [JsonSchema] in
theorem isJson_of_type {request : GatewayRequest} {contentType : String}
    (h : request.headers["content-type"]?.bind List.head? = some contentType) :
    isJson request = startsWith (toLowercase contentType) "application/json" := by
  unfold isJson
  rw [h]

theorem checkBody_ok_iff {op : CompiledOp} {request : GatewayRequest} :
    checkBody op request = .ok () ↔ ∀ validator, op.bodySchema = some validator → request.body ≠ [] →
      isJson request = true →
        ∃ parsed, JsonCodec.parse request.body = some parsed ∧ JsonSchema.validate validator parsed = .ok () := by
  unfold checkBody
  cases op.bodySchema with
  | none =>
    refine iff_of_true rfl fun validator hnone => ?_
    cases hnone
  | some validator =>
    dsimp only
    split
    · rename_i hchecked
      constructor
      · rintro h _ ⟨⟩ - -
        cases hparse : JsonCodec.parse request.body with
        | none =>
          rw [hparse] at h
          cases h
        | some parsed =>
          rw [hparse] at h
          dsimp only at h
          refine ⟨parsed, rfl, ?_⟩
          split at h
          · assumption
          · cases h
      · intro h
        obtain ⟨parsed, hparse, hvalid⟩ := h validator rfl hchecked.1 hchecked.2
        rw [hparse]
        dsimp only
        rw [hvalid]
    · rename_i hskipped
      exact iff_of_true rfl fun _ _ hbody hjson => absurd ⟨hbody, hjson⟩ hskipped

/-- **What a check asks for.** -/
theorem check_ok_iff {op : CompiledOp} {request : GatewayRequest} : check op request = .ok () ↔
    (∀ name ∈ op.requiredQuery, request.queryParams.contains name = true) ∧
    (∀ name ∈ op.requiredHeaders, request.headers.contains name = true) ∧
    (op.bodyRequired = true → request.body ≠ []) ∧ checkBody op request = .ok () := by
  rw [← find?_absent_iff, ← find?_absent_iff]
  unfold check
  cases op.requiredQuery.find? fun name => !request.queryParams.contains name with
  | some q =>
    refine iff_of_false (fun h => ?_) fun h => ?_
    · cases h
    · cases h.1
  | none =>
    cases op.requiredHeaders.find? fun name => !request.headers.contains name with
    | some q =>
      refine iff_of_false (fun h => ?_) fun h => ?_
      · cases h
      · cases h.2.1
    | none =>
      dsimp only
      split
      · rename_i hmissing
        refine iff_of_false (fun h => ?_) fun h => h.2.2.1 hmissing.1 hmissing.2
        cases h
      · rename_i hpresent
        refine ⟨fun h => ⟨rfl, rfl, fun hrequired hbody => hpresent ⟨hrequired, hbody⟩, h⟩, fun h => h.2.2.2⟩

/-- **A request** that is let through is as it was. -/
theorem execute_ok_iff {ctx : Context} {output : PluginOutput} : plugin.execute ctx = .ok output ↔
    output = { context := ctx, namedOutputs := ∅ } ∧
      ∀ op, plugin.matchOperation ctx.request.method ctx.request.path = some op →
        check op ctx.request = .ok () := by
  unfold execute
  cases plugin.matchOperation ctx.request.method ctx.request.path with
  | none =>
    constructor
    · intro h
      refine ⟨(Except.ok.inj h).symm, fun op hop => ?_⟩
      cases hop
    · rintro ⟨rfl, -⟩
      rfl
  | some op =>
    dsimp only
    cases hcheck : check op ctx.request with
    | ok _ =>
      constructor
      · intro h
        refine ⟨(Except.ok.inj h).symm, fun op' hop => ?_⟩
        obtain rfl := Option.some.inj hop
        exact hcheck
      · rintro ⟨rfl, -⟩
        rfl
    | error detail =>
      refine iff_of_false (fun h => ?_) fun h => ?_
      · cases h
      · have hok := h.2 op rfl
        rw [hcheck] at hok
        cases hok

end Execute

end OasValidatorPlugin

end Featherbit
