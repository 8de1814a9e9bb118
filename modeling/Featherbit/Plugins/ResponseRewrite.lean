/-
  THE `response-rewrite` NODE (`plugins/native/response_rewrite.rs`): status, body and headers of a response
  rewritten before it goes to the client.

  Names of headers are compared without case where entries are removed, and exactly where they are added
  or set.

  1. **The body** (`rewriteBody_replaced`, `rewriteBody_skipped`) — a replaced body takes every entry that
     describes the old one along, in any case; filters that cannot run leave the response alone.
  2. **The headers** (`get_output_iff`) — an entry is there where the configuration has its name, or the
     response does and does not lose it with the body.
  3. **The node** (`consistent_iff`) — a header that was set is there once exactly where no other entry has
     its name in another case; all else holds of every response.
-/
import Featherbit.Plugins.Compression
import Featherbit.Plugins.ResponseHeaders
import Featherbit.Rust.Base64
import Featherbit.Vars.Expr
import Featherbit.Vars.Template

namespace Featherbit

/-- The `regex` crate, with all matches rewritten. -/
class RegexReplacer extends RegexEngine where
  replaceAll : Regex → String → String → String

namespace ResponseRewritePlugin

/-! ## Entries -/

section Entries

variable {headers : HashMap (List String)} {k : String}

theorem eqIgnoreAsciiCase_symm {s t : String} (h : eqIgnoreAsciiCase s t = true) :
    eqIgnoreAsciiCase t s = true := decide_eq_true (of_decide_eq_true h).symm

theorem eqIgnoreAsciiCase_trans {s t u : String} (hst : eqIgnoreAsciiCase s t = true)
    (htu : eqIgnoreAsciiCase t u = true) : eqIgnoreAsciiCase s u = true :=
  decide_eq_true ((of_decide_eq_true hst).trans (of_decide_eq_true htu))

theorem eqIgnoreAsciiCase_self (s : String) : eqIgnoreAsciiCase s s = true := decide_eq_true rfl

/-- A removal takes the entries of its names, in any case, and no others. -/
theorem get_removeCi (source : NameSource) (names : List String) :
    (applyEdits (names.map (HeaderEdit.removeCi source)) headers)[k]? =
      if ∃ name ∈ names, eqIgnoreAsciiCase k name = true then none else headers[k]? := by
  induction names generalizing headers with
  | nil => exact (if_neg (fun ⟨_, h, _⟩ => nomatch h)).symm
  | cons name names ih =>
    rw [List.map_cons, applyEdits, List.foldl_cons]
    change (applyEdits _ (HeaderEdit.apply headers (.removeCi source name)))[k]? = _
    have hcons : (∃ other ∈ name :: names, eqIgnoreAsciiCase k other = true) ↔
        eqIgnoreAsciiCase k name = true ∨ ∃ other ∈ names, eqIgnoreAsciiCase k other = true :=
      List.exists_mem_cons_iff _ _ _
    rw [ih]
    by_cases hrest : ∃ name ∈ names, eqIgnoreAsciiCase k name = true
    · rw [if_pos hrest, if_pos (hcons.mpr (.inr hrest))]
    · rw [if_neg hrest, HeaderEdit.apply, Std.ExtTreeMap.getElem?_filter']
      by_cases hname : eqIgnoreAsciiCase k name = true
      · rw [if_pos (hcons.mpr (.inl hname)), hname]
        cases headers[k]? <;> rfl
      · rw [if_neg (fun h => not_or.mpr ⟨hname, hrest⟩ (hcons.mp h)), Bool.not_eq_true _ |>.mp hname]
        cases headers[k]? <;> rfl

/-- Setting gives each name its last value. -/
theorem get_insert (source : NameSource) (value : String → String) (entries : List (String × String)) :
    (applyEdits (entries.map fun (name, v) => HeaderEdit.insert source name [value v]) headers)[k]? =
      ((entries.reverse.lookup k).map fun v => [value v]).or headers[k]? := by
  induction entries generalizing headers with
  | nil => rfl
  | cons entry entries ih =>
    rw [List.map_cons, applyEdits, List.foldl_cons]
    change (applyEdits _ (headers.insert entry.1 [value entry.2]))[k]? = _
    rw [ih, HashMap.get_insert, List.reverse_cons, List.lookup_append]
    cases entries.reverse.lookup k with
    | some v => rfl
    | none =>
      rw [Option.map_none, Option.none_or, Option.none_or, List.lookup_cons]
      by_cases hk : k = entry.1
      · rw [if_pos hk, beq_iff_eq.mpr hk]
        rfl
      · rw [if_neg hk, beq_eq_false_iff_ne.mpr hk]
        rfl

/-- Adding gives entries to its names, and to no others. -/
theorem get_push (source : NameSource) (value : String → String) (entries : List (String × String)) :
    ((applyEdits (entries.map fun (name, v) => HeaderEdit.push source name (value v)) headers)[k]? ≠ none ↔
      headers[k]? ≠ none ∨ k ∈ entries.map Prod.fst) ∧
    (k ∉ entries.map Prod.fst →
      (applyEdits (entries.map fun (name, v) => HeaderEdit.push source name (value v)) headers)[k]? =
        headers[k]?) := by
  induction entries generalizing headers with
  | nil => exact ⟨(or_iff_left List.not_mem_nil).symm, fun _ => rfl⟩
  | cons entry entries ih =>
    rw [List.map_cons, applyEdits, List.foldl_cons]
    change ((applyEdits _ (headers.insert entry.1 _))[k]? ≠ none ↔ _) ∧
      (_ → (applyEdits _ (headers.insert entry.1 _))[k]? = _)
    obtain ⟨hadded, hother⟩ := @ih (headers.insert entry.1 (headers[entry.1]?.getD [] ++ [value entry.2]))
    rw [List.map_cons, List.mem_cons]
    rw [HashMap.get_insert] at hadded hother
    by_cases hk : k = entry.1
    · rw [if_pos hk] at hadded
      exact ⟨iff_of_true (hadded.mpr (.inl (Option.some_ne_none _))) (.inr (.inl hk)),
        fun h => absurd (.inl hk) h⟩
    · rw [if_neg hk] at hadded hother
      rw [or_iff_right hk]
      exact ⟨hadded, hother⟩

end Entries

end ResponseRewritePlugin

section Rewrite

variable [RegexReplacer] [JsonText] [CaseMapping]

/-- A body filter: a substitution applied once or globally. -/
structure BodyFilter where
  regex : RegexEngine.Regex
  replace : String
  global : Bool

/-- A configured `response-rewrite` node. -/
structure ResponseRewritePlugin where
  statusCode : Option UInt16
  /-- already decoded when `body_base64` was set -/
  body : Option Bytes
  filters : List BodyFilter
  /-- `body` and `filters` are mutually exclusive -/
  exclusive : body = none ∨ filters = []
  addHeaders : List (String × String)
  setHeaders : List (String × String)
  removeHeaders : List String
  vars : Option Expr

namespace ResponseRewritePlugin

/-- Headers that are derived from the body. -/
def bodyDerivedHeaders : List String := ["content-length", "content-encoding", "last-modified", "etag"]

/-! ## Configuration -/

/-- `header_value_to_string`. -/
def headerValueToString : Json → Option String
  | .string s => some s
  | .number n => (Json.number n).scalar
  | _ => none

/-- `parse_add_entry`: `Name: value`. -/
def parseAddEntry (entry : String) : Except String (String × String) :=
  match splitOnceChar ':' entry with
  | none => .error ("headers.add entry '" ++ entry ++ "' must be 'Name: value'")
  | some (name, value) =>
    let name := trim name
    let value := trim value
    if name = "" ∨ name.toList.any isWhitespace then
      .error ("headers.add entry '" ++ entry ++ "' has an invalid header name")
    else if value = "" ∨ ':' ∈ value.toList then
      .error ("headers.add entry '" ++ entry ++
        "' has an invalid header value (must be non-empty, no ':')")
    else .ok (toLowercase name, value)

/-- The items of a list, each read. -/
def readItems {α : Type} (v : Option Json) (notList : String) (read : Json → Except String α) :
    Except String (List α) :=
  match v with
  | none => .ok []
  | some v => match v.asArray with
    | some items => items.mapM read
    | none => .error notList

/-- The fields of an object, each one a header to set. -/
def readSet (fields : List (String × Json)) (invalid : String → String) :
    Except String (List (String × String)) :=
  fields.mapM fun (name, value) =>
    match headerValueToString value with
    | some v => .ok (toLowercase name, v)
    | none => .error (invalid name)

/-- One of the three lists makes the shape the structured one. -/
def isStructured (raw : Json) : Bool :=
  ((raw.get "add").bind Json.asArray).isSome ||
  (match raw.get "set" with
    | some (.object _) => true
    | _ => false) ||
  ((raw.get "remove").bind Json.asArray).isSome

/-- `parse_headers`: what to add, to set and to remove. -/
def parseHeaders (raw : Json) :
    Except String (List (String × String) × List (String × String) × List String) :=
  match raw with
  | .object fields =>
    if isStructured raw then do
      let add ← readItems (raw.get "add") "headers.add must be an array" fun entry =>
        match entry.asStr with
        | some s => parseAddEntry s
        | none => .error "headers.add entries must be strings ('Name: value')"
      let set ← match raw.get "set" with
        | none => pure []
        | some (.object entries) =>
          readSet entries fun name => "headers.set['" ++ name ++ "'] must be a string or number"
        | some _ => throw "headers.set must be a map"
      let remove ← readItems (raw.get "remove") "headers.remove must be an array" fun name =>
        match name.asStr with
        | some s => .ok (toLowercase s)
        | none => .error "headers.remove entries must be strings"
      return (add, set, remove)
    else do
      let set ← readSet fields fun name => "headers['" ++ name ++ "'] must be a string or number"
      return ([], set, [])
  | _ => .error "headers must be an object"

/-- The `scope` of a filter: is it global? -/
def parseScope : Option String → Except String Bool
  | none | some "once" => .ok false
  | some "global" => .ok true
  | some other => .error ("filters scope must be 'once' or 'global', got '" ++ other ++ "'")

/-- The flags that the `options` of a filter put in front of its pattern. -/
def parseOptions : String → Except String String
  | "" => .ok ""
  | "i" => .ok "(?i)"
  | other => .error ("filters options only supports 'i' (case-insensitive), got '" ++ other ++ "'")

/-- `parse_filter`. -/
def parseFilter (v : Json) : Except String BodyFilter :=
  match v with
  | .object _ => do
    let pattern ← match ((v.get "regex").bind Json.asStr).filter (· ≠ "") with
      | some pattern => pure pattern
      | none => throw "filters entries require a non-empty 'regex' string"
    let replace ← match (v.get "replace").bind Json.asStr with
      | some replace => pure replace
      | none => throw "filters entries require a 'replace' string"
    let global ← parseScope ((v.get "scope").bind Json.asStr)
    let flags ← parseOptions (((v.get "options").bind Json.asStr).getD "")
    match RegexEngine.new (flags ++ pattern) with
    | .ok regex => return { regex, replace, global }
    | .error e => throw ("filters regex \"" ++ pattern ++ "\" validation failed: " ++ e)
  | _ => .error "filters entries must be objects"

def parseStatus : Option Json → Except String (Option UInt16)
  | none => .ok none
  | some v =>
    match v.asU64 with
    | none => .error "status_code must be an integer"
    | some code =>
      if 200 ≤ code ∧ code ≤ 598 then .ok (some code.toUInt16)
      else .error ("status_code must be within 200-598, got " ++ showNat code.toNat)

def parseBody [Base64] (base64 : Bool) : Option Json → Except String (Option Bytes)
  | none => if base64 then .error "body_base64 requires 'body' to be set" else .ok none
  | some v =>
    match v.asStr with
    | none => .error "body must be a string"
    | some s =>
      if base64 then
        if s = "" then .error "invalid base64 content"
        else
          match Base64.decode (asBytes (trim s)) with
          | .ok decoded => .ok (some decoded)
          | .error _ => .error "invalid base64 content"
      else .ok (some (asBytes s))

def parseFilters : Option Json → Except String (List BodyFilter)
  | none => .ok []
  | some v =>
    match v.asArray with
    | none => .error "filters must be an array"
    | some [] => .error "filters must contain at least one entry"
    | some items => items.mapM parseFilter

/-- The keys of `proxy-rewrite`, often put here. -/
def misplacedKeys : List String := ["add_headers", "set_headers", "remove_headers"]

/-- `ResponseRewritePlugin::from_config`. -/
def fromConfig [Base64] [IpNetParser] [F64Display] (config : HashMap Json) : Except String ResponseRewritePlugin := do
  match misplacedKeys.find? config.contains with
  | some wrong => throw ("response-rewrite has no '" ++ wrong ++ "' key (that is proxy-rewrite's schema); " ++
      "use headers with add/set/remove, e.g. headers: \x7b set: \x7b x-foo: bar \x7d, " ++
      "remove: [x-powered-by] \x7d")
  | none => pure ()
  let statusCode ← parseStatus config["status_code"]?
  let body ← parseBody ((config["body_base64"]?.bind Json.asBool).getD false) config["body"]?
  let filters ← parseFilters config["filters"]?
  if hboth : body = none ∨ filters = [] then
    let (addHeaders, setHeaders, removeHeaders) ← match config["headers"]? with
      | none => pure ([], [], [])
      | some raw => parseHeaders raw
    let vars ← match config["vars"]? with
      | none => pure none
      | some v =>
        match Expr.parse v with
        | .ok e => pure (some e)
        | .error e => throw ("failed to validate the 'vars' expression: " ++ e)
    return {
      statusCode, body, filters, addHeaders, setHeaders, removeHeaders, vars, exclusive := hboth }
  else throw "'body' and 'filters' are mutually exclusive"

/-! ## Execution -/

/-- `clear_body_derived_headers`. -/
def clearBodyDerivedHeaders (headers : HashMap (List String)) : HashMap (List String) :=
  applyEdits (bodyDerivedHeaders.map (HeaderEdit.removeCi .code)) headers

/-- The response with another body, and what described the old one gone. -/
def replaceBody (ctx : Context) (body : Bytes) : Context :=
  { ctx with response := { ctx.response with
    body := body
    headers := clearBodyDerivedHeaders ctx.response.headers } }

/-- The first value of `content-encoding`. -/
def encodingHeader (ctx : Context) : String :=
  (ctx.response.headers["content-encoding"]?.bind List.head?).getD ""

/-- The body that filters work on. -/
def decodedText [ContentCodec] (ctx : Context) : Option String :=
  match ContentEncoding.parse (encodingHeader ctx) with
  | .error _ => none
  | .ok none => fromUtf8 ctx.response.body
  | .ok (some encoding) =>
    match ContentCodec.decode encoding ctx.response.body with
    | .error _ => none
    | .ok decoded => fromUtf8 decoded

def BodyFilter.apply (filter : BodyFilter) (text : String) : String :=
  if filter.global then RegexReplacer.replaceAll filter.regex text filter.replace
  else RegexEngine.replace filter.regex text filter.replace

section Execute

variable [ContentCodec] (plugin : ResponseRewritePlugin)

/-- `apply_filters`. -/
def applyFilters (ctx : Context) : Context :=
  match decodedText ctx with
  | none => ctx
  | some text => replaceBody ctx (asBytes (plugin.filters.foldl (fun text filter => BodyFilter.apply filter text) text))

/-- The body replaced, or filtered. -/
def rewriteBody (ctx : Context) : Context :=
  match plugin.body with
  | some body => replaceBody ctx body
  | none => if plugin.filters = [] then ctx else plugin.applyFilters ctx

def rewriteStatus (ctx : Context) : Context :=
  match plugin.statusCode with
  | some code => { ctx with response := { ctx.response with statusCode := code } }
  | none => ctx

/-- One edit of the response headers. -/
def editHeaders (ctx : Context) (edit : HeaderEdit) : Context :=
  { ctx with response := { ctx.response with headers := edit.apply ctx.response.headers } }

/-- Header operations, in order: add, set, remove. -/
def rewriteHeaders (ctx : Context) : Context :=
  let ctx := plugin.addHeaders.foldl (fun ctx (name, value) =>
    editHeaders ctx (.push .config name (Vars.interpolate ctx value))) ctx
  let ctx := plugin.setHeaders.foldl (fun ctx (name, value) =>
    editHeaders ctx (.insert .config name [Vars.interpolate ctx value])) ctx
  plugin.removeHeaders.foldl (fun ctx name => editHeaders ctx (.removeCi .config name)) ctx

/-- The `vars` gate lets the request through. -/
def applies (ctx : Context) : Bool := plugin.vars.all fun e => e.eval ctx

/-- What the node makes of a context. -/
def output (ctx : Context) : Context :=
  if plugin.applies ctx then plugin.rewriteHeaders (plugin.rewriteBody (plugin.rewriteStatus ctx))
  else ctx

/-- `execute`. -/
def execute (ctx : Context) : PluginResult :=
  .ok { context := plugin.output ctx, namedOutputs := ∅ }

end Execute

/-! ## Edits -/

section Edits

variable {ctx : Context}

/-- Some edits of the response headers. -/
def editAll (ctx : Context) (edits : List HeaderEdit) : Context :=
  { ctx with response := { ctx.response with headers := applyEdits edits ctx.response.headers } }

omit [RegexReplacer] in
/-- No variable reads the response headers. -/
theorem interpolate_editAll (edits : List HeaderEdit) (template : String) :
    Vars.interpolate (editAll ctx edits) template = Vars.interpolate ctx template := by
  have hresolve : ∀ name, Vars.resolve (editAll ctx edits) name = Vars.resolve ctx name := fun _ => rfl
  exact Vars.interpolate_congr hresolve template

omit [RegexReplacer] in
/-- Edits with values from the context as it stands are edits with values from the first one. -/
theorem foldl_editHeaders (edit : String → String → HeaderEdit) (entries : List (String × String))
    (ctx : Context) : entries.foldl (fun ctx (name, value) =>
        editHeaders ctx (edit name (Vars.interpolate ctx value))) ctx =
      editAll ctx (entries.map fun (name, value) => edit name (Vars.interpolate ctx value)) := by
  induction entries generalizing ctx with
  | nil => rfl
  | cons entry entries ih =>
    have hvalue : ∀ value, Vars.interpolate (editHeaders ctx (edit entry.1 (Vars.interpolate ctx entry.2)))
        value = Vars.interpolate ctx value :=
      interpolate_editAll [edit entry.1 (Vars.interpolate ctx entry.2)]
    rw [List.foldl_cons, ih]
    simp only [hvalue]
    rfl

omit [RegexReplacer] [JsonText] [CaseMapping] in
theorem foldl_removeHeaders (names : List String) (ctx : Context) :
    names.foldl (fun ctx name => editHeaders ctx (.removeCi .config name)) ctx =
      editAll ctx (names.map (HeaderEdit.removeCi .config)) := by
  induction names generalizing ctx with
  | nil => rfl
  | cons name names ih =>
    rw [List.foldl_cons, ih]
    rfl

variable (plugin : ResponseRewritePlugin)

/-- What is added. -/
def addEdits (ctx : Context) : List HeaderEdit :=
  plugin.addHeaders.map fun (name, value) => .push .config name (Vars.interpolate ctx value)

def setEdits (ctx : Context) : List HeaderEdit :=
  plugin.setHeaders.map fun (name, value) => .insert .config name [Vars.interpolate ctx value]

def removeEdits : List HeaderEdit := plugin.removeHeaders.map (.removeCi .config)

theorem rewriteHeaders_eq (ctx : Context) : plugin.rewriteHeaders ctx =
    editAll ctx (plugin.addEdits ctx ++ plugin.setEdits ctx ++ plugin.removeEdits) := by
  unfold rewriteHeaders
  dsimp only
  rw [foldl_editHeaders (.push .config), foldl_editHeaders (fun name value => .insert .config name [value]),
    foldl_removeHeaders]
  simp only [interpolate_editAll]
  unfold editAll addEdits setEdits removeEdits applyEdits
  rw [List.foldl_append, List.foldl_append]

end Edits

/-! ## Consistency -/

section Consistency

variable [ContentCodec] (plugin : ResponseRewritePlugin) (ctx : Context)

/-- The header describes the body, in any case. -/
def Derived (k : String) : Prop := ∃ name ∈ bodyDerivedHeaders, eqIgnoreAsciiCase k name = true

/-- The node puts another body in place; filters do where they can read the body. -/
def Replaces : Prop := plugin.body ≠ none ∨ (plugin.filters ≠ [] ∧ decodedText ctx ≠ none)

def addNames : List String := plugin.addHeaders.map Prod.fst

def setNames : List String := plugin.setHeaders.map Prod.fst

/-- The name is removed, in any case. -/
def Removes (k : String) : Prop := ∃ name ∈ plugin.removeHeaders, eqIgnoreAsciiCase k name = true

instance (k : String) : Decidable (plugin.Removes k) :=
  inferInstanceAs (Decidable (∃ name ∈ plugin.removeHeaders, eqIgnoreAsciiCase k name = true))

/-- The headers have one entry of the name, in any case, with these values. -/
def OneEntry (headers : HashMap (List String)) (name : String) (values : List String) : Prop :=
  headers[name]? = some values ∧
    ∀ k, headers[k]? ≠ none → eqIgnoreAsciiCase k name = true → k = name

/-- What a set header is to be: its last configured value, with the variables of the response by then. -/
def setValue (value : String) : String :=
  Vars.interpolate (plugin.rewriteBody (plugin.rewriteStatus ctx)) value

/-- The headers are consistent with the body and with the configuration. -/
structure Consistent : Prop where
  /-- Of the headers of a replaced body only configured ones are there. -/
  replaced : plugin.applies ctx = true → plugin.Replaces ctx → ∀ k, Derived k →
    (plugin.output ctx).response.headers[k]? ≠ none → k ∈ plugin.addNames ∨ k ∈ plugin.setNames
  /-- A header that was set, and not removed again, is there once. -/
  set : plugin.applies ctx = true → ∀ name value, plugin.setHeaders.reverse.lookup name = some value →
    ¬ plugin.Removes name →
    OneEntry (plugin.output ctx).response.headers name [plugin.setValue ctx value]
  /-- Where nothing is replaced, the body and its headers stay, but for configured ones. -/
  skipped : ¬ (plugin.applies ctx = true ∧ plugin.Replaces ctx) →
    (plugin.output ctx).response.body = ctx.response.body ∧
    ∀ k, Derived k → k ∉ plugin.addNames → k ∉ plugin.setNames → ¬ plugin.Removes k →
      (plugin.output ctx).response.headers[k]? = ctx.response.headers[k]?

/-- A name that the headers have when one is set: it is configured, or the response has it and does not
    lose it with the body. -/
def Present (k : String) : Prop :=
  k ∈ plugin.setNames ∨ k ∈ plugin.addNames ∨
    (ctx.response.headers[k]? ≠ none ∧ ¬ (plugin.Replaces ctx ∧ Derived k))

/-- No header that is set, and not removed again, has an entry in another case. -/
def OneSpelling : Prop :=
  ∀ name ∈ plugin.setNames, ¬ plugin.Removes name → ∀ k, plugin.Present ctx k →
    eqIgnoreAsciiCase k name = true → k = name

variable {plugin ctx}

omit [JsonText] [CaseMapping] [ContentCodec] in
theorem response_status : (plugin.rewriteStatus ctx).response.body = ctx.response.body ∧
    (plugin.rewriteStatus ctx).response.headers = ctx.response.headers := by
  unfold rewriteStatus
  cases plugin.statusCode <;> exact ⟨rfl, rfl⟩

omit [JsonText] [CaseMapping] in
theorem decodedText_status : decodedText (plugin.rewriteStatus ctx) = decodedText ctx := by
  unfold decodedText encodingHeader
  rw [response_status.1, response_status.2]

omit [JsonText] [CaseMapping] in
/-- A replaced body takes the headers that describe it along. -/
theorem rewriteBody_replaced (h : plugin.Replaces ctx) (k : String) :
    (plugin.rewriteBody ctx).response.headers[k]? =
      if ∃ name ∈ bodyDerivedHeaders, eqIgnoreAsciiCase k name = true then none
      else ctx.response.headers[k]? := by
  have hclear : ∀ body, (replaceBody ctx body).response.headers[k]? =
      if ∃ name ∈ bodyDerivedHeaders, eqIgnoreAsciiCase k name = true then none
      else ctx.response.headers[k]? := fun body => get_removeCi .code bodyDerivedHeaders
  unfold rewriteBody
  cases hbody : plugin.body with
  | some body => exact hclear body
  | none =>
    rcases h with h | ⟨hfilters, htext⟩
    · exact absurd hbody h
    · dsimp only
      rw [if_neg hfilters]
      obtain ⟨text, htext⟩ := Option.ne_none_iff_exists'.mp htext
      unfold applyFilters
      rw [htext]
      exact hclear _

omit [JsonText] [CaseMapping] in
/-- Where nothing is replaced, the response stays. -/
theorem rewriteBody_skipped (h : ¬ plugin.Replaces ctx) : plugin.rewriteBody ctx = ctx := by
  unfold Replaces at h
  obtain ⟨hbody, hfilters⟩ := not_or.mp h
  unfold rewriteBody
  rw [not_not.mp hbody]
  dsimp only
  split
  · rfl
  · rename_i hne
    have htext : decodedText ctx = none := by
      by_contra htext
      exact hfilters ⟨hne, htext⟩
    unfold applyFilters
    rw [htext]

omit [JsonText] [CaseMapping] in
/-- What the headers have before the header operations. -/
theorem get_rewriteBody (k : String) :
    ((plugin.rewriteBody (plugin.rewriteStatus ctx)).response.headers[k]? ≠ none ↔
      ctx.response.headers[k]? ≠ none ∧ ¬ (plugin.Replaces ctx ∧ Derived k)) := by
  have hreplaces : plugin.Replaces (plugin.rewriteStatus ctx) ↔ plugin.Replaces ctx := by
    unfold Replaces
    rw [decodedText_status]
  by_cases h : plugin.Replaces ctx
  · rw [rewriteBody_replaced (hreplaces.mpr h), response_status.2]
    unfold Derived
    split
    · rename_i hderived
      exact iff_of_false (fun hne => hne rfl) fun hboth => hboth.2 ⟨h, hderived⟩
    · rename_i hderived
      exact (and_iff_left fun hboth => hderived hboth.2).symm
  · rw [rewriteBody_skipped (mt hreplaces.mp h), response_status.2]
    exact (and_iff_left fun hboth => h hboth.1).symm

omit [ContentCodec] in
/-- What the header operations leave under a name. -/
theorem get_rewriteHeaders (k : String) : (plugin.rewriteHeaders ctx).response.headers[k]? =
    if plugin.Removes k then none
    else ((plugin.setHeaders.reverse.lookup k).map fun v => [Vars.interpolate ctx v]).or
      (applyEdits (plugin.addEdits ctx) ctx.response.headers)[k]? := by
  rw [rewriteHeaders_eq]
  show (applyEdits (plugin.addEdits ctx ++ plugin.setEdits ctx ++ plugin.removeEdits)
    ctx.response.headers)[k]? = _
  unfold applyEdits
  rw [List.foldl_append, List.foldl_append]
  refine (get_removeCi .config plugin.removeHeaders).trans ?_
  refine if_congr Iff.rfl rfl ?_
  exact get_insert .config (fun v => Vars.interpolate ctx v) plugin.setHeaders

omit [JsonText] [CaseMapping] [ContentCodec] in
theorem lookup_ne_none_iff (k : String) :
    plugin.setHeaders.reverse.lookup k ≠ none ↔ k ∈ plugin.setNames := by
  unfold setNames
  rw [Ne, List.lookup_eq_none_iff, List.mem_map]
  constructor
  · intro h
    by_contra hno
    refine h fun entry hentry => bne_iff_ne.mpr fun hk => hno ?_
    exact ⟨entry, List.mem_reverse.mp hentry, hk.symm⟩
  · rintro ⟨entry, hentry, rfl⟩ h
    exact bne_iff_ne.mp (h entry (List.mem_reverse.mpr hentry)) rfl

/-- The entries of the response. -/
theorem get_output_iff (happlies : plugin.applies ctx = true) (k : String) :
    (plugin.output ctx).response.headers[k]? ≠ none ↔ ¬ plugin.Removes k ∧ plugin.Present ctx k := by
  unfold output
  rw [if_pos happlies, get_rewriteHeaders]
  split
  · rename_i hremoves
    exact iff_of_false (fun h => h rfl) fun h => h.1 hremoves
  · rename_i hremoves
    generalize hbody : plugin.rewriteBody (plugin.rewriteStatus ctx) = rewritten
    have hadded : (applyEdits (plugin.addEdits rewritten) rewritten.response.headers)[k]? ≠ none ↔
        rewritten.response.headers[k]? ≠ none ∨ k ∈ plugin.addNames :=
      (get_push .config (Vars.interpolate rewritten) plugin.addHeaders).1
    rw [← hbody, get_rewriteBody, hbody] at hadded
    rw [and_iff_right hremoves]
    unfold Present
    rw [Ne, Option.or_eq_none_iff, Option.map_eq_none_iff, not_and_or, ← Ne, ← Ne, hadded,
      lookup_ne_none_iff, @or_comm (_ ∧ _)]

/-- A header of the body that is not configured is as the body stage leaves it. -/
theorem get_output_other (happlies : plugin.applies ctx = true) {k : String} (hadd : k ∉ plugin.addNames)
    (hset : k ∉ plugin.setNames) (hremove : ¬ plugin.Removes k) :
    (plugin.output ctx).response.headers[k]? =
      (plugin.rewriteBody (plugin.rewriteStatus ctx)).response.headers[k]? := by
  unfold output
  rw [if_pos happlies, get_rewriteHeaders, if_neg hremove,
    not_not.mp (mt (lookup_ne_none_iff k).mp hset), Option.map_none, Option.none_or]
  exact (get_push .config _ plugin.addHeaders).2 hadd

/-- **Consistency.**  Bodies and the headers that describe them are always consistent; so are the headers
    that are set, exactly where each has one spelling. -/
theorem consistent_iff (plugin : ResponseRewritePlugin) (ctx : Context) :
    plugin.Consistent ctx ↔ (plugin.applies ctx = true → plugin.OneSpelling ctx) := by
  constructor
  · intro hconsistent happlies name hname hremoved k hpresent hcase
    obtain ⟨value, hvalue⟩ := Option.ne_none_iff_exists'.mp ((lookup_ne_none_iff name).mpr hname)
    refine (hconsistent.set happlies name value hvalue hremoved).2 k ?_ hcase
    rw [get_output_iff happlies]
    -- a removal that takes `k` takes the name as well
    refine ⟨fun ⟨removed, hmem, hk⟩ => hremoved ⟨removed, hmem, ?_⟩, hpresent⟩
    exact eqIgnoreAsciiCase_trans (eqIgnoreAsciiCase_symm hcase) hk
  · intro hspelling
    refine ⟨fun happlies hreplaces k hderived hthere => ?_, fun happlies name value hvalue hremoved => ?_,
      fun hkept => ?_⟩
    · obtain ⟨-, hset | hadd | ⟨-, hlost⟩⟩ := (get_output_iff happlies k).mp hthere
      · exact .inr hset
      · exact .inl hadd
      · exact absurd ⟨hreplaces, hderived⟩ hlost
    · have hname : name ∈ plugin.setNames := (lookup_ne_none_iff name).mp (by rw [hvalue]; exact fun h => nomatch h)
      refine ⟨?_, fun k hthere hcase => ?_⟩
      · unfold output
        rw [if_pos happlies, get_rewriteHeaders, if_neg hremoved, hvalue]
        rfl
      · exact hspelling happlies name hname hremoved k ((get_output_iff happlies k).mp hthere).2 hcase
    · by_cases happlies : plugin.applies ctx = true
      · have hsame : plugin.rewriteBody (plugin.rewriteStatus ctx) = plugin.rewriteStatus ctx := by
          refine rewriteBody_skipped fun h => hkept ⟨happlies, ?_⟩
          unfold Replaces at h ⊢
          rwa [decodedText_status] at h
        refine ⟨?_, fun k _ hadd hset hremove => ?_⟩
        · unfold output
          rw [if_pos happlies, rewriteHeaders_eq, hsame]
          exact response_status.1
        · rw [get_output_other happlies hadd hset hremove, hsame, response_status.2]
      · unfold output
        rw [if_neg happlies]
        exact ⟨rfl, fun _ _ _ _ _ => rfl⟩

end Consistency

end ResponseRewritePlugin

end Rewrite

/-! ## A header in another case -/

namespace ResponseRewritePlugin

/-- No body is compressed, so none is decoded. -/
abbrev noCodec : ContentCodec where
  encode _ body _ := .ok body
  decode _ _ := .error "no codecs"
  encode_ok _ body _ := ⟨body, rfl⟩

abbrev noReplacer : RegexReplacer := { Expr.noRegex with replaceAll := fun re => re.elim }

/-- A response that has `X-Foo` gets another entry for `x-foo`. -/
theorem not_consistent :
    let _ : RegexReplacer := noReplacer
    let _ : JsonCodec := compactJson
    let _ : CaseMapping := asciiCaseMapping
    let _ : ContentCodec := noCodec
    ¬ ∀ (plugin : ResponseRewritePlugin) (ctx : Context), plugin.Consistent ctx := by
  intro _ _ _ _ h
  let plugin : ResponseRewritePlugin := {
    statusCode := none, body := none, filters := [], exclusive := .inl rfl, addHeaders := []
    setHeaders := [("x-foo", "new")], removeHeaders := [], vars := none }
  let received : Context := Context.new default
  let ctx : Context := { received with response := { received.response with
    headers := (∅ : HashMap (List String)).insert "X-Foo" ["old"] } }
  have hreplaces : ¬ plugin.Replaces ctx := by
    rintro (hbody | ⟨hfilters, -⟩)
    · exact hbody rfl
    · exact hfilters rfl
  have hthere : ctx.response.headers["X-Foo"]? ≠ none := by
    rw [Std.ExtTreeMap.getElem?_insert_self]
    exact fun h => nomatch h
  have hsame : "X-Foo" = "x-foo" := (plugin.consistent_iff ctx).mp (h plugin ctx) rfl "x-foo"
    List.mem_cons_self (fun ⟨_, hmem, _⟩ => nomatch hmem) "X-Foo"
    (.inr (.inr ⟨hthere, fun hboth => hreplaces hboth.1⟩)) (by decide)
  exact absurd hsame (by decide)

end ResponseRewritePlugin

end Featherbit
