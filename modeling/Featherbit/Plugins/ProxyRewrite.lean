/-
  REWRITING A PATH (`plugins/native/proxy_rewrite.rs`).

  In the request phase a prefix is stripped from the path and another one put in front of it; then
  headers are added and removed.  In the response phase only the headers of the response change.

  The prefix is compared as text: it is stripped wherever the path begins with it, in the middle of a
  segment too, and what is left is given back its leading slash (`stripPath`).  What is put in front is
  put there as it was configured.
-/
import Featherbit.Plugins

namespace Featherbit

inductive RewritePhase where
  | request
  | response
deriving DecidableEq

/-- A configured `proxy-rewrite` node. -/
structure ProxyRewritePlugin where
  stripPathPrefix : Option String
  addPathPrefix : Option String
  addHeaders : HashMap String
  removeHeaders : List String
  phase : RewritePhase

namespace ProxyRewritePlugin

section Config

variable [JsonText]

/-- `header_value_to_string`. -/
def headerValueToString : Json → Option String
  | .string s => some s
  | .number n => some (JsonText.toText (.number n))
  | .bool b => some (toString b)
  | _ => none

/-- One header of either form. -/
def headerValue (name : String) (v : Json) : Except String String :=
  match headerValueToString v with
  | some value => .ok value
  | none => .error ("add_headers['" ++ name ++ "'] must be a scalar value")

/-- One row of the array form; a row with a blank name is skipped. -/
def addRow (headers : HashMap String) (item : Json) : Except String (HashMap String) :=
  match item.asObject with
  | none => .error "add_headers entries must be objects with 'name' and 'value'"
  | some fields => do
    let name := ((fields.lookup "name").bind Json.asStr).getD ""
    if trim name = "" then return headers
    else
      let value ← match fields.lookup "value" with
        | none => pure ""
        | some v => headerValue name v
      return headers.insert name value

/-- `parse_add_headers`. -/
def parseAddHeaders (config : HashMap Json) : Except String (HashMap String) :=
  match config["add_headers"]? with
  | none => .ok ∅
  | some (.object fields) => fields.foldlM
      (fun headers (k, v) => do return headers.insert k (← headerValue k v)) ∅
  | some (.array items) => items.foldlM addRow ∅
  | some _ => .error ("add_headers must be a map of name: value or a list of " ++
      "\x7bname, value\x7d objects")

/-- `ProxyRewritePlugin::from_config`. -/
def fromConfig (config : HashMap Json) : Except String ProxyRewritePlugin := do
  if config["headers"]?.isSome then
    throw ("proxy-rewrite has no 'headers' key (that is response-rewrite's schema); use " ++
      "add_headers: \x7b name: value \x7d and remove_headers: [name]")
  let addHeaders ← parseAddHeaders config
  return {
    stripPathPrefix := config["strip_path_prefix"]?.bind Json.asStr
    addPathPrefix := config["add_path_prefix"]?.bind Json.asStr
    addHeaders := addHeaders
    removeHeaders := ((config["remove_headers"]?.bind Json.asArray).getD []).filterMap Json.asStr
    phase := if config["phase"]?.bind Json.asStr = some "response" then .response else .request }

end Config

/-- The path without the prefix, and with a leading slash. -/
def stripPath (stripped path : String) : String :=
  match stripPrefix stripped path with
  | none => path
  | some rest =>
    if rest = "" ∨ startsWith rest "/" = false then
      "/" ++ String.ofList (rest.toList.dropWhile (· = '/'))
    else rest

/-- The request phase's path. -/
def rewritePath (plugin : ProxyRewritePlugin) (path : String) : String :=
  let path :=
    match plugin.stripPathPrefix with
    | some stripped => stripPath stripped path
    | none => path
  match plugin.addPathPrefix with
  | some added => added ++ path
  | none => path

section Execute

variable [CaseMapping] (plugin : ProxyRewritePlugin)

/-- The headers of either side. -/
def rewriteHeaders (headers : HashMap (List String)) : HashMap (List String) :=
  let added := plugin.addHeaders.toList.foldl (fun headers (key, value) =>
    headers.insert (toLowercase key) (headers[toLowercase key]?.getD [] ++ [value])) headers
  plugin.removeHeaders.foldl (fun headers key =>
    headers.filter fun k _ => !eqIgnoreAsciiCase k key) added

/-- `ProxyRewritePlugin::execute`, which never fails. -/
def execute (ctx : Context) : PluginResult :=
  match plugin.phase with
  | .request => .ok {
      context := { ctx with request := { ctx.request with
        path := plugin.rewritePath ctx.request.path
        headers := plugin.rewriteHeaders ctx.request.headers } }
      namedOutputs := ∅ }
  | .response => .ok {
      context := { ctx with response := { ctx.response with
        headers := plugin.rewriteHeaders ctx.response.headers } }
      namedOutputs := ∅ }

end Execute

/-! ## The path -/

section Path

variable {stripped path rest : String}

/-- Text with a leading slash, its own or one put there. -/
def slashed (s : String) : String := if startsWith s "/" then s else "/" ++ s

theorem startsWith_slashed (s : String) : startsWith (slashed s) "/" = true := by
  unfold slashed
  split_ifs with h
  · exact h
  · exact startsWith_iff.mpr ⟨s, rfl⟩

/-- What is left of a path gets its leading slash. -/
theorem stripPath_append : stripPath stripped (stripped ++ rest) = slashed rest := by
  unfold stripPath slashed
  rw [stripPrefix_append]
  dsimp only
  by_cases hslash : startsWith rest "/" = true
  · have hne : rest ≠ "" := by
      rintro rfl
      exact absurd hslash (by decide)
    rw [if_pos hslash, if_neg (by simp [hne, hslash])]
  · have hdrop : rest.toList.dropWhile (· = '/') = rest.toList := by
      rw [List.dropWhile_eq_self_iff]
      intro hpos hhead
      apply hslash
      refine startsWith_iff.mpr ⟨String.ofList rest.toList.tail, ?_⟩
      rw [← String.toList_inj, String.toList_append]
      show rest.toList = '/' :: (String.ofList rest.toList.tail).toList
      rw [String.toList_ofList]
      have hcons := List.cons_head_tail (List.ne_nil_of_length_pos hpos)
      rw [List.head_eq_getElem, of_decide_eq_true hhead] at hcons
      exact hcons.symm
    rw [if_neg hslash, if_pos (Or.inr (Bool.eq_false_iff.mpr hslash)), hdrop, String.ofList_toList]

/-- A path that does not begin with the prefix stays. -/
theorem stripPath_of_not (h : ∀ rest, path ≠ stripped ++ rest) : stripPath stripped path = path := by
  unfold stripPath
  cases hstrip : stripPrefix stripped path with
  | none => rfl
  | some rest => exact absurd (eq_of_stripPrefix hstrip) (h rest)

/-- What stripping leaves of a path. -/
inductive Stripped (stripped : Option String) (path : String) : String → Prop
  /-- The path begins with the prefix. -/
  | cut (text rest : String) : stripped = some text → path = text ++ rest →
      Stripped stripped path (slashed rest)
  /-- There is no prefix, or the path does not begin with it. -/
  | whole : (∀ text, stripped = some text → ∀ rest, path ≠ text ++ rest) →
      Stripped stripped path path

theorem rewritePath_spec (plugin : ProxyRewritePlugin) (path : String) :
    ∃ kept, Stripped plugin.stripPathPrefix path kept ∧
      plugin.rewritePath path = plugin.addPathPrefix.getD "" ++ kept := by
  have hadd : plugin.rewritePath path = plugin.addPathPrefix.getD "" ++
      (plugin.stripPathPrefix.elim path fun stripped => stripPath stripped path) := by
    unfold rewritePath
    cases plugin.addPathPrefix with
    | none =>
      cases plugin.stripPathPrefix with
      | none => exact (String.empty_append).symm
      | some stripped => exact (String.empty_append).symm
    | some added =>
      cases plugin.stripPathPrefix with
      | none => rfl
      | some stripped => rfl
  refine ⟨_, ?_, hadd⟩
  cases hstripped : plugin.stripPathPrefix with
  | none => exact .whole fun text htext => by cases htext
  | some text =>
    by_cases hbegins : ∃ rest, path = text ++ rest
    · obtain ⟨rest, rfl⟩ := hbegins
      rw [Option.elim_some, stripPath_append]
      exact .cut text rest rfl rfl
    · have hnot : ∀ rest, path ≠ text ++ rest := fun rest h => hbegins ⟨rest, h⟩
      rw [Option.elim_some, stripPath_of_not hnot]
      refine .whole fun text' htext' => ?_
      rw [← Option.some.inj htext']
      exact hnot

/-- A stripped path still begins with a slash. -/
theorem Stripped.startsWith {stripped : Option String} {path kept : String}
    (h : Stripped stripped path kept) (hpath : startsWith path "/" = true) :
    Featherbit.startsWith kept "/" = true := by
  cases h with
  | cut text rest => exact startsWith_slashed rest
  | whole => exact hpath

end Path

/-- **The rewritten path**, for every configuration and every path that begins with a slash.  The prefix
    is cut off wherever the path begins with it, and what is left begins with a slash again; otherwise
    the path is whole.  In front of it comes the added prefix as it is, so that the result begins with a
    slash where nothing is added or what is added begins with one.  The response phase leaves the path
    alone. -/
theorem execute_path [CaseMapping] (plugin : ProxyRewritePlugin) {ctx : Context}
    (hpath : startsWith ctx.request.path "/" = true) :
    (plugin.phase = .response →
      (plugin.execute ctx).context.request.path = ctx.request.path) ∧
    (plugin.phase = .request →
      (∃ kept, Stripped plugin.stripPathPrefix ctx.request.path kept ∧
        (plugin.execute ctx).context.request.path = plugin.addPathPrefix.getD "" ++ kept) ∧
      ((plugin.addPathPrefix.getD "" = "" ∨
          startsWith (plugin.addPathPrefix.getD "") "/" = true) →
        startsWith (plugin.execute ctx).context.request.path "/" = true)) := by
  refine ⟨fun hphase => ?_, fun hphase => ?_⟩
  · unfold execute
    rw [hphase]
    rfl
  · have hexecute : (plugin.execute ctx).context.request.path = plugin.rewritePath ctx.request.path := by
      unfold execute
      rw [hphase]
      rfl
    obtain ⟨kept, hkept, hrewrite⟩ := rewritePath_spec plugin ctx.request.path
    rw [hexecute, hrewrite]
    refine ⟨⟨kept, hkept, rfl⟩, fun hadded => ?_⟩
    rcases hadded with hnone | hslash
    · rw [hnone, String.empty_append]
      exact hkept.startsWith hpath
    · obtain ⟨rest, hrest⟩ := startsWith_iff.mp hslash
      exact startsWith_iff.mpr ⟨rest ++ kept, by rw [hrest, String.append_assoc]⟩

/-! ## Prefixes that are not whole segments -/

/-- A node that strips `/api` and puts `v1` in front. -/
def apiToV1 : ProxyRewritePlugin where
  stripPathPrefix := some "/api"
  addPathPrefix := some "v1"
  addHeaders := ∅
  removeHeaders := []
  phase := .request

/-- A request for a path. -/
def requestFor (path : String) : Context := Context.new {
  method := "GET", path := path, host := "", scheme := "http", headers := ∅, queryParams := ∅
  body := [], remoteAddr := "10.0.0.1:1111", protocol := .http1 }

/-- The prefix ends inside a segment of the path. -/
theorem execute_path_apiv2 :
    let _ : CaseMapping := asciiCaseMapping
    ∃ kept, Stripped (some "/api") "/apiv2/x" kept ∧
      (apiToV1.execute (requestFor "/apiv2/x")).context.request.path = "v1" ++ kept := by
  intro _
  obtain ⟨-, hrequest⟩ := execute_path apiToV1 (show
    startsWith (requestFor "/apiv2/x").request.path "/" = true by decide)
  exact (hrequest rfl).1

/-- A part of a segment is cut off, and the result has no slash in front. -/
theorem rewrite_inside_segment :
    let _ : CaseMapping := asciiCaseMapping
    let _ : JsonText := oneFieldText
    fromConfig (((∅ : HashMap Json).insert "strip_path_prefix" (.string "/api")).insert
        "add_path_prefix" (.string "v1")) = .ok apiToV1 ∧
      (apiToV1.execute (requestFor "/apiv2/x")).context.request.path = "v1/v2/x" ∧
      startsWith "v1/v2/x" "/" = false ∧ ¬ ∃ rest, "/apiv2/x" = "/api/" ++ rest := by
  intro _ _
  refine ⟨rfl, by decide, by decide, fun ⟨rest, hrest⟩ => ?_⟩
  have hchars := congrArg String.toList hrest
  rw [String.toList_append] at hchars
  have hfifth : some 'v' = some '/' := congrArg (fun l : List Char => l[4]?) hchars
  exact absurd hfifth (by decide)

end ProxyRewritePlugin

end Featherbit
