/-
  THE `body-transformer` NODE (`plugins/native/body_transformer.rs`): a body from a template with
  `{{body.path}}` and `{{$var}}` placeholders.

  1. **The template** — literals and placeholders in turn (`Reads`): a placeholder begins at the first
     `{{` and ends at the first `}}` behind it.  What the check at load time accepts is read so to its
     end, and rendered piece by piece (`render_of_reads`); what a placeholder inserts is not looked
     at again.

  2. **The placeholder of a path** (`inserts_iff`) — a segment that reads as a number is an index and
     nothing else, the text of a placeholder is trimmed, and no path at all is the whole document.
     So a value is found if no key on its path reads as a number, the last key does not end in white
     space, and the path is not the empty key alone.

  The error texts of `serde_json` are an argument.
-/
import Featherbit.Json.Path
import Featherbit.Json.Text
import Featherbit.Lib.TextSearch
import Featherbit.Plugins.Compression
import Featherbit.Plugins.DataMask
import Featherbit.Vars

namespace Featherbit

structure BodyTransformerPlugin where
  request : Option String
  response : Option String
deriving DecidableEq

namespace BodyTransformerPlugin

/-! ## The configuration -/

/-- Every `{{` has a `}}` behind it. -/
def closed (rest : List Char) : Bool :=
  match _hopen : TextSearch.cut ['{', '{'] rest with
  | none => true
  | some (_, after) =>
    match _hclose : TextSearch.cut ['}', '}'] after with
    | none => false
    | some (_, rest') => closed rest'
termination_by rest.length
decreasing_by
  have hlen := congrArg List.length (TextSearch.eq_of_cut _hopen)
  have hlen' := congrArg List.length (TextSearch.eq_of_cut _hclose)
  simp only [List.length_append, List.length_cons] at hlen hlen'
  omega

/-- `parse_transform`. -/
def parseTransform (config : HashMap Json) (key : String) : Except String (Option String) :=
  match config[key]? with
  | none => .ok none
  | some raw =>
    match raw.asObject with
    | none => .error ("body-transformer: '" ++ key ++ "' must be an object")
    | some obj =>
      match ((obj.lookup "template").bind Json.asStr).filter (· ≠ "") with
      | none => .error ("body-transformer: '" ++ key ++ ".template' is required")
      | some template =>
        match ((obj.lookup "input_format").bind Json.asStr).filter (· ≠ "json") with
        | some other =>
          .error ("body-transformer: '" ++ key ++ ".input_format' '" ++ other ++
            "' is not supported — featherbit implements 'json' only")
        | none =>
          if (obj.lookup "template_is_base64").bind Json.asBool = some true then
            .error ("body-transformer: '" ++ key ++
              ".template_is_base64' is not supported — store the template literally")
          else if closed template.toList = false then
            .error ("body-transformer: '" ++ key ++
              ".template' has an unclosed '\x7b\x7b' placeholder")
          else .ok (some template)

/-- `BodyTransformerPlugin::from_config`. -/
def fromConfig (config : HashMap Json) : Except String BodyTransformerPlugin := do
  let request ← parseTransform config "request"
  let response ← parseTransform config "response"
  if request = none ∧ response = none then
    .error "body-transformer: at least one of 'request' or 'response' is required"
  else .ok { request := request, response := response }

/-! ## Paths -/

/-- `value.get(idx)`. -/
def getIndex (i : Nat) : Json → Option Json
  | .array items => items[i]?
  | .null | .bool _ | .number _ | .string _ | .object _ => none

/-- One segment of a path. -/
def getSegment (value : Json) (seg : String) : Option Json :=
  match DataMaskPlugin.parseUsize seg with
  | some i => getIndex i value
  | none => value.get seg

/-- `json_path`. -/
def jsonPath (value : Json) (path : String) : Option Json :=
  if path = "" then some value else (splitChar '.' path).foldlM getSegment value

/-! ## Rendering -/

section Render

variable [CaseMapping] [JsonText]

/-- `json_to_template_string`. -/
def jsonToTemplateString : Json → String
  | .string s => s
  | .null => ""
  | .bool b => if b then "true" else "false"
  | .number n => JsonText.toText (.number n)
  | .array items => JsonText.toText (.array items)
  | .object fields => JsonText.toText (.object fields)

/-- What a placeholder inserts, of the text between its braces. -/
def inserted (ctx : Context) (body : Json) (inner : String) : String :=
  let expr := trim inner
  match stripPrefix "$" expr with
  | some var => (Vars.resolve ctx var).getD ""
  | none =>
    if expr = "body" then jsonToTemplateString body
    else
      match stripPrefix "body." expr with
      | some path => ((jsonPath body path).map jsonToTemplateString).getD ""
      -- any other placeholder is empty
      | none => ""

/-- The loop of `render`. -/
def renderChars (ctx : Context) (body : Json) (rest : List Char) : String :=
  match _hopen : TextSearch.cut ['{', '{'] rest with
  | none => Vars.interpolate ctx (String.ofList rest)
  | some (literal, after) =>
    Vars.interpolate ctx (String.ofList literal) ++
      match _hclose : TextSearch.cut ['}', '}'] after with
      | some (inner, rest') =>
        inserted ctx body (String.ofList inner) ++ renderChars ctx body rest'
      -- an unclosed placeholder is kept
      | none => Vars.interpolate ctx (String.ofList ('{' :: '{' :: after))
termination_by rest.length
decreasing_by
  have hlen := congrArg List.length (TextSearch.eq_of_cut _hopen)
  have hlen' := congrArg List.length (TextSearch.eq_of_cut _hclose)
  simp only [List.length_append, List.length_cons] at hlen hlen'
  omega

/-- `render`. -/
def render (ctx : Context) (template : String) (body : Json) : String :=
  renderChars ctx body template.toList

end Render

/-! ## The node -/

section Execute

variable [CaseMapping] [JsonCodec] [ContentCodec] (serdeError : Bytes → String)

/-- `parse_body`; an empty body is `null`. -/
def parseBody (body : Bytes) : Except String Json :=
  if body = [] then .ok .null
  else
    match JsonCodec.parse body with
    | some value => .ok value
    | none => .error ("body is not valid JSON: " ++ serdeError body)

/-- `fail`. -/
def fail (ctx : Context) (status : UInt16) (detail : String) : PluginExecutionError where
  context := { ctx with response := {
    statusCode := status
    headers := ctx.response.headers.insert "content-type" ["application/json"]
    body := asBytes (JsonText.toText (.object [("error", .string "body_decode_failed"),
      ("message", .string detail)])) } }
  error := {
    nodeId := ""
    code := "BODY_DECODE_FAILED"
    message := detail
    metadata := ∅ }

/-- Framing headers that a new body makes stale. -/
def withoutFraming (headers : HashMap (List String)) : HashMap (List String) :=
  (headers.erase "content-length").erase "content-encoding"

/-- The response body before its content encoding, if it has a known one. -/
def decodedBody (ctx : Context) : Except String Bytes :=
  match (ctx.response.headers["content-encoding"]?).bind List.head? with
  | none => .ok ctx.response.body
  | some value =>
    match ContentEncoding.parse value with
    | .error e => .error e
    | .ok none => .ok ctx.response.body
    | .ok (some encoding) => ContentCodec.decode encoding ctx.response.body

variable (plugin : BodyTransformerPlugin)

/-- `execute` up to the request's new body. -/
def transformRequest (ctx : Context) : Except PluginExecutionError Context :=
  match plugin.request with
  | none => .ok ctx
  | some template =>
    match parseBody serdeError ctx.request.body with
    | .error e => .error (fail ctx 400 ("request " ++ e))
    | .ok parsed =>
      .ok { ctx with request := { ctx.request with
        body := asBytes (render ctx template parsed)
        headers := withoutFraming ctx.request.headers } }

/-- `execute` from there on. -/
def transformResponse (ctx : Context) : Except PluginExecutionError Context :=
  match plugin.response with
  | none => .ok ctx
  | some template =>
    match decodedBody ctx with
    | .error e => .error (fail ctx 502 ("response " ++ e))
    | .ok body =>
      match parseBody serdeError body with
      | .error e => .error (fail ctx 502 ("response " ++ e))
      | .ok parsed =>
        .ok { ctx with response := { ctx.response with
          body := asBytes (render ctx template parsed)
          headers := withoutFraming ctx.response.headers } }

/-- `execute`. -/
def execute (ctx : Context) : PluginResult := do
  let ctx ← plugin.transformRequest serdeError ctx
  let ctx ← plugin.transformResponse serdeError ctx
  .ok { context := ctx, namedOutputs := ∅ }

/-- A node for the request alone: the new body, or the request as it was with a rejection. -/
theorem execute_request {template : String} (hrequest : plugin.request = some template)
    (hresponse : plugin.response = none) (ctx : Context) :
    match parseBody serdeError ctx.request.body with
    | .ok doc => ∃ output, plugin.execute serdeError ctx = .ok output ∧
        output.context.request.body = asBytes (render ctx template doc) ∧
        output.context.response = ctx.response
    | .error _ => ∃ error, plugin.execute serdeError ctx = .error error ∧
        error.context.request = ctx.request ∧ error.context.response.statusCode = 400 := by
  unfold execute transformRequest transformResponse
  rw [hrequest, hresponse]
  cases parseBody serdeError ctx.request.body with
  | ok doc => exact ⟨_, rfl, rfl, rfl⟩
  | error e => exact ⟨_, rfl, rfl, rfl⟩

end Execute

/-! ## The template, piece by piece -/

/-- A piece of a template. -/
inductive Piece where
  | literal (text : List Char)
  /-- the text between the braces -/
  | placeholder (inner : List Char)

/-- A template is literals and placeholders in turn.  No `{{` begins in a literal, and no `}}` before
    the placeholder's own. -/
inductive Reads : List Char → List Piece → Prop
  | last {literal : List Char} : ¬ ['{', '{'] <:+: literal → Reads literal [.literal literal]
  | next {literal inner rest : List Char} {pieces : List Piece} :
      ¬ ['{', '{'] <:+: literal ++ ['{'] → ¬ ['}', '}'] <:+: inner ++ ['}'] →
      Reads rest pieces →
      Reads (literal ++ ['{', '{'] ++ (inner ++ ['}', '}'] ++ rest))
        (.literal literal :: .placeholder inner :: pieces)

/-- Two braces are found where no earlier ones are. -/
theorem cut_braces {c : Char} {x : List Char} (h : ¬ [c, c] <:+: x ++ [c]) (y : List Char) :
    TextSearch.cut [c, c] (x ++ [c, c] ++ y) = some (x, y) := by
  induction x with
  | nil => simp [TextSearch.cut]
  | cons a x ih =>
    have hfront : ¬ [c, c].isPrefixOf (a :: (x ++ [c, c] ++ y)) = true := by
      rw [List.isPrefixOf_iff_prefix]
      rintro ⟨rest, hrest⟩
      apply h
      cases x with
      | nil =>
        obtain ⟨rfl, -⟩ := List.cons.inj hrest
        exact List.infix_rfl
      | cons b x =>
        obtain ⟨rfl, htail⟩ := List.cons.inj hrest
        obtain ⟨rfl, -⟩ := List.cons.inj htail
        exact ⟨[], x ++ [c], rfl⟩
    have htail : ¬ [c, c] <:+: x ++ [c] := fun htail =>
      h (htail.trans (List.suffix_cons a _).isInfix)
    rw [List.cons_append, List.cons_append, TextSearch.cut, if_neg hfront, ih htail]
    rfl

/-- What the check at load time accepts is read to its end. -/
theorem reads_of_closed {template : List Char} (h : closed template = true) :
    ∃ pieces, Reads template pieces := by
  fun_induction closed template with
  | case1 rest hopen =>
    refine ⟨_, Reads.last fun hinfix => ?_⟩
    obtain ⟨x, y, hcut⟩ := TextSearch.exists_cut hinfix
    rw [hopen] at hcut
    nomatch hcut
  | case2 rest literal after hopen hclose => nomatch h
  | case3 rest literal after hopen inner rest' hclose ih =>
    obtain ⟨pieces, hpieces⟩ := ih h
    have hliteral := TextSearch.first_of_cut hopen (by simp)
    have hinner := TextSearch.first_of_cut hclose (by simp)
    rw [TextSearch.eq_of_cut hopen, TextSearch.eq_of_cut hclose]
    exact ⟨_, Reads.next hliteral hinner hpieces⟩

/-- Every accepted template passes the check. -/
theorem closed_of_parseTransform {config : HashMap Json} {key template : String}
    (h : parseTransform config key = .ok (some template)) : closed template.toList = true := by
  unfold parseTransform at h
  split at h
  · nomatch h
  · split at h
    · nomatch h
    · split at h
      · nomatch h
      · split at h
        · nomatch h
        · split at h
          · nomatch h
          · split at h
            · nomatch h
            · rename_i hclosed
              cases h
              simpa using hclosed

theorem join_cons (s : String) (l : List String) : String.join (s :: l) = s ++ String.join l := by
  rw [← String.toList_inj, String.toList_append, String.toList_join, String.toList_join]
  rfl

section Rendered

variable [CaseMapping] [JsonText] (ctx : Context) (body : Json)

/-- What one piece becomes. -/
def Piece.rendered : Piece → String
  | .literal text => Vars.interpolate ctx (String.ofList text)
  | .placeholder inner => inserted ctx body (String.ofList inner)

/-- One turn of the loop. -/
theorem renderChars_next {template after literal inner rest : List Char}
    (hopen : TextSearch.cut ['{', '{'] template = some (literal, after))
    (hclose : TextSearch.cut ['}', '}'] after = some (inner, rest)) :
    renderChars ctx body template = Piece.rendered ctx body (.literal literal) ++
      (Piece.rendered ctx body (.placeholder inner) ++ renderChars ctx body rest) := by
  rw [renderChars]
  split
  · rename_i hnone
    rw [hopen] at hnone
    nomatch hnone
  · rename_i hsome
    cases hopen.symm.trans hsome
    split
    · rename_i hsome'
      cases hclose.symm.trans hsome'
      rfl
    · rename_i hnone
      rw [hclose] at hnone
      nomatch hnone

/-- **A template is rendered piece by piece.** -/
theorem render_of_reads {template : List Char} {pieces : List Piece} (h : Reads template pieces) :
    renderChars ctx body template = String.join (pieces.map (Piece.rendered ctx body)) := by
  induction h with
  | last hliteral =>
    rw [renderChars, TextSearch.cut_eq_none hliteral, List.map_singleton, join_cons]
    exact (String.append_empty).symm
  | next hliteral hinner _ ih =>
    rw [renderChars_next ctx body (cut_braces hliteral _) (cut_braces hinner _), ih, List.map_cons,
      List.map_cons, join_cons, join_cons]

end Rendered

/-! ## The placeholder of a path -/

/-- A segment as it stands in a dotted path. -/
def segText : PathSeg → String
  | .key k => k
  | .index i => showNat i

/-- The text of the placeholder of a path. -/
def pathExpr (path : List PathSeg) : String :=
  if path = [] then "body" else "body." ++ ".".intercalate (path.map segText)

/-- White space at the end is cut off. -/
def trimEnd (s : String) : String := String.ofList (s.toList.rdropWhile isWhitespace)

/-- A path whose placeholder finds the value: no key reads as a number, an index is one of a machine,
    the last key does not end in white space, and the path is not the empty key alone. -/
structure PathKept (path : List PathSeg) : Prop where
  keys : ∀ k, .key k ∈ path → DataMaskPlugin.parseUsize k = none
  indices : ∀ i, .index i ∈ path → i < 2 ^ 64
  last : ∀ k, path.getLast? = some (.key k) → trimEnd k = k
  named : path ≠ [.key ""]

/-- The key can stand in a path of a placeholder: it has no dot and no brace. -/
def PlainKey (k : String) : Prop := '.' ∉ k.toList ∧ '{' ∉ k.toList ∧ '}' ∉ k.toList

/-! ### The text -/

theorem showNat_ne_empty (n : Nat) : showNat n ≠ "" :=
  fun h => toList_showNat_ne_nil n (congrArg String.toList h)

theorem not_whitespace_of_digit {c : Char} (h : c.isDigit = true) : isWhitespace c = false := by
  rw [Char.isDigit, Bool.and_eq_true, decide_eq_true_eq, decide_eq_true_eq, ge_iff_le,
    UInt32.le_iff_toNat_le, UInt32.le_iff_toNat_le] at h
  have hlow : 48 ≤ c.toNat := h.1
  have hhigh : c.toNat ≤ 57 := h.2
  simp only [isWhitespace, Bool.or_eq_false_iff, Bool.and_eq_false_iff, decide_eq_false_iff_not]
  omega

theorem trimEnd_showNat (n : Nat) : trimEnd (showNat n) = showNat n := by
  rw [trimEnd, List.rdropWhile_eq_self_iff.mpr, String.ofList_toList]
  intro hne
  rw [not_whitespace_of_digit (isDigit_of_mem_showNat (List.getLast_mem hne))]
  exact Bool.false_ne_true

/-- A segment's text has no letter but its key's and digits. -/
theorem segText_plain {seg : PathSeg} (hkey : ∀ k, seg = .key k → PlainKey k) :
    PlainKey (segText seg) := by
  cases seg with
  | key k => exact hkey k rfl
  | index i =>
    exact ⟨not_mem_showNat (by decide) i, not_mem_showNat (by decide) i, not_mem_showNat (by decide) i⟩

theorem rdropWhile_append_of_last {α : Type} {p : α → Bool} {a : α} (ha : p a = false)
    (x y : List α) : (x ++ a :: y).rdropWhile p = x ++ a :: y.rdropWhile p := by
  induction y using List.reverseRecOn with
  | nil =>
    rw [List.rdropWhile_concat_neg _ _ _ (by rw [ha]; exact Bool.false_ne_true), List.rdropWhile_nil]
  | append_singleton y b ih =>
    rw [← List.cons_append, ← List.append_assoc, List.rdropWhile_concat, List.rdropWhile_concat]
    by_cases hb : p b = true
    · rw [if_pos hb, if_pos hb, ih]
    · rw [if_neg hb, if_neg hb]
      simp

/-- Only what stands behind a dot is trimmed. -/
theorem trim_behind_dot (before : String) {c : Char} {rest : List Char}
    (hbefore : before.toList = c :: rest) (hc : isWhitespace c = false) (last : String) :
    trim (before ++ "." ++ last) = before ++ "." ++ trimEnd last := by
  have hchars : (before ++ "." ++ last).toList = before.toList ++ '.' :: last.toList := by simp
  have hdrop : (before.toList ++ '.' :: last.toList).dropWhile isWhitespace =
      before.toList ++ '.' :: last.toList := by
    rw [hbefore, List.cons_append, List.dropWhile_cons_of_neg (by rw [hc]; exact Bool.false_ne_true)]
  rw [← String.toList_inj, trim, trimEnd, hchars, hdrop, rdropWhile_append_of_last (by decide)]
  simp

theorem pathExpr_concat (front : List PathSeg) (seg : PathSeg) :
    pathExpr (front ++ [seg]) = "body." ++ ".".intercalate (front.map segText ++ [segText seg]) := by
  rw [pathExpr, if_neg (by simp), List.map_append, List.map_singleton]

/-- The placeholder's text, trimmed. -/
theorem trim_pathExpr (front : List PathSeg) (seg : PathSeg) : trim (pathExpr (front ++ [seg])) =
    "body." ++ ".".intercalate (front.map segText ++ [trimEnd (segText seg)]) := by
  rw [pathExpr_concat]
  cases front with
  | nil =>
    rw [List.map_nil, List.nil_append, List.nil_append, String.intercalate_singleton,
      String.intercalate_singleton]
    exact trim_behind_dot "body" rfl (by decide) (segText seg)
  | cons first front =>
    have hne : (first :: front).map segText ≠ [] := by simp
    have hbody : ("body." ++ ".".intercalate ((first :: front).map segText)).toList =
        'b' :: ("ody.".toList ++ (".".intercalate ((first :: front).map segText)).toList) := by
      rw [String.toList_append]
      rfl
    rw [String.intercalate_append_of_ne_nil hne (by simp),
      String.intercalate_append_of_ne_nil hne (by simp), String.intercalate_singleton,
      String.intercalate_singleton, ← String.append_assoc, ← String.append_assoc,
      ← String.append_assoc, ← String.append_assoc]
    exact trim_behind_dot _ hbody (by decide) (segText seg)

/-- The segments a path is split into. -/
theorem splitChar_segments {front : List PathSeg} {last : String}
    (hfront : ∀ k, .key k ∈ front → PlainKey k) (hlast : '.' ∉ last.toList) :
    splitChar '.' (".".intercalate (front.map segText ++ [last])) =
      front.map segText ++ [last] := by
  refine @splitChar_intercalate '.' _ (by simp) ?_
  intro s hs
  rcases List.mem_append.mp hs with hs | hs
  · obtain ⟨seg, hseg, rfl⟩ := List.mem_map.mp hs
    exact (segText_plain fun k hk => hfront k (hk ▸ hseg)).1
  · rwa [List.mem_singleton.mp hs]

theorem intercalate_eq_empty_iff {front : List String} {last : String} :
    ".".intercalate (front ++ [last]) = "" ↔ front = [] ∧ last = "" := by
  cases front with
  | nil => simp
  | cons first front =>
    rw [String.intercalate_append_of_ne_nil (by simp) (by simp)]
    refine iff_of_false (fun h => ?_) (by simp)
    have hlen := congrArg String.length h
    simp at hlen

theorem not_mem_trimEnd {c : Char} {s : String} (h : c ∉ s.toList) : c ∉ (trimEnd s).toList := by
  rw [trimEnd, String.toList_ofList]
  exact fun hc => h ((List.rdropWhile_prefix _ _).subset hc)

section Inserted

variable [CaseMapping] [JsonText] (ctx : Context) (doc : Json)

/-- What the placeholder of a path inserts. -/
theorem inserted_pathExpr {front : List PathSeg} {seg : PathSeg}
    (hplain : ∀ k, .key k ∈ front ++ [seg] → PlainKey k) :
    inserted ctx doc (pathExpr (front ++ [seg])) =
      if front = [] ∧ trimEnd (segText seg) = "" then jsonToTemplateString doc
      else (((front.map segText ++ [trimEnd (segText seg)]).foldlM getSegment doc).map
        jsonToTemplateString).getD "" := by
  have hfront : ∀ k, .key k ∈ front → PlainKey k := fun k hk => hplain k (List.mem_append_left _ hk)
  have hseg : PlainKey (segText seg) :=
    segText_plain fun k hk => hplain k (by rw [hk]; exact List.mem_append_right _ List.mem_cons_self)
  have hdollar : ∀ s : String, stripPrefix "$" ("body." ++ s) = none := by
    intro s
    refine stripPrefix_eq_none fun t h => ?_
    have hhead := congrArg (fun s => s.toList.head?) h
    simp at hhead
  have hbody : ∀ s : String, "body." ++ s ≠ "body" := by
    intro s h
    have hlen := congrArg String.length h
    rw [String.length_append] at hlen
    have hlong : "body.".length = 5 := rfl
    have hshort : "body".length = 4 := rfl
    omega
  rw [inserted]
  simp only [trim_pathExpr, hdollar, if_neg (hbody _), stripPrefix_append, jsonPath,
    splitChar_segments hfront (not_mem_trimEnd hseg.1), intercalate_eq_empty_iff, List.map_eq_nil_iff]
  split <;> rfl

end Inserted

/-! ### The value -/

theorem parseUsize_lt {s : String} {n : Nat} (h : DataMaskPlugin.parseUsize s = some n) :
    n < 2 ^ 64 := by
  unfold DataMaskPlugin.parseUsize at h
  extract_lets digits number at h
  split_ifs at h with hdigits hlt
  rwa [← Option.some.inj h]

theorem parseUsize_showNat {n : Nat} (hn : n < 2 ^ 64) :
    DataMaskPlugin.parseUsize (showNat n) = some n := by
  have hdigit : ∀ c ∈ Nat.toDigits 10 n, c.isDigit = true :=
    fun c hc => Nat.isDigit_of_mem_toDigits (by decide) (by decide) hc
  have hchars : (showNat n).toList = Nat.toDigits 10 n := String.toList_ofList
  unfold DataMaskPlugin.parseUsize
  extract_lets digits number
  have hdigits : digits = Nat.toDigits 10 n := by
    unfold digits
    rw [hchars]
    split
    · rename_i rest hplus
      have hbad := hdigit '+' (by rw [hplus]; exact List.mem_cons_self)
      exact absurd hbad (by decide)
    · rfl
  have hcond : digits ≠ [] ∧ digits.all Char.isDigit = true := by
    rw [hdigits]
    exact ⟨Nat.toDigits_ne_nil, List.all_eq_true.mpr hdigit⟩
  have hnumber : number = n := by
    unfold number
    rw [hdigits, Nat.ofDigitChars_ten_toDigits]
  rw [if_pos hcond, hnumber, if_pos hn]

/-- What a segment's text is read as. -/
def Follows (text : String) : PathSeg → Prop
  | .key k => DataMaskPlugin.parseUsize text = none ∧ text = k
  | .index i => DataMaskPlugin.parseUsize text = some i

theorem getSegment_of_follows {text : String} {seg : PathSeg} (h : Follows text seg) (value : Json) :
    getSegment value text = Json.child seg value := by
  cases seg with
  | key k =>
    obtain ⟨hnone, rfl⟩ := h
    rw [getSegment, hnone]
    cases value <;> rfl
  | index i =>
    rw [getSegment, show DataMaskPlugin.parseUsize text = some i from h]
    cases value <;> rfl

/-- The walk along texts that are read as the path's segments. -/
theorem foldlM_of_follows {texts : List String} {path : List PathSeg}
    (h : List.Forall₂ Follows texts path) (value : Json) :
    texts.foldlM getSegment value = Json.at? path value := by
  induction h generalizing value with
  | nil => rfl
  | cons hfollows _ ih =>
    rw [List.foldlM_cons, getSegment_of_follows hfollows, Json.at?]
    exact congrArg _ (funext ih)

/-- A document that has a leaf at the end of the path, and nothing else. -/
def nest : List PathSeg → Json → Json
  | [], leaf => leaf
  | .key k :: path, leaf => .object [(k, nest path leaf)]
  | .index i :: path, leaf => .array (List.replicate i .null ++ [nest path leaf])

theorem at?_nest (path : List PathSeg) (leaf : Json) : Json.at? path (nest path leaf) = some leaf := by
  induction path with
  | nil => rfl
  | cons seg path ih =>
    have hchild : Json.child seg (nest (seg :: path) leaf) = some (nest path leaf) := by
      cases seg with
      | key k => simp [nest, Json.child]
      | index i => simp [nest, Json.child]
    rw [Json.at?_cons hchild, ih]

theorem foldlM_null (texts : List String) {value : Json}
    (h : texts.foldlM getSegment Json.null = some value) : value = .null := by
  cases texts with
  | nil => exact (Option.some.inj h).symm
  | cons text texts =>
    have hnone : getSegment .null text = none := by
      unfold getSegment
      cases DataMaskPlugin.parseUsize text <;> rfl
    rw [List.foldlM_cons, hnone] at h
    nomatch h

/-- Whoever finds something in such a document has followed the path. -/
theorem follows_of_foldlM {texts : List String} {path : List PathSeg} {leaf value : Json}
    (hlength : texts.length = path.length) (hvalue : value ≠ .null)
    (h : texts.foldlM getSegment (nest path leaf) = some value) :
    List.Forall₂ Follows texts path := by
  induction path generalizing texts with
  | nil =>
    obtain rfl := List.length_eq_zero_iff.mp hlength
    exact List.Forall₂.nil
  | cons seg path ih =>
    obtain ⟨text, texts, rfl⟩ := List.exists_cons_of_length_eq_add_one hlength
    rw [List.foldlM_cons] at h
    obtain ⟨next, hnext, hrest⟩ := Option.bind_eq_some_iff.mp h
    have hlength' : texts.length = path.length := by simpa using hlength
    unfold getSegment at hnext
    cases seg with
    | key k =>
      cases hparse : DataMaskPlugin.parseUsize text with
      | some i =>
        rw [hparse] at hnext
        nomatch hnext
      | none =>
        simp only [hparse, nest, Json.get, Json.lookup_cons] at hnext
        split at hnext
        · rename_i heq
          cases hnext
          exact List.Forall₂.cons ⟨hparse, heq⟩ (ih hlength' hrest)
        · nomatch hnext
    | index i =>
      cases hparse : DataMaskPlugin.parseUsize text with
      | none =>
        rw [hparse] at hnext
        nomatch hnext
      | some j =>
        have hitem : (List.replicate i Json.null ++ [nest path leaf])[j]? = some next := by
          simpa only [hparse, nest, getIndex] using hnext
        rcases Nat.lt_trichotomy j i with hlt | rfl | hgt
        · rw [List.getElem?_append_left (by simpa using hlt)] at hitem
          obtain ⟨_, hnull⟩ := List.getElem?_eq_some_iff.mp hitem
          rw [List.getElem_replicate] at hnull
          subst hnull
          exact absurd (foldlM_null texts hrest) hvalue
        · have hself : next = nest path leaf := by simpa using hitem.symm
          subst hself
          exact List.Forall₂.cons hparse (ih hlength' hrest)
        · rw [List.getElem?_eq_none (by simp; omega)] at hitem
          nomatch hitem

/-! ### The iff -/

/-- The segments of a kept path follow it, the last one trimmed. -/
theorem follows_of_kept {front : List PathSeg} {seg : PathSeg} (h : PathKept (front ++ [seg])) :
    List.Forall₂ Follows (front.map segText ++ [trimEnd (segText seg)]) (front ++ [seg]) := by
  have hself : ∀ s ∈ front ++ [seg], Follows (segText s) s := by
    intro s hs
    cases s with
    | key k => exact ⟨h.keys k hs, rfl⟩
    | index i => exact parseUsize_showNat (h.indices i hs)
  have hlast : trimEnd (segText seg) = segText seg := by
    cases seg with
    | key k => exact h.last k (by simp)
    | index i => exact trimEnd_showNat i
  rw [hlast, ← List.map_singleton, ← List.map_append, List.forall₂_map_left_iff]
  exact List.forall₂_same.mpr hself

/-- A path whose segments follow it is kept. -/
theorem kept_of_follows {front : List PathSeg} {seg : PathSeg}
    (hnamed : ¬ (front = [] ∧ trimEnd (segText seg) = ""))
    (h : List.Forall₂ Follows (front.map segText ++ [trimEnd (segText seg)]) (front ++ [seg])) :
    PathKept (front ++ [seg]) := by
  have hlen : (front.map segText).length = front.length := List.length_map _
  have hfront := List.forall₂_take_append _ _ _ h
  have hlast := List.forall₂_drop_append _ _ _ h
  rw [← hlen, List.take_left, List.forall₂_map_left_iff, List.forall₂_same] at hfront
  rw [← hlen, List.drop_left] at hlast
  cases hlast with
  | cons hlast _ =>
  have hself : ∀ s ∈ front ++ [seg], Follows (segText s) s ∨
      s = seg ∧ Follows (trimEnd (segText seg)) seg := by
    intro s hs
    rcases List.mem_append.mp hs with hs | hs
    · exact Or.inl (hfront s hs)
    · exact Or.inr ⟨List.mem_singleton.mp hs, hlast⟩
  refine ⟨fun k hk => ?_, fun i hi => ?_, fun k hk => ?_, fun heq => ?_⟩
  · rcases hself _ hk with hfollows | ⟨rfl, hparse, htrim⟩
    · exact hfollows.1
    · rwa [htrim] at hparse
  · rcases hself _ hi with hfollows | ⟨rfl, hfollows⟩
    · exact parseUsize_lt hfollows
    · exact parseUsize_lt hfollows
  · obtain rfl : seg = .key k := by simpa using hk
    exact hlast.2
  · have hnil : front = [] := by
      have hlength := congrArg List.length heq
      rw [List.length_append, List.length_singleton, List.length_singleton] at hlength
      exact List.length_eq_zero_iff.mp (by omega)
    subst hnil
    obtain rfl := List.singleton_inj.mp heq
    exact hnamed ⟨rfl, rfl⟩

/-- A path of plain keys has no closing brace. -/
theorem brace_not_mem_pathExpr {path : List PathSeg} (hplain : ∀ k, .key k ∈ path → PlainKey k) :
    '}' ∉ (pathExpr path).toList := by
  rw [pathExpr]
  split
  · decide
  · rw [String.toList_append, String.toList_intercalate, List.mem_append, not_or]
    refine ⟨by decide, fun hmem => ?_⟩
    rcases Split.mem_intercalate hmem with hdot | ⟨text, htext, hbrace⟩
    · exact absurd hdot (by decide)
    · rw [List.map_map] at htext
      obtain ⟨seg, hseg, rfl⟩ := List.mem_map.mp htext
      exact (segText_plain fun k hk => hplain k (hk ▸ hseg)).2.2 hbrace

/-- Its placeholder is read as one. -/
theorem reads_pathExpr {path : List PathSeg} (hplain : ∀ k, .key k ∈ path → PlainKey k) :
    Reads (['{', '{'] ++ (pathExpr path).toList ++ ['}', '}'])
      [.literal [], .placeholder (pathExpr path).toList, .literal []] := by
  have hinner : ¬ ['}', '}'] <:+: (pathExpr path).toList ++ ['}'] := by
    intro hinfix
    have hcount := hinfix.sublist.count_le '}'
    rw [List.count_append, List.count_eq_zero.mpr (brace_not_mem_pathExpr hplain)] at hcount
    exact absurd hcount (by decide)
  have hliteral : ¬ ['{', '{'] <:+: ([] : List Char) ++ ['{'] := by decide
  have hrest : Reads [] [.literal []] := Reads.last (by decide)
  have hreads := Reads.next hliteral hinner hrest
  rwa [List.nil_append, List.append_nil, ← List.append_assoc] at hreads

/-- No other document has the text of `null`. -/
theorem toText_ne [JsonCodec] (doc : Json) (hdoc : doc.Canonical) (hdepth : doc.depth < 128)
    (hmap : doc.mapFloats JsonCodec.reread ≠ .null) :
    JsonText.toText doc ≠ JsonText.toText Json.null := by
  intro h
  have hparse := JsonCodec.parse_toText doc hdoc hdepth
  rw [h, JsonCodec.parse_toText Json.null trivial (by decide)] at hparse
  exact hmap (Option.some.inj hparse).symm

section Kept

variable [CaseMapping] [JsonCodec]

/-- The placeholder of a path inserts the value at the path, of every document that has one. -/
def Inserts (path : List PathSeg) : Prop :=
  ∀ (ctx : Context) (doc value : Json), Json.at? path doc = some value →
    inserted ctx doc (pathExpr path) = jsonToTemplateString value

/-- **Where the placeholder of a path finds the value.** -/
theorem inserts_iff {path : List PathSeg} (hplain : ∀ k, .key k ∈ path → PlainKey k) :
    Inserts path ↔ PathKept path := by
  rcases List.eq_nil_or_concat' path with rfl | ⟨front, seg, rfl⟩
  · refine iff_of_true ?_ ⟨by simp, by simp, by simp, by simp⟩
    intro ctx doc value h
    cases h
    rfl
  · constructor
    · intro h
      have htext : ∀ s, inserted (Context.new default) (nest (front ++ [seg]) (.string s))
          (pathExpr (front ++ [seg])) = s := fun s => h _ _ _ (at?_nest _ _)
      simp only [inserted_pathExpr _ _ hplain] at htext
      have hnamed : ¬ (front = [] ∧ trimEnd (segText seg) = "") := by
        rintro ⟨rfl, hempty⟩
        cases seg with
        | index i =>
          rw [segText, trimEnd_showNat] at hempty
          exact showNat_ne_empty i hempty
        | key k =>
          -- the placeholder is the whole document, which is not the leaf for every leaf
          have hnull := htext (JsonText.toText Json.null)
          rw [if_pos ⟨rfl, hempty⟩] at hnull
          refine toText_ne (nest [.key k] (.string (JsonText.toText Json.null))) ?_ ?_ ?_ hnull
          · exact ⟨List.pairwise_singleton _ _, trivial, trivial⟩
          · show 1 + max 0 0 < 128
            omega
          · exact nofun
      have hleaf := htext "x"
      have hempty : "" ≠ "x" := by decide
      rw [if_neg hnamed] at hleaf
      cases hwalk : (front.map segText ++ [trimEnd (segText seg)]).foldlM getSegment
          (nest (front ++ [seg]) (.string "x")) with
      | none =>
        rw [hwalk] at hleaf
        exact absurd hleaf hempty
      | some value =>
        have hvalue : value ≠ .null := by
          rintro rfl
          rw [hwalk] at hleaf
          exact hempty hleaf
        exact kept_of_follows hnamed (follows_of_foldlM (by simp) hvalue hwalk)
    · intro h ctx doc value hvalue
      have hnot : ¬ (front = [] ∧ trimEnd (segText seg) = "") := by
        rintro ⟨rfl, hempty⟩
        cases seg with
        | key k =>
          rw [segText, h.last k rfl] at hempty
          exact h.named (by rw [hempty]; rfl)
        | index i =>
          rw [segText, trimEnd_showNat] at hempty
          exact showNat_ne_empty i hempty
      rw [inserted_pathExpr ctx doc hplain, if_neg hnot, foldlM_of_follows (follows_of_kept h),
        hvalue]
      rfl

/-- **The template language**: what is accepted is rendered piece by piece; the placeholder of a path
    is one piece, and inserts the values at the path if the path is kept. -/
theorem template_language_iff :
    (∀ config key template, parseTransform config key = .ok (some template) →
      ∃ pieces, Reads template.toList pieces ∧ ∀ ctx doc,
        render ctx template doc = String.join (pieces.map (Piece.rendered ctx doc))) ∧
    ∀ path, (∀ k, .key k ∈ path → PlainKey k) →
      Reads (['{', '{'] ++ (pathExpr path).toList ++ ['}', '}'])
        [.literal [], .placeholder (pathExpr path).toList, .literal []] ∧
      (Inserts path ↔ PathKept path) := by
  refine ⟨fun config key template h => ?_, fun path hplain => ?_⟩
  · obtain ⟨pieces, hpieces⟩ := reads_of_closed (closed_of_parseTransform h)
    exact ⟨pieces, hpieces, fun ctx doc => render_of_reads ctx doc hpieces⟩
  · exact ⟨reads_pathExpr hplain, inserts_iff hplain⟩

end Kept

theorem template_language_iff_userName :
    @Inserts asciiCaseMapping compactJson [.key "user", .key "name"] := by
  let _ : CaseMapping := asciiCaseMapping
  let _ : JsonCodec := compactJson
  have hplain : ∀ k, PathSeg.key k ∈ [PathSeg.key "user", PathSeg.key "name"] → PlainKey k := by
    intro k hk
    rcases List.mem_cons.mp hk with heq | hk
    · cases heq
      exact ⟨by decide, by decide, by decide⟩
    · cases List.mem_singleton.mp hk
      exact ⟨by decide, by decide, by decide⟩
  refine (template_language_iff.2 _ hplain).2.mpr ⟨?_, by simp, ?_, by simp⟩
  · intro k hk
    rcases List.mem_cons.mp hk with heq | hk
    · cases heq
      rfl
    · cases List.mem_singleton.mp hk
      rfl
  · intro k hk
    cases hk
    rfl

/-- A key of digits is taken for an index, one that ends in a space is cut short, and the empty one is
    the whole document. -/
theorem numeric_key_missed :
    Json.at? [.key "0"] (.object [("0", .string "x")]) = some (.string "x") ∧
    ∀ (_ : CaseMapping) (_ : JsonCodec) (ctx : Context),
      inserted ctx (.object [("0", .string "x")]) "body.0" = "" ∧
      ¬ Inserts [.key "0"] ∧ ¬ Inserts [.key "a "] ∧ ¬ Inserts [.key ""] := by
  refine ⟨rfl, ?_⟩
  intro _ _ ctx
  have hplain : ∀ k ∈ ["0", "a ", ""], ∀ k', PathSeg.key k' ∈ [PathSeg.key k] → PlainKey k' := by
    intro k hk k' hk'
    cases List.mem_singleton.mp hk'
    have hdec : ∀ k ∈ ["0", "a ", ""], '.' ∉ k.toList ∧ '{' ∉ k.toList ∧ '}' ∉ k.toList := by
      decide
    exact hdec k hk
  refine ⟨?_, ?_, ?_, ?_⟩
  · have htext : pathExpr ([] ++ [.key "0"]) = "body.0" := by decide
    rw [← htext, inserted_pathExpr ctx _ (hplain "0" (by decide))]
    rfl
  · rw [inserts_iff (hplain "0" (by decide))]
    intro h
    have hkey := h.keys "0" (by decide)
    revert hkey
    decide
  · rw [inserts_iff (hplain "a " (by decide))]
    intro h
    have hlast := h.last "a " rfl
    revert hlast
    decide
  · rw [inserts_iff (hplain "" (by decide))]
    exact fun h => h.named rfl

end BodyTransformerPlugin

end Featherbit
