/-
  THE `data-mask` NODE (`plugins/native/data_mask.rs`): fields of a request removed, replaced or
  rewritten, rule after rule.

  A body rule finds its value by the path as the document stands when its turn comes.  Removing an
  element of an array moves those behind it, so a later rule may find another value than the one
  its path addressed before (`Shifts`, `second_element_kept`).

  1. One rule, seen from a fixed path (`applyToJson_setAt`, by induction on the two paths): either
     what stands there is gone, or the document has it where it was, changed by the rule alone.
  2. So over a list of rules, none of which shifts the path (`maskDocument_setAt`).
  3. A rule on that very path then removes or replaces what is left of it (`body_masked`).
-/
import Featherbit.Json.Path
import Featherbit.Json.Text
import Featherbit.Lib.TryFold
import Featherbit.Plugins
import Featherbit.Rust.Regex

namespace Featherbit

namespace DataMaskPlugin

/-- Where a rule applies. -/
inductive Target where
  | query
  | header
  | body
deriving DecidableEq

end DataMaskPlugin

section Mask

variable [RegexEngine]

namespace DataMaskPlugin

/-- What a rule does to the matched field. -/
inductive Action where
  | remove
  | replace (value : String)
  | regex (regex : RegexEngine.Regex) (value : String)

structure MaskRule where
  target : Target
  name : String
  /-- the parsed path of a body rule -/
  path : List PathSeg
  action : Action

/-- `s.parse::<usize>()`. -/
def parseUsize (s : String) : Option Nat :=
  let digits :=
    match s.toList with
    | '+' :: rest => rest
    | l => l
  if digits ≠ [] ∧ digits.all Char.isDigit then
    let n := Nat.ofDigitChars 10 digits 0
    if n < 2 ^ 64 then some n else none
  else none

/-- One segment of a path; digits alone are an index. -/
def parseSegment (raw seg : String) : Except String PathSeg :=
  if seg = "" then .error ("body rule path '" ++ raw ++ "' has an empty segment")
  else
    match parseUsize seg with
    | some i => .ok (.index i)
    | none => .ok (.key seg)

/-- `parse_dotted_path`. -/
def parseDottedPath (raw : String) : Except String (List PathSeg) :=
  let trimmed := ((stripPrefix "$." raw).or (stripPrefix "$" raw)).getD raw
  if trimmed = "" then .error ("body rule path '" ++ raw ++ "' is empty")
  else (splitChar '.' trimmed).mapM (parseSegment raw)

/-- `regex_mask`: the text with its first match rewritten, if it has one. -/
def regexMask (s : String) (regex : RegexEngine.Regex) (value : String) : Option String :=
  if RegexEngine.isMatch regex s then some (RegexEngine.replace regex s value) else none

/-- The last step of `apply_to_json`, at the parent of the addressed value. -/
def applyToChild (last : PathSeg) (action : Action) (parent : Json) : Json × Bool :=
  match Json.child last parent with
  | none => (parent, false)
  | some found =>
    match action with
    | .remove => (Json.removeChild last parent, true)
    | .replace value => (Json.setChild last (.string value) parent, true)
    | .regex regex value =>
      match found.asStr.bind fun s => regexMask s regex value with
      | some masked => (Json.setChild last (.string masked) parent, true)
      | none => (parent, false)

/-- `apply_to_json`: the document after the rule, and whether anything changed. -/
def applyToJson : List PathSeg → Action → Json → Json × Bool
  | [], _, root => (root, false)
  | [last], action, current => applyToChild last action current
  | seg :: next :: path, action, current =>
    match Json.child seg current with
    | none => (current, false)
    | some inner =>
      let (inner, changed) := applyToJson (next :: path) action inner
      (Json.setChild seg inner current, changed)

/-- `apply_to_multimap`. -/
def applyToMultimap (name : String) (action : Action) (map : HashMap (List String)) :
    HashMap (List String) :=
  match map[name]? with
  | none => map
  | some values =>
    match action with
    | .remove => map.erase name
    | .replace value => map.insert name [value]
    | .regex regex value => map.insert name (values.map fun v => (regexMask v regex value).getD v)

end DataMaskPlugin

structure DataMaskPlugin where
  rules : List DataMaskPlugin.MaskRule
  maxBodySize : Nat

namespace DataMaskPlugin

def parseTarget : Option String → Except String Target
  | some "query" => .ok .query
  | some "header" => .ok .header
  | some "body" => .ok .body
  | some other => .error ("unknown type '" ++ other ++ "' (query|header|body)")
  | none => .error "'type' is required"

/-- The format of a body rule. -/
def checkFormat : Option String → Except String Unit
  | some "json" => .ok ()
  | some other =>
    .error ("body_format '" ++ other ++ "' is not supported — featherbit implements 'json' only")
  | none => .error "'body_format' is required for body rules"

/-- A field that an action needs. -/
def needed (field : Option String) (message : String) : Except String String :=
  match field with
  | some s => .ok s
  | none => .error message

def parseAction (text : String → Option String) : Except String Action :=
  match text "action" with
  | some "remove" => .ok .remove
  | some "replace" => do
    return .replace (← needed (text "value") "'value' is required for action 'replace'")
  | some "regex" => do
    let pattern ← needed (text "regex") "'regex' is required for action 'regex'"
    let value ← needed (text "value") "'value' is required for action 'regex'"
    match RegexEngine.new pattern with
    | .ok regex => return .regex regex value
    | .error e => .error ("invalid regex '" ++ pattern ++ "': " ++ e)
  | some other => .error ("unknown action '" ++ other ++ "' (remove|replace|regex)")
  | none => .error "'action' is required"

/-- `parse_rule`. -/
def parseRule (item : Json) : Except String MaskRule :=
  match item.asObject with
  | none => .error "must be an object"
  | some fields => do
    let text := fun key => (fields.lookup key).bind Json.asStr
    let target ← parseTarget (text "type")
    let name ← needed ((text "name").filter (· ≠ "")) "'name' is required"
    let _ ← (if target = .body then checkFormat (text "body_format") else .ok ())
    let action ← parseAction text
    let path ← (if target = .body then parseDottedPath name else .ok [])
    return { target := target, name := name, path := path, action := action }

/-- The rules from the one numbered `i` on. -/
def parseRules : Nat → List Json → Except String (List MaskRule)
  | _, [] => .ok []
  | i, item :: items =>
    match parseRule item with
    | .error e => .error ("data-mask rule " ++ showNat i ++ ": " ++ e)
    | .ok rule => (parseRules (i + 1) items).map (rule :: ·)

/-- The field `request`. -/
def parseRequest : Option Json → Except String (List MaskRule)
  | none => .ok []
  | some raw =>
    match raw.asArray with
    | none => .error "data-mask: 'request' must be an array of rule objects"
    | some items => parseRules 0 items

/-- The field `max_body_size`. -/
def parseMaxBodySize : Option Json → Except String Nat
  | none => .ok (1024 * 1024)
  | some v =>
    match v.asU64.filter (0 < ·) with
    | some n => .ok n.toNat
    | none => .error "data-mask: 'max_body_size' must be a positive integer"

/-- `DataMaskPlugin::from_config`. -/
def fromConfig (config : HashMap Json) : Except String DataMaskPlugin := do
  let rules ← parseRequest config["request"]?
  let maxBodySize ← parseMaxBodySize config["max_body_size"]?
  return { rules := rules, maxBodySize := maxBodySize }

section Execute

variable [CaseMapping] [JsonCodec] (plugin : DataMaskPlugin)

/-- The loop of `execute`: the request, the document once it is read, and whether it changed. -/
structure MaskState where
  request : GatewayRequest
  jsonBody : Option Json
  bodyMasked : Bool

/-- One rule. -/
def applyRule (s : MaskState) (rule : MaskRule) : MaskState :=
  match rule.target with
  | .query =>
    { s with request := { s.request with
        queryParams := applyToMultimap rule.name rule.action s.request.queryParams } }
  | .header =>
    { s with request := { s.request with
        headers := applyToMultimap (toLowercase rule.name) rule.action s.request.headers } }
  | .body =>
    if s.request.body = [] ∨ plugin.maxBodySize < s.request.body.length then s
    else
      match s.jsonBody.or (JsonCodec.parse s.request.body) with
      | none => s
      | some doc =>
        let (doc, changed) := applyToJson rule.path rule.action doc
        { s with jsonBody := some doc, bodyMasked := s.bodyMasked || changed }

/-- The masked document, in place of the body. -/
def finish (s : MaskState) : GatewayRequest :=
  match s.bodyMasked, s.jsonBody with
  | true, some doc =>
    { s.request with
      body := asBytes (JsonText.toText doc)
      headers := s.request.headers.erase "content-length" }
  | _, _ => s.request

/-- `execute`. -/
def execute (ctx : Context) : PluginResult :=
  let s := plugin.rules.foldl plugin.applyRule
    { request := ctx.request, jsonBody := none, bodyMasked := false }
  .ok { context := { ctx with request := finish s }, namedOutputs := ∅ }

end Execute

/-! ## One rule, seen from a fixed path -/

/-- A removal at the first path moves what the second one addresses: up to an index they are the
    same, and there the removed element comes before. -/
def Shifts : List PathSeg → List PathSeg → Prop
  | [last], seg :: _ => Json.Before last seg
  | seg :: next :: q, seg' :: p => seg = seg' ∧ Shifts (next :: q) p
  | [], _ | [_], [] | _ :: _ :: _, [] => False

/-- What a rule makes of the very value it addresses, where it leaves one. -/
def rewriteValue (action : Action) (y : Json) : Json :=
  match action with
  | .remove => y
  | .replace value => .string value
  | .regex regex value =>
    match y.asStr.bind fun s => regexMask s regex value with
    | some masked => .string masked
    | none => y

/-- What the rule at the first path leaves of the value at the second one, if it is there still. -/
def below : List PathSeg → Action → List PathSeg → Json → Json
  | [], action, [], y => rewriteValue action y
  | [], _, _ :: _, y => y
  | q, action, [], y => (applyToJson q action y).1
  | t :: q, action, s :: p, y => if t = s then below q action p y else y

section Step

open Json

variable {action : Action} {p q : List PathSeg} {s t : PathSeg} {d c x y : Json}

theorem applyToJson_cons (hq : q ≠ []) (h : child t d = some c) :
    applyToJson (t :: q) action d =
      (setChild t (applyToJson q action c).1 d, (applyToJson q action c).2) := by
  cases q with
  | nil => exact absurd rfl hq
  | cons next q =>
    rw [applyToJson, h]

theorem applyToJson_cons_none (h : child t d = none) : applyToJson (t :: q) action d = (d, false) := by
  cases q with
  | nil => rw [applyToJson, applyToChild, h]
  | cons next q => rw [applyToJson, h]

/-- Removing or replacing a value does away with it. -/
theorem applyToChild_self (haction : ∀ regex value, action ≠ .regex regex value)
    (h : (child s d).isSome) : ∃ d', ∀ z, applyToChild s action (setChild s z d) = (d', true) := by
  cases action with
  | remove =>
    refine ⟨removeChild s d, fun z => ?_⟩
    rw [applyToChild, child_setChild_self h]
    show (removeChild s (setChild s z d), true) = _
    rw [removeChild_setChild_self]
  | replace value =>
    refine ⟨setChild s (.string value) d, fun z => ?_⟩
    rw [applyToChild, child_setChild_self h]
    show (setChild s (.string value) (setChild s z d), true) = _
    rw [setChild_setChild]
  | regex regex value => exact absurd rfl (haction regex value)

theorem applyToChild_rewrites (haction : action ≠ .remove) (h : (child s d).isSome) (z : Json) :
    (applyToChild s action (setChild s z d)).1 = setChild s (rewriteValue action z) d := by
  rw [applyToChild, child_setChild_self h]
  cases action with
  | remove => exact absurd rfl haction
  | replace value => exact setChild_setChild
  | regex regex value =>
    rw [rewriteValue]
    cases hz : z.asStr.bind fun s => regexMask s regex value with
    | none => simp only [hz]
    | some masked =>
      simp only [hz]
      exact setChild_setChild

/-- What is done to another entry leaves this one alone. -/
theorem applyToChild_ne (hne : t ≠ s) (hshift : action = .remove → ¬ Before t s) :
    ∃ d', child s d' = child s d ∧
      ∀ z, (applyToChild t action (setChild s z d)).1 = setChild s z d' := by
  have hchild : ∀ z, child t (setChild s z d) = child t d := fun z => child_setChild_ne hne.symm
  cases hfound : child t d with
  | none =>
    refine ⟨d, rfl, fun z => ?_⟩
    rw [applyToChild, hchild, hfound]
  | some found =>
    cases action with
    | remove =>
      refine ⟨removeChild t d, child_removeChild hne (hshift rfl), fun z => ?_⟩
      rw [applyToChild, hchild, hfound]
      exact removeChild_setChild hne (hshift rfl)
    | replace value =>
      refine ⟨setChild t (.string value) d, child_setChild_ne hne, fun z => ?_⟩
      rw [applyToChild, hchild, hfound]
      exact setChild_comm hne
    | regex regex value =>
      cases hmasked : found.asStr.bind fun s => regexMask s regex value with
      | none =>
        refine ⟨d, rfl, fun z => ?_⟩
        simp only [applyToChild, hchild, hfound, hmasked]
      | some masked =>
        refine ⟨setChild t (.string masked) d, child_setChild_ne hne, fun z => ?_⟩
        simp only [applyToChild, hchild, hfound, hmasked]
        exact setChild_comm hne

/-- What is done below another entry leaves this one alone. -/
theorem applyToJson_ne (hne : t ≠ s) (hshift : action = .remove → ¬ Shifts (t :: q) (s :: p)) :
    ∃ d', child s d' = child s d ∧
      ∀ z, (applyToJson (t :: q) action (setChild s z d)).1 = setChild s z d' := by
  rcases eq_or_ne q [] with rfl | hq
  · have hbefore : action = .remove → ¬ Before t s := hshift
    exact applyToChild_ne hne hbefore
  · have hchild : ∀ z, child t (setChild s z d) = child t d := fun z => child_setChild_ne hne.symm
    cases hfound : child t d with
    | none =>
      refine ⟨d, rfl, fun z => ?_⟩
      rw [applyToJson_cons_none ((hchild z).trans hfound)]
    | some found =>
      refine ⟨setChild t (applyToJson q action found).1 d, child_setChild_ne hne, fun z => ?_⟩
      rw [applyToJson_cons hq ((hchild z).trans hfound)]
      exact setChild_comm hne

/-- A rule whose removal does not shift the path: what the path addresses is gone, whatever it
    was, or it is where it was, changed by the rule alone.  By induction on the path. -/
theorem applyToJson_setAt (hq : q ≠ []) (h : (at? p d).isSome)
    (hshift : action = .remove → ¬ Shifts q p) :
    (∃ d', ∀ y, applyToJson q action (setAt p y d) = (d', true)) ∨
      ∃ d', (at? p d').isSome ∧
        ∀ y, (applyToJson q action (setAt p y d)).1 = setAt p (below q action p y) d' := by
  induction p generalizing q d with
  | nil =>
    refine .inr ⟨d, rfl, fun y => ?_⟩
    cases q with
    | nil => exact absurd rfl hq
    | cons t q => rfl
  | cons s p ih =>
    obtain ⟨x, hx⟩ := Option.isSome_iff_exists.mp h
    obtain ⟨c, hc, hrest⟩ := Option.bind_eq_some_iff.mp hx
    have hentry : (child s d).isSome := Option.isSome_iff_exists.mpr ⟨c, hc⟩
    have hsome : (at? p c).isSome := Option.isSome_iff_exists.mpr ⟨x, hrest⟩
    obtain ⟨t, q, rfl⟩ := List.exists_cons_of_ne_nil hq
    by_cases hts : t = s
    · subst hts
      rcases eq_or_ne q [] with rfl | hnext
      · by_cases haction : ∀ regex value, action ≠ .regex regex value
        · obtain ⟨d', hd'⟩ := applyToChild_self haction hentry
          refine .inl ⟨d', fun y => ?_⟩
          rw [setAt_cons hc]
          exact hd' _
        · push Not at haction
          obtain ⟨regex, value, rfl⟩ := haction
          refine .inr ⟨d, h, fun y => ?_⟩
          rw [setAt_cons hc, setAt_cons hc]
          refine (applyToChild_rewrites (by simp) hentry _).trans (congrArg (setChild t · d) ?_)
          rw [below, if_pos rfl]
          cases p with
          | nil => rfl
          | cons s' p =>
            -- the value has entries, so the regex rule passes it over
            rw [rewriteValue, asStr_setAt_cons hsome]
            rfl
      · have hdeeper : action = .remove → ¬ Shifts q p := by
          obtain ⟨next, q, rfl⟩ := List.exists_cons_of_ne_nil hnext
          exact fun hremove hq => hshift hremove ⟨rfl, hq⟩
        have hstep : ∀ y, applyToJson (t :: q) action (setAt (t :: p) y d) =
            (setChild t (applyToJson q action (setAt p y c)).1 d,
              (applyToJson q action (setAt p y c)).2) := by
          intro y
          rw [setAt_cons hc, applyToJson_cons hnext (child_setChild_self hentry), setChild_setChild]
        rcases ih hnext hsome hdeeper with ⟨c', hc'⟩ | ⟨c', hat, hc'⟩
        · refine .inl ⟨setChild t c' d, fun y => ?_⟩
          rw [hstep, hc']
        · have hchild : child t (setChild t c' d) = some c' := child_setChild_self hentry
          refine .inr ⟨setChild t c' d, ?_, fun y => ?_⟩
          · rw [at?_cons hchild]
            exact hat
          · rw [hstep, hc', setAt_cons hchild, setChild_setChild, below, if_pos rfl]
    · obtain ⟨d', hsame, hd'⟩ := applyToJson_ne hts hshift
      have hchild : child s d' = some c := hsame.trans hc
      refine .inr ⟨d', ?_, fun y => ?_⟩
      · rw [at?_cons hchild]
        exact hsome
      · rw [setAt_cons hc, hd', below, if_neg hts, setAt_cons hchild]

/-- A rule that removes or replaces the value itself. -/
theorem applyToJson_self (haction : ∀ regex value, action ≠ .regex regex value) (hp : p ≠ [])
    (h : (at? p d).isSome) : ∃ d', ∀ y, applyToJson p action (setAt p y d) = (d', true) := by
  induction p generalizing d with
  | nil => exact absurd rfl hp
  | cons s p ih =>
    obtain ⟨x, hx⟩ := Option.isSome_iff_exists.mp h
    obtain ⟨c, hc, hrest⟩ := Option.bind_eq_some_iff.mp hx
    have hentry : (child s d).isSome := Option.isSome_iff_exists.mpr ⟨c, hc⟩
    rcases eq_or_ne p [] with rfl | hnext
    · obtain ⟨d', hd'⟩ := applyToChild_self haction hentry
      refine ⟨d', fun y => ?_⟩
      rw [setAt_cons hc]
      exact hd' _
    · obtain ⟨c', hc'⟩ := ih hnext (Option.isSome_iff_exists.mpr ⟨x, hrest⟩)
      refine ⟨setChild s c' d, fun y => ?_⟩
      rw [setAt_cons hc, applyToJson_cons hnext (child_setChild_self hentry), setChild_setChild, hc']

/-- Where a rule leaves a value, it is the rewritten one. -/
theorem at?_applyToJson (haction : action ≠ .remove) :
    at? p (applyToJson p action d).1 = (at? p d).map fun y =>
      if p = [] then y else rewriteValue action y := by
  induction p generalizing d with
  | nil => rfl
  | cons s p ih =>
    simp only [List.cons_ne_nil, if_false]
    cases hfound : child s d with
    | none =>
      rw [applyToJson_cons_none hfound]
      simp [at?, hfound]
    | some found =>
      have hentry : (child s d).isSome := Option.isSome_iff_exists.mpr ⟨found, hfound⟩
      rcases eq_or_ne p [] with rfl | hp
      · have hself := applyToChild_rewrites haction hentry found
        rw [setChild_child hfound] at hself
        rw [at?_cons hfound]
        show at? [s] (applyToChild s action d).1 = _
        rw [hself, at?_cons (child_setChild_self hentry)]
        rfl
      · rw [applyToJson_cons hp hfound, at?_cons hfound, at?_cons (child_setChild_self hentry), ih]
        simp only [if_neg hp]

/-- A rule that changes nothing says so. -/
theorem eq_of_applyToJson_false (h : (applyToJson q action d).2 = false) :
    (applyToJson q action d).1 = d := by
  induction q generalizing d with
  | nil => rfl
  | cons t q ih =>
    cases hfound : child t d with
    | none => rw [applyToJson_cons_none hfound]
    | some found =>
      rcases eq_or_ne q [] with rfl | hq
      · show (applyToChild t action d).1 = d
        have hfalse : (applyToChild t action d).2 = false := h
        cases action with
        | remove | replace value =>
          rw [applyToChild, hfound] at hfalse
          cases hfalse
        | regex regex value =>
          rw [applyToChild, hfound] at hfalse ⊢
          cases hmasked : found.asStr.bind fun s => regexMask s regex value with
          | none => simp only [hmasked]
          | some masked =>
            simp only [hmasked] at hfalse
            cases hfalse
      · rw [applyToJson_cons hq hfound] at h ⊢
        have hinner : (applyToJson q action found).1 = found := ih h
        show setChild t (applyToJson q action found).1 d = d
        rw [hinner, setChild_child hfound]

end Step

/-! ## The rules on a document, one after another -/

/-- The document after the body rules, and whether one of them changed it. -/
def maskDocument : List MaskRule → Json → Json × Bool
  | [], doc => (doc, false)
  | rule :: rules, doc =>
    if rule.target = .body then
      let (doc, changed) := applyToJson rule.path rule.action doc
      let (doc, later) := maskDocument rules doc
      (doc, changed || later)
    else maskDocument rules doc

/-- What the rules leave of the value at a path, if it is there still. -/
def rewritten (path : List PathSeg) : List MaskRule → Json → Json
  | [], y => y
  | rule :: rules, y =>
    if rule.target = .body then rewritten path rules (below rule.path rule.action path y)
    else rewritten path rules y

section Run

open Json

variable {p : List PathSeg} {d : Json} {rule : MaskRule} {rules before after : List MaskRule}

theorem maskDocument_of_body (h : rule.target = .body) (doc : Json) :
    maskDocument (rule :: rules) doc =
      ((maskDocument rules (applyToJson rule.path rule.action doc).1).1,
        (applyToJson rule.path rule.action doc).2 ||
          (maskDocument rules (applyToJson rule.path rule.action doc).1).2) := by
  rw [maskDocument, if_pos h]

theorem maskDocument_append (doc : Json) : maskDocument (before ++ after) doc =
    ((maskDocument after (maskDocument before doc).1).1,
      (maskDocument before doc).2 || (maskDocument after (maskDocument before doc).1).2) := by
  induction before generalizing doc with
  | nil => rfl
  | cons rule before ih =>
    by_cases hbody : rule.target = .body
    · rw [List.cons_append, maskDocument_of_body hbody, maskDocument_of_body hbody, ih]
      simp only [Bool.or_assoc]
    · rw [List.cons_append, maskDocument, if_neg hbody, maskDocument, if_neg hbody, ih]

/-- Rules that change nothing say so. -/
theorem eq_of_maskDocument_false (h : (maskDocument rules d).2 = false) :
    (maskDocument rules d).1 = d := by
  induction rules generalizing d with
  | nil => rfl
  | cons rule rules ih =>
    by_cases hbody : rule.target = .body
    · rw [maskDocument_of_body hbody] at h ⊢
      obtain ⟨hfirst, hrest⟩ := Bool.or_eq_false_iff.mp h
      rw [eq_of_applyToJson_false hfirst] at hrest ⊢
      exact ih hrest
    · rw [maskDocument, if_neg hbody] at h ⊢
      exact ih h

/-- Body rules none of which shifts the path: what it addresses is gone after them, whatever it
    was, or it is where it was, changed by these rules alone. -/
theorem maskDocument_setAt
    (hpath : ∀ rule ∈ rules, rule.target = .body → rule.path ≠ [])
    (hshift : ∀ rule ∈ rules, rule.target = .body → rule.action = .remove → ¬ Shifts rule.path p)
    (h : (at? p d).isSome) :
    (∃ d', ∀ y, maskDocument rules (setAt p y d) = (d', true)) ∨
      ∃ d', (at? p d').isSome ∧
        ∀ y, (maskDocument rules (setAt p y d)).1 = setAt p (rewritten p rules y) d' := by
  induction rules generalizing d with
  | nil => exact .inr ⟨d, h, fun y => rfl⟩
  | cons rule rules ih =>
    have hpath' : ∀ rule ∈ rules, rule.target = .body → rule.path ≠ [] :=
      fun r hr => hpath r (List.mem_cons_of_mem rule hr)
    have hshift' : ∀ r ∈ rules, r.target = .body → r.action = .remove → ¬ Shifts r.path p :=
      fun r hr => hshift r (List.mem_cons_of_mem rule hr)
    by_cases hbody : rule.target = .body
    · have hstep := applyToJson_setAt (hpath rule List.mem_cons_self hbody) h
        (hshift rule List.mem_cons_self hbody)
      rcases hstep with ⟨d₁, hd₁⟩ | ⟨d₁, hat, hd₁⟩
      · refine .inl ⟨(maskDocument rules d₁).1, fun y => ?_⟩
        rw [maskDocument_of_body hbody, hd₁]
        rfl
      · rcases ih hpath' hshift' hat with ⟨d₂, hd₂⟩ | ⟨d₂, hat₂, hd₂⟩
        · refine .inl ⟨d₂, fun y => ?_⟩
          rw [maskDocument_of_body hbody, hd₁, hd₂, Bool.or_true]
        · refine .inr ⟨d₂, hat₂, fun y => ?_⟩
          rw [maskDocument_of_body hbody, hd₁, hd₂, rewritten, if_pos hbody]
    · rcases ih hpath' hshift' h with ⟨d₂, hd₂⟩ | ⟨d₂, hat₂, hd₂⟩
      · refine .inl ⟨d₂, fun y => ?_⟩
        rw [maskDocument, if_neg hbody, hd₂]
      · refine .inr ⟨d₂, hat₂, fun y => ?_⟩
        rw [maskDocument, if_neg hbody, hd₂, rewritten, if_neg hbody]

/-- A rule that removes or replaces what the path addresses leaves nothing of it. -/
theorem maskDocument_masks (hbody : rule.target = .body) (hrule : rule.path ≠ [])
    (haction : ∀ regex value, rule.action ≠ .regex regex value)
    (hpath : ∀ rule ∈ before, rule.target = .body → rule.path ≠ [])
    (hshift : ∀ earlier ∈ before, earlier.target = .body → earlier.action = .remove →
      ¬ Shifts earlier.path rule.path)
    (h : (at? rule.path d).isSome) :
    ∃ d', ∀ y, maskDocument (before ++ rule :: after) (setAt rule.path y d) = (d', true) := by
  rcases maskDocument_setAt hpath hshift h with ⟨d₁, hd₁⟩ | ⟨d₁, hat, hd₁⟩
  · refine ⟨(maskDocument (rule :: after) d₁).1, fun y => ?_⟩
    rw [maskDocument_append, hd₁]
    rfl
  · obtain ⟨d₂, hd₂⟩ := applyToJson_self haction hrule hat
    refine ⟨(maskDocument after d₂).1, fun y => ?_⟩
    rw [maskDocument_append, hd₁, maskDocument_of_body hbody, hd₂, Bool.true_or, Bool.or_true]

/-- What the rules make of two values at the path being the same, so are the documents. -/
theorem maskDocument_rewrites (hpath : ∀ rule ∈ before, rule.target = .body → rule.path ≠ [])
    (hshift : ∀ earlier ∈ before, earlier.target = .body → earlier.action = .remove →
      ¬ Shifts earlier.path p)
    (h : (at? p d).isSome) {y z : Json} (hsame : rewritten p before y = rewritten p before z) :
    (maskDocument (before ++ after) (setAt p y d)).1 =
      (maskDocument (before ++ after) (setAt p z d)).1 := by
  have hbefore : (maskDocument before (setAt p y d)).1 = (maskDocument before (setAt p z d)).1 := by
    rcases maskDocument_setAt hpath hshift h with ⟨d₁, hd₁⟩ | ⟨d₁, -, hd₁⟩
    · rw [hd₁, hd₁]
    · rw [hd₁, hd₁, hsame]
  rw [maskDocument_append, maskDocument_append, hbefore]

end Run

/-! ## The node -/

omit [RegexEngine] in
/-- Body rules have a path. -/
theorem parseDottedPath_ne_nil {raw : String} {path : List PathSeg}
    (h : parseDottedPath raw = .ok path) : path ≠ [] := by
  rw [parseDottedPath] at h
  split at h
  · cases h
  · have hlength := (TryFold.mapM_eq_ok.mp h).length_eq
    have hpieces : splitChar '.' (((stripPrefix "$." raw).or (stripPrefix "$" raw)).getD raw) ≠ [] := by
      simp [splitChar]
    intro hpath
    rw [hpath] at hlength
    exact hpieces (List.length_eq_zero_iff.mp hlength)

theorem parseRule_path {item : Json} {rule : MaskRule} (h : parseRule item = .ok rule)
    (hbody : rule.target = .body) : rule.path ≠ [] := by
  rw [parseRule] at h
  cases hfields : item.asObject with
  | none =>
    rw [hfields] at h
    cases h
  | some fields =>
    rw [hfields] at h
    obtain ⟨target, -, h⟩ := TryFold.bind_eq_ok.mp h
    obtain ⟨name, -, h⟩ := TryFold.bind_eq_ok.mp h
    obtain ⟨-, -, h⟩ := TryFold.bind_eq_ok.mp h
    obtain ⟨action, -, h⟩ := TryFold.bind_eq_ok.mp h
    obtain ⟨path, hpath, h⟩ := TryFold.bind_eq_ok.mp h
    cases h
    rw [if_pos hbody] at hpath
    exact parseDottedPath_ne_nil hpath

theorem parseRules_path {i : Nat} {items : List Json} {rules : List MaskRule}
    (h : parseRules i items = .ok rules) : ∀ rule ∈ rules, rule.target = .body → rule.path ≠ [] := by
  induction items generalizing i rules with
  | nil =>
    cases h
    simp
  | cons item items ih =>
    rw [parseRules] at h
    cases hrule : parseRule item with
    | error e =>
      rw [hrule] at h
      cases h
    | ok rule =>
      rw [hrule] at h
      cases hrest : parseRules (i + 1) items with
      | error e =>
        rw [hrest] at h
        cases h
      | ok rest =>
        rw [hrest] at h
        cases h
        intro r hr
        rcases List.mem_cons.mp hr with rfl | hr
        · exact parseRule_path hrule
        · exact ih hrest r hr

theorem fromConfig_path {config : HashMap Json} {plugin : DataMaskPlugin}
    (h : fromConfig config = .ok plugin) :
    ∀ rule ∈ plugin.rules, rule.target = .body → rule.path ≠ [] := by
  rw [fromConfig] at h
  obtain ⟨rules, hrules, h⟩ := TryFold.bind_eq_ok.mp h
  obtain ⟨maxBodySize, -, h⟩ := TryFold.bind_eq_ok.mp h
  cases h
  cases hrequest : config["request"]? with
  | none =>
    rw [hrequest] at hrules
    cases hrules
    simp
  | some raw =>
    rw [hrequest, parseRequest] at hrules
    cases hitems : raw.asArray with
    | none =>
      rw [hitems] at hrules
      cases hrules
    | some items =>
      rw [hitems] at hrules
      exact parseRules_path hrules

section Node

variable [CaseMapping]

/-- The body rules look at a body of this size. -/
def Readable (plugin : DataMaskPlugin) (body : Bytes) : Prop :=
  body ≠ [] ∧ body.length ≤ plugin.maxBodySize

/-- A rule on the query or the headers. -/
def maskFields (request : GatewayRequest) (rule : MaskRule) : GatewayRequest :=
  match rule.target with
  | .query => { request with
      queryParams := applyToMultimap rule.name rule.action request.queryParams }
  | .header => { request with
      headers := applyToMultimap (toLowercase rule.name) rule.action request.headers }
  | .body => request

theorem foldl_maskFields_body (rules : List MaskRule) (request : GatewayRequest) (body : Bytes) :
    rules.foldl maskFields { request with body := body } =
      { rules.foldl maskFields request with body := body } := by
  induction rules generalizing request with
  | nil => rfl
  | cons rule rules ih =>
    have hstep : maskFields { request with body := body } rule =
        { maskFields request rule with body := body } := by
      unfold maskFields
      cases rule.target <;> rfl
    rw [List.foldl_cons, List.foldl_cons, hstep, ih]

variable [JsonCodec] {plugin : DataMaskPlugin}

/-- The state has the document at hand, and says so if it was changed. -/
structure MaskState.Holds (s : MaskState) (doc : Json) : Prop where
  document : s.jsonBody.or (JsonCodec.parse s.request.body) = some doc
  masked : s.bodyMasked = true → s.jsonBody.isSome

theorem foldl_applyRule (rules : List MaskRule) {s : MaskState} {doc : Json}
    (hbody : Readable plugin s.request.body) (hdoc : s.Holds doc) :
    (rules.foldl plugin.applyRule s).request = rules.foldl maskFields s.request ∧
      (rules.foldl plugin.applyRule s).Holds (maskDocument rules doc).1 ∧
      (rules.foldl plugin.applyRule s).bodyMasked =
        (s.bodyMasked || (maskDocument rules doc).2) := by
  induction rules generalizing s doc with
  | nil => exact ⟨rfl, hdoc, (Bool.or_false _).symm⟩
  | cons rule rules ih =>
    rw [List.foldl_cons, List.foldl_cons]
    cases htarget : rule.target with
    | query | header =>
      have hfields : (plugin.applyRule s rule).request = maskFields s.request rule := by
        rw [applyRule, maskFields, htarget]
      have hkept : (plugin.applyRule s rule).request.body = s.request.body ∧
          (plugin.applyRule s rule).jsonBody = s.jsonBody ∧
          (plugin.applyRule s rule).bodyMasked = s.bodyMasked := by
        rw [applyRule, htarget]
        exact ⟨rfl, rfl, rfl⟩
      obtain ⟨hbytes, hjson, hflag⟩ := hkept
      have hholds : (plugin.applyRule s rule).Holds doc :=
        ⟨by rw [hjson, hbytes]; exact hdoc.document, by rw [hflag, hjson]; exact hdoc.masked⟩
      obtain ⟨hrequest, hfinal, hmasked⟩ := ih (by rw [hbytes]; exact hbody) hholds
      have hskip : maskDocument (rule :: rules) doc = maskDocument rules doc := by
        rw [maskDocument, if_neg (by rw [htarget]; decide)]
      rw [hskip, hrequest, hfields, hmasked, hflag]
      exact ⟨rfl, hfinal, rfl⟩
    | body =>
      have hbig : ¬ (s.request.body = [] ∨ plugin.maxBodySize < s.request.body.length) := by
        rintro (hempty | hlong)
        · exact hbody.1 hempty
        · exact absurd hbody.2 (Nat.not_le.mpr hlong)
      have hstep : plugin.applyRule s rule =
          { s with
            jsonBody := some (applyToJson rule.path rule.action doc).1
            bodyMasked := s.bodyMasked || (applyToJson rule.path rule.action doc).2 } := by
        rw [applyRule, htarget]
        simp only [if_neg hbig, hdoc.document]
      have hfields : maskFields s.request rule = s.request := by
        rw [maskFields, htarget]
      have hsame : (plugin.applyRule s rule).request = s.request := by rw [hstep]
      have hflag : (plugin.applyRule s rule).bodyMasked =
          (s.bodyMasked || (applyToJson rule.path rule.action doc).2) := by rw [hstep]
      have hholds : (plugin.applyRule s rule).Holds (applyToJson rule.path rule.action doc).1 := by
        rw [hstep]
        exact ⟨rfl, fun _ => rfl⟩
      obtain ⟨hrequest, hfinal, hmasked⟩ := ih (by rw [hsame]; exact hbody) hholds
      rw [maskDocument_of_body htarget, hrequest, hsame, hfields, hmasked, hflag, Bool.or_assoc]
      exact ⟨rfl, hfinal, rfl⟩

/-- The request that goes on, given the masked document and whether it was changed. -/
def masked (request : GatewayRequest) : Json × Bool → GatewayRequest
  | (doc, true) =>
    { request with
      body := asBytes (JsonText.toText doc)
      headers := request.headers.erase "content-length" }
  | (_, false) => request

theorem execute_eq {ctx : Context} {doc : Json} (hbody : Readable plugin ctx.request.body)
    (hdoc : JsonCodec.parse ctx.request.body = some doc) :
    plugin.execute ctx = .ok
      { context := { ctx with
          request := masked (plugin.rules.foldl maskFields ctx.request)
            (maskDocument plugin.rules doc) }
        namedOutputs := ∅ } := by
  have hstart : MaskState.Holds { request := ctx.request, jsonBody := none, bodyMasked := false } doc :=
    ⟨hdoc, fun h => by cases h⟩
  obtain ⟨hrequest, hholds, hmasked⟩ := foldl_applyRule plugin.rules hbody hstart
  rw [execute]
  generalize plugin.rules.foldl plugin.applyRule
    { request := ctx.request, jsonBody := none, bodyMasked := false } = s at *
  have hfinish : finish s = masked (plugin.rules.foldl maskFields ctx.request)
      (maskDocument plugin.rules doc) := by
    rw [← show s.request = _ from hrequest]
    generalize maskDocument plugin.rules doc = result at *
    obtain ⟨doc', changed⟩ := result
    have hflag : s.bodyMasked = changed := hmasked.trans (Bool.false_or changed)
    cases changed with
    | false => rw [finish, hflag, masked]
    | true =>
      obtain ⟨found, hfound⟩ := Option.isSome_iff_exists.mp (hholds.masked hflag)
      have hsame : some found = some doc' := by
        have hdoc' := hholds.document
        rw [hfound] at hdoc'
        exact hdoc'
      rw [finish, hflag, hfound, hsame, masked]
  rw [hfinish]

/-- A result sends the document on: as the text of it, or as the body that came in. -/
def Carries (result : PluginResult) (body : Bytes) (doc : Json) : Prop :=
  ∃ out, result = .ok out ∧
    (out.context.request.body = asBytes (JsonText.toText doc) ∨
      out.context.request.body = body ∧ JsonCodec.parse body = some doc)

theorem carries_execute {ctx : Context} {doc : Json} (hbody : Readable plugin ctx.request.body)
    (hdoc : JsonCodec.parse ctx.request.body = some doc) :
    Carries (plugin.execute ctx) ctx.request.body (maskDocument plugin.rules doc).1 := by
  refine ⟨_, execute_eq hbody hdoc, ?_⟩
  cases hresult : maskDocument plugin.rules doc with
  | mk masked changed =>
    cases changed with
    | true => exact .inl rfl
    | false =>
      have hsame : masked = doc := by
        have hfalse : (maskDocument plugin.rules doc).2 = false := by rw [hresult]
        have hkept := eq_of_maskDocument_false hfalse
        rwa [hresult] at hkept
      refine .inr ⟨?_, hsame ▸ hdoc⟩
      have hkept := congrArg GatewayRequest.body
        (foldl_maskFields_body plugin.rules ctx.request ctx.request.body)
      exact hkept

/-- A body rule before which no removal shifts its path.  Where it removes or replaces, the node
    does the same whatever the path addressed; where it rewrites, the document that is sent on
    depends on it only by what the rules make of it; and right after its turn the path addresses
    nothing, or what the rule made of the value. -/
theorem body_masked {config : HashMap Json} (hconfig : fromConfig config = .ok plugin)
    {before after : List MaskRule} {rule : MaskRule} (hrules : plugin.rules = before ++ rule :: after)
    (hbody : rule.target = .body)
    (hshift : ∀ earlier ∈ before, earlier.target = .body → earlier.action = .remove →
      ¬ Shifts earlier.path rule.path)
    {ctx : Context} {doc x : Json} (hread : Readable plugin ctx.request.body)
    (hdoc : JsonCodec.parse ctx.request.body = some doc) (hx : Json.at? rule.path doc = some x)
    {body : Bytes} {y : Json} (hread' : Readable plugin body)
    (hdoc' : JsonCodec.parse body = some (Json.setAt rule.path y doc)) :
    ((∀ regex value, rule.action ≠ .regex regex value) →
      plugin.execute { ctx with request := { ctx.request with body := body } } =
        plugin.execute ctx) ∧
    (rewritten rule.path (before ++ [rule]) x = rewritten rule.path (before ++ [rule]) y →
      ∃ masked, Carries (plugin.execute ctx) ctx.request.body masked ∧
        Carries (plugin.execute { ctx with request := { ctx.request with body := body } }) body
          masked) ∧
    (rule.action ≠ .remove →
      Json.at? rule.path (maskDocument (before ++ [rule]) doc).1 =
        (Json.at? rule.path (maskDocument before doc).1).map (rewriteValue rule.action)) := by
  have hpaths := fromConfig_path hconfig
  rw [hrules] at hpaths
  have hpath : rule.path ≠ [] :=
    hpaths rule (List.mem_append_right before List.mem_cons_self) hbody
  have hbefore : ∀ rule ∈ before, rule.target = .body → rule.path ≠ [] :=
    fun r hr => hpaths r (List.mem_append_left _ hr)
  have hsome : (Json.at? rule.path doc).isSome := Option.isSome_iff_exists.mpr ⟨x, hx⟩
  have hself : Json.setAt rule.path x doc = doc := Json.setAt_self hx
  have hmasks : (∀ regex value, rule.action ≠ .regex regex value) →
      ∃ d', ∀ y, maskDocument plugin.rules (Json.setAt rule.path y doc) = (d', true) := by
    intro haction
    rw [hrules]
    exact maskDocument_masks hbody hpath haction hbefore hshift hsome
  refine ⟨fun haction => ?_, fun hsame => ?_, fun haction => ?_⟩
  · obtain ⟨d', hd'⟩ := hmasks haction
    have hx' := hd' x
    have hy' := hd' y
    rw [hself] at hx'
    rw [execute_eq hread hdoc, execute_eq hread' hdoc', hx', hy', foldl_maskFields_body]
    rfl
  · have hsplit : plugin.rules = (before ++ [rule]) ++ after := by
      rw [hrules, List.append_assoc, List.singleton_append]
    -- the rules up to this one leave the same document of both bodies, or it is gone from both
    have hdocs : (maskDocument plugin.rules doc).1 =
        (maskDocument plugin.rules (Json.setAt rule.path y doc)).1 := by
      by_cases haction : ∀ regex value, rule.action ≠ .regex regex value
      · obtain ⟨d', hd'⟩ := hmasks haction
        have hx' := hd' x
        rw [hself] at hx'
        rw [hx', hd']
      · push Not at haction
        obtain ⟨regex, value, haction⟩ := haction
        have hupto : ∀ earlier ∈ before ++ [rule], earlier.target = .body →
            earlier.action = .remove → ¬ Shifts earlier.path rule.path := by
          intro earlier hearlier
          rcases List.mem_append.mp hearlier with hearlier | hearlier
          · exact hshift earlier hearlier
          · rw [List.mem_singleton.mp hearlier, haction]
            exact fun _ hremove => by cases hremove
        have hnonempty : ∀ r ∈ before ++ [rule], r.target = .body → r.path ≠ [] := by
          intro r hr
          rcases List.mem_append.mp hr with hr | hr
          · exact hbefore r hr
          · rw [List.mem_singleton.mp hr]
            exact fun _ => hpath
        rw [hsplit]
        have hboth : (maskDocument ((before ++ [rule]) ++ after) (Json.setAt rule.path x doc)).1 = _ :=
          maskDocument_rewrites hnonempty hupto hsome hsame
        rwa [hself] at hboth
    refine ⟨_, carries_execute hread hdoc, ?_⟩
    rw [hdocs]
    exact carries_execute hread' hdoc'
  · rw [maskDocument_append, maskDocument_of_body hbody]
    show Json.at? rule.path (applyToJson rule.path rule.action (maskDocument before doc).1).1 = _
    rw [at?_applyToJson haction]
    simp only [if_neg hpath]

end Node

end DataMaskPlugin

end Mask

/-! ## A node at work -/

namespace DataMaskPlugin

/-- The pattern's first occurrence, replaced. -/
def replaceFirst (pattern value : List Char) : List Char → List Char
  | [] => if pattern = [] then value else []
  | c :: cs =>
    if pattern <+: c :: cs then value ++ (c :: cs).drop pattern.length
    else c :: replaceFirst pattern value cs

/-- Patterns and templates that hold no special character, as the `regex` crate treats them. -/
abbrev literalRegex : RegexEngine where
  Regex := String
  new pattern := .ok pattern
  isMatch pattern s := decide (pattern.toList <:+: s.toList)
  replace pattern s value := String.ofList (replaceFirst pattern.toList value.toList s.toList)

def bodyRule (name action : String) (fields : List (String × Json)) : Json :=
  .object ([("type", .string "body"), ("body_format", .string "json"), ("name", .string name),
    ("action", .string action)] ++ fields)

def bodyRules (rules : List Json) : HashMap Json := (∅ : HashMap Json).insert "request" (.array rules)

/-- A request with a body. -/
def posted (body : String) : Context :=
  Context.new { (default : GatewayRequest) with body := asBytes body }

/-- What a node of these rules makes of a body. -/
def maskedBody (rules : List Json) (body : String) : Option Bytes :=
  let _ : RegexEngine := literalRegex
  let _ : CaseMapping := asciiCaseMapping
  let _ : JsonCodec := compactJson
  match fromConfig (bodyRules rules) with
  | .error _ => none
  | .ok plugin =>
    match plugin.execute (posted body) with
    | .ok out => some out.context.request.body
    | .error _ => none

/-- A removal behind the path, a rewriting at it, and a removal above it. -/
def cardRules : List Json :=
  [bodyRule "a.1" "remove" [],
    bodyRule "a.0.n" "regex" [("regex", .string "41"), ("value", .string "**")],
    bodyRule "b" "remove" []]

/-- An order with the number of a card, as it came in or hidden. -/
def order (number : String) : Json :=
  .object [("a", .array [.object [("n", .string number)], .number (.posInt 1)])]

def orderBody (number : String) : String := compactJson.toText (order number)

theorem body_masked_card :
    let _ : RegexEngine := literalRegex
    let _ : CaseMapping := asciiCaseMapping
    let _ : JsonCodec := compactJson
    ∃ plugin masked, fromConfig (bodyRules cardRules) = .ok plugin ∧
      Carries (plugin.execute (posted (orderBody "4100"))) (asBytes (orderBody "4100")) masked ∧
      Carries (plugin.execute (posted (orderBody "**00"))) (asBytes (orderBody "**00")) masked := by
  let _ : RegexEngine := literalRegex
  let _ : CaseMapping := asciiCaseMapping
  let _ : JsonCodec := compactJson
  let path : List PathSeg := [.key "a", .index 0, .key "n"]
  let behind : MaskRule :=
    { target := .body, name := "a.1", path := [.key "a", .index 1], action := .remove }
  let number : MaskRule :=
    { target := .body, name := "a.0.n", path := path, action := .regex "41" "**" }
  let other : MaskRule := { target := .body, name := "b", path := [.key "b"], action := .remove }
  let plugin : DataMaskPlugin := { rules := [behind, number, other], maxBodySize := 1024 * 1024 }
  have hconfig : fromConfig (bodyRules cardRules) = .ok plugin := rfl
  have hrules : plugin.rules = [behind] ++ number :: [other] := rfl
  have hshift : ∀ earlier ∈ [behind], earlier.target = .body → earlier.action = .remove →
      ¬ Shifts earlier.path number.path := by
    intro earlier hearlier _ _
    rw [List.mem_singleton.mp hearlier]
    rintro ⟨-, hbefore⟩
    exact absurd hbefore (Nat.not_lt_zero 1)
  have hread : Readable plugin (posted (orderBody "4100")).request.body :=
    ⟨by decide +kernel, by decide +kernel⟩
  have hread' : Readable plugin (asBytes (orderBody "**00")) :=
    ⟨by decide +kernel, by decide +kernel⟩
  have hdoc : JsonCodec.parse (posted (orderBody "4100")).request.body = some (order "4100") := by
    decide +kernel
  have hdoc' : JsonCodec.parse (asBytes (orderBody "**00")) =
      some (Json.setAt path (.string "**00") (order "4100")) := by
    decide +kernel
  have hat : Json.at? path (order "4100") = some (.string "4100") := by decide +kernel
  have hsame : rewritten path [behind, number] (.string "4100") =
      rewritten path [behind, number] (.string "**00") := by
    decide +kernel
  obtain ⟨masked, hmasked⟩ :=
    (body_masked hconfig hrules rfl hshift hread hdoc hat hread' hdoc').2.1 hsame
  exact ⟨plugin, masked, hconfig, hmasked⟩

/-- The second of two removals finds the third element where the second one was: the second one,
    which its path addressed, stays. -/
theorem second_element_kept :
    ((compactJson.parse (asBytes "\x7b\"a\":[\"s1\",\"s2\",\"s3\"]\x7d")).bind
        (Json.at? [.key "a", .index 1]) = some (.string "s2")) ∧
      maskedBody [bodyRule "a.0" "remove" [], bodyRule "a.1" "remove" []]
        "\x7b\"a\":[\"s1\",\"s2\",\"s3\"]\x7d" = some (asBytes "\x7b\"a\":[\"s2\"]\x7d") := by
  decide +kernel

end DataMaskPlugin

end Featherbit
