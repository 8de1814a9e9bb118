/-
  WHAT A NODE CHANGED, by two snapshots (`debug/diff.rs`).

  1. `diff` goes through the fields of the two snapshots and lists the changes, each at the dotted path of
     its field.  A path is the one of its field only (`Field.path_inj`): it is a tag and a key, and no tag
     is the beginning of another.

  2. **What is listed** (`listed_iff`): every field that differs, but for two kinds of it.  Of a body only
     the length is compared, and of the errors, which the engine only appends to, those past the end of the
     earlier list are reported.

  3. `diff_exact_iff`: so the list is exact where bodies of one length are one body, and the earlier errors
     are the first of the later ones.
-/
import Mathlib
import Featherbit.Debug.Trace

namespace Featherbit

/-- How a field changed between two steps. -/
inductive ChangeKind where
  | added
  | removed
  | modified
deriving DecidableEq

/-- One field-level difference. -/
structure Change where
  path : String
  kind : ChangeKind
  before : Option String
  after : Option String
deriving DecidableEq

namespace Change

def added (path after : String) : Change := ⟨path, .added, none, some after⟩

def removed (path before : String) : Change := ⟨path, .removed, some before, none⟩

def modified (path before after : String) : Change := ⟨path, .modified, some before, some after⟩

end Change

namespace Diff

/-- `compact`. -/
def compact [JsonText] : Json → String
  | .string s => s
  | other => JsonText.toText other

/-- `scalar`, for any values that can be shown. -/
def scalar {α : Type} [DecidableEq α] (render : α → String) (path : String) (prev next : α) : List Change :=
  if prev ≠ next then [.modified path (render prev) (render next)] else []

/-- The loops over two maps: what is new or other in `next`, then what is gone from `prev`. -/
def mapChanges {α : Type} [DecidableEq α] (render : α → String) (tag : String) (prev next : HashMap α) :
    List Change :=
  (next.toList.flatMap fun (k, v) =>
    match prev[k]? with
    | none => [.added (tag ++ "." ++ k) (render v)]
    | some old =>
      if old ≠ v then [.modified (tag ++ "." ++ k) (render old) (render v)] else []) ++
  prev.toList.flatMap fun (k, v) =>
    if next.contains k then [] else [.removed (tag ++ "." ++ k) (render v)]

/-- `multi_map`. -/
def multiMap (tag : String) (prev next : HashMap (List String)) : List Change :=
  mapChanges (", ".intercalate ·) tag prev next

/-- The bodies are compared by their length. -/
def bodyChange (path : String) (prev next : BodyCapture) : List Change :=
  if prev.len ≠ next.len then
    [.modified path (showNat prev.len ++ " bytes") (showNat next.len ++ " bytes")]
  else []

/-- The errors past the end of the earlier list. -/
def newErrors (prev next : List GatewayError) : List Change :=
  if next.length > prev.length then
    (next.zipIdx.drop prev.length).map fun (e, i) =>
      .added ("errors[" ++ showNat i ++ "]") (e.code ++ ": " ++ e.message)
  else []

end Diff

open Diff

/-- `diff`. -/
def ContextSnapshot.diff [JsonText] (prev next : ContextSnapshot) : List Change :=
  scalar id "request.method" prev.request.method next.request.method ++
  scalar id "request.path" prev.request.path next.request.path ++
  scalar id "request.host" prev.request.host next.request.host ++
  scalar id "request.scheme" prev.request.scheme next.request.scheme ++
  multiMap "request.headers" prev.request.headers next.request.headers ++
  multiMap "request.query_params" prev.request.queryParams next.request.queryParams ++
  bodyChange "request.body" prev.request.body next.request.body ++
  scalar (fun status => showNat status.toNat) "response.status_code" prev.response.statusCode
    next.response.statusCode ++
  multiMap "response.headers" prev.response.headers next.response.headers ++
  bodyChange "response.body" prev.response.body next.response.body ++
  mapChanges compact "message" prev.message next.message ++
  newErrors prev.errors next.errors

/-! ## Fields and their paths -/

/-- A field of a snapshot. -/
inductive Field where
  | method
  | requestPath
  | host
  | scheme
  | requestHeader (name : String)
  | queryParam (name : String)
  | requestBody
  | statusCode
  | responseHeader (name : String)
  | responseBody
  | message (key : String)
  | error (i : Nat)
deriving DecidableEq

namespace Field

/-- What the path of the field begins with. -/
def tag : Field → String
  | method => "request.method"
  | requestPath => "request.path"
  | host => "request.host"
  | scheme => "request.scheme"
  | requestHeader _ => "request.headers."
  | queryParam _ => "request.query_params."
  | requestBody => "request.body"
  | statusCode => "response.status_code"
  | responseHeader _ => "response.headers."
  | responseBody => "response.body"
  | message _ => "message."
  | error _ => "errors["

/-- The rest of it. -/
def key : Field → String
  | requestHeader name | queryParam name | responseHeader name => name
  | message key => key
  | error i => showNat i ++ "]"
  | _ => ""

/-- The dotted path of the field. -/
def path (field : Field) : String := field.tag ++ field.key

/-- All tags. -/
def tags : List String :=
  ["request.method", "request.path", "request.host", "request.scheme", "request.headers.",
    "request.query_params.", "request.body", "response.status_code", "response.headers.",
    "response.body", "message.", "errors["]

theorem tag_mem (field : Field) : field.tag ∈ tags := by
  cases field <;> simp [tag, tags]

/-- No tag is the beginning of another. -/
theorem tags_prefixFree : ∀ t ∈ tags, ∀ u ∈ tags, t.toList.isPrefixOf u.toList = true → t = u := by
  decide

theorem error_key_inj {i j : Nat} (h : showNat i ++ "]" = showNat j ++ "]") : i = j := by
  have hlist := congrArg String.toList h
  rw [String.toList_append, String.toList_append] at hlist
  exact showNat_inj.mp (String.toList_inj.mp (List.append_cancel_right hlist))

/-- A field is its tag and its key. -/
theorem eq_of_tag_key {field other : Field} (htag : field.tag = other.tag)
    (hkey : field.key = other.key) : field = other := by
  cases field <;> cases other <;> first
    | rfl
    | (simp only [tag, String.reduceEq] at htag; done)
    | exact congrArg _ hkey
    | exact congrArg _ (error_key_inj hkey)

/-- **Paths.**  No two fields have the same one. -/
theorem path_inj {field other : Field} (h : field.path = other.path) : field = other := by
  have hlist : field.tag.toList ++ field.key.toList = other.tag.toList ++ other.key.toList := by
    rw [← String.toList_append, ← String.toList_append]
    exact congrArg String.toList h
  have htag : field.tag = other.tag := by
    rcases List.append_eq_append_iff.mp hlist with ⟨more, hmore, -⟩ | ⟨more, hmore, -⟩
    · exact tags_prefixFree _ field.tag_mem _ other.tag_mem
        (List.isPrefixOf_iff_prefix.mpr ⟨more, hmore.symm⟩)
    · exact (tags_prefixFree _ other.tag_mem _ field.tag_mem
        (List.isPrefixOf_iff_prefix.mpr ⟨more, hmore.symm⟩)).symm
  refine eq_of_tag_key htag ?_
  rw [htag] at hlist
  exact String.toList_inj.mp (List.append_cancel_left hlist)

end Field

/-- The snapshots differ at the field. -/
def Differs (prev next : ContextSnapshot) : Field → Prop
  | .method => prev.request.method ≠ next.request.method
  | .requestPath => prev.request.path ≠ next.request.path
  | .host => prev.request.host ≠ next.request.host
  | .scheme => prev.request.scheme ≠ next.request.scheme
  | .requestHeader name => prev.request.headers[name]? ≠ next.request.headers[name]?
  | .queryParam name => prev.request.queryParams[name]? ≠ next.request.queryParams[name]?
  | .requestBody => prev.request.body ≠ next.request.body
  | .statusCode => prev.response.statusCode ≠ next.response.statusCode
  | .responseHeader name => prev.response.headers[name]? ≠ next.response.headers[name]?
  | .responseBody => prev.response.body ≠ next.response.body
  | .message key => prev.message[key]? ≠ next.message[key]?
  | .error i => prev.errors[i]? ≠ next.errors[i]?

/-- What is reported of it: of a body a length that differs, of the errors the ones that are new. -/
def Reported (prev next : ContextSnapshot) : Field → Prop
  | .requestBody => prev.request.body.len ≠ next.request.body.len
  | .responseBody => prev.response.body.len ≠ next.response.body.len
  | .error i => prev.errors.length ≤ i ∧ i < next.errors.length
  | field => Differs prev next field

/-! ## What is listed -/

section Listed

/-- A change is listed at the path. -/
def Lists (changes : List Change) (path : String) : Prop := ∃ change ∈ changes, change.path = path

theorem lists_append {changes more : List Change} {path : String} :
    Lists (changes ++ more) path ↔ Lists changes path ∨ Lists more path := by
  unfold Lists
  simp only [List.mem_append, or_and_right, exists_or]

theorem lists_nil {path : String} : ¬ Lists [] path := fun ⟨_, hmem, _⟩ => nomatch hmem

theorem lists_singleton {change : Change} {path : String} :
    Lists [change] path ↔ change.path = path := by
  unfold Lists
  simp only [List.mem_singleton, exists_eq_left]

/-- A loop over a map. -/
theorem lists_flatMap {α : Type} {map : HashMap α} {f : String × α → List Change} {path : String} :
    Lists (map.toList.flatMap f) path ↔ ∃ k v, map[k]? = some v ∧ Lists (f (k, v)) path := by
  unfold Lists
  constructor
  · rintro ⟨change, hmem, hpath⟩
    obtain ⟨⟨k, v⟩, hentry, hchange⟩ := List.mem_flatMap.mp hmem
    exact ⟨k, v, Std.ExtTreeMap.mem_toList_iff_getElem?_eq_some.mp hentry, change, hchange, hpath⟩
  · rintro ⟨k, v, hentry, change, hchange, hpath⟩
    exact ⟨change, List.mem_flatMap.mpr
      ⟨(k, v), Std.ExtTreeMap.mem_toList_iff_getElem?_eq_some.mpr hentry, hchange⟩, hpath⟩

variable {at_ path : String}

theorem lists_scalar {α : Type} [DecidableEq α] {render : α → String} {prev next : α} :
    Lists (scalar render at_ prev next) path ↔ at_ = path ∧ prev ≠ next := by
  unfold scalar
  by_cases h : prev ≠ next
  · rw [if_pos h, lists_singleton]
    exact (and_iff_left h).symm
  · rw [if_neg h]
    exact iff_of_false lists_nil fun hboth => h hboth.2

theorem lists_bodyChange {prev next : BodyCapture} :
    Lists (bodyChange at_ prev next) path ↔ at_ = path ∧ prev.len ≠ next.len := by
  unfold bodyChange
  by_cases h : prev.len ≠ next.len
  · rw [if_pos h, lists_singleton]
    exact (and_iff_left h).symm
  · rw [if_neg h]
    exact iff_of_false lists_nil fun hboth => h hboth.2

/-- The loops over two maps list the keys whose values differ. -/
theorem lists_mapChanges {α : Type} [DecidableEq α] {render : α → String} {prev next : HashMap α} :
    Lists (mapChanges render at_ prev next) path ↔
      ∃ k, at_ ++ "." ++ k = path ∧ prev[k]? ≠ next[k]? := by
  have hkept : ∀ k v, Lists (match prev[k]? with
      | none => [.added (at_ ++ "." ++ k) (render v)]
      | some old => if old ≠ v then [.modified (at_ ++ "." ++ k) (render old) (render v)] else []) path ↔
      at_ ++ "." ++ k = path ∧ prev[k]? ≠ some v := by
    intro k v
    cases prev[k]? with
    | none => exact lists_singleton.trans (and_iff_left (fun h => nomatch h)).symm
    | some old =>
      dsimp only
      by_cases hne : old ≠ v
      · rw [if_pos hne]
        exact lists_singleton.trans (and_iff_left fun h => hne (Option.some.inj h)).symm
      · rw [if_neg hne]
        exact iff_of_false lists_nil fun h => h.2 (congrArg some (not_not.mp hne))
  have hgone : ∀ k v, Lists (if next.contains k then []
      else [.removed (at_ ++ "." ++ k) (render v)]) path ↔ at_ ++ "." ++ k = path ∧ next[k]? = none := by
    intro k v
    by_cases hk : next.contains k = true
    · rw [if_pos hk]
      refine iff_of_false lists_nil fun h => ?_
      rw [Std.ExtTreeMap.contains_eq_isSome_getElem?, h.2] at hk
      nomatch hk
    · rw [if_neg hk]
      rw [Std.ExtTreeMap.contains_eq_isSome_getElem?, Bool.not_eq_true, Option.isSome_eq_false_iff,
        Option.isNone_iff_eq_none] at hk
      exact lists_singleton.trans (and_iff_left hk).symm
  unfold mapChanges
  rw [lists_append, lists_flatMap, lists_flatMap]
  constructor
  · rintro (⟨k, v, hnext, hlists⟩ | ⟨k, v, hprev, hlists⟩)
    · obtain ⟨hpath, hne⟩ := (hkept k v).mp hlists
      exact ⟨k, hpath, by rwa [hnext]⟩
    · obtain ⟨hpath, hnone⟩ := (hgone k v).mp hlists
      exact ⟨k, hpath, by rw [hprev, hnone]; exact fun h => nomatch h⟩
  · rintro ⟨k, hpath, hne⟩
    cases hnext : next[k]? with
    | some v => exact Or.inl ⟨k, v, hnext, (hkept k v).mpr ⟨hpath, by rwa [hnext] at hne⟩⟩
    | none =>
      cases hprev : prev[k]? with
      | some v => exact Or.inr ⟨k, v, hprev, (hgone k v).mpr ⟨hpath, hnext⟩⟩
      | none => exact absurd (hprev.trans hnext.symm) hne

theorem lists_newErrors {prev next : List GatewayError} :
    Lists (newErrors prev next) path ↔
      ∃ i, "errors[" ++ (showNat i ++ "]") = path ∧ prev.length ≤ i ∧ i < next.length := by
  have hpath : ∀ i, "errors[" ++ showNat i ++ "]" = "errors[" ++ (showNat i ++ "]") :=
    fun i => String.append_assoc
  unfold newErrors
  by_cases hlonger : next.length > prev.length
  · rw [if_pos hlonger]
    constructor
    · rintro ⟨change, hmem, rfl⟩
      obtain ⟨⟨e, i⟩, hentry, rfl⟩ := List.mem_map.mp hmem
      obtain ⟨n, hn⟩ := List.mem_iff_getElem?.mp hentry
      rw [List.getElem?_drop, List.getElem?_zipIdx] at hn
      obtain ⟨e', he, heq⟩ := Option.map_eq_some_iff.mp hn
      have hlt := (List.getElem?_eq_some_iff.mp he).1
      obtain ⟨-, rfl⟩ := Prod.mk.inj heq
      exact ⟨_, (hpath _).symm, by omega, by omega⟩
    · rintro ⟨i, rfl, hle, hlt⟩
      refine ⟨_, List.mem_map.mpr ⟨(next[i], i), ?_, rfl⟩, hpath i⟩
      refine List.mem_iff_getElem?.mpr ⟨i - prev.length, ?_⟩
      rw [List.getElem?_drop, List.getElem?_zipIdx, Nat.add_sub_cancel' hle,
        List.getElem?_eq_getElem hlt, Option.map_some, Nat.zero_add]
  · rw [if_neg hlonger]
    refine iff_of_false lists_nil ?_
    rintro ⟨i, -, hle, hlt⟩
    omega

variable [JsonText] {prev next : ContextSnapshot}

/-- A change is listed at the path of a field that is reported, and at no other path. -/
theorem lists_diff : Lists (prev.diff next) path ↔
    ∃ field : Field, field.path = path ∧ Reported prev next field := by
  have hheader : ∀ name, "request.headers" ++ "." ++ name = (Field.requestHeader name).path :=
    fun name => rfl
  have hquery : ∀ name, "request.query_params" ++ "." ++ name = (Field.queryParam name).path :=
    fun name => rfl
  have hresponse : ∀ name, "response.headers" ++ "." ++ name = (Field.responseHeader name).path :=
    fun name => rfl
  have hmessage : ∀ key, "message" ++ "." ++ key = (Field.message key).path := fun key => rfl
  unfold ContextSnapshot.diff multiMap
  simp only [lists_append, lists_scalar, lists_bodyChange, lists_mapChanges, lists_newErrors, hheader,
    hquery, hresponse, hmessage, or_assoc]
  constructor
  · rintro (h | h | h | h | ⟨name, h⟩ | ⟨name, h⟩ | h | h | ⟨name, h⟩ | h | ⟨key, h⟩ | ⟨i, h⟩)
    · exact ⟨.method, h⟩
    · exact ⟨.requestPath, h⟩
    · exact ⟨.host, h⟩
    · exact ⟨.scheme, h⟩
    · exact ⟨.requestHeader name, h⟩
    · exact ⟨.queryParam name, h⟩
    · exact ⟨.requestBody, h⟩
    · exact ⟨.statusCode, h⟩
    · exact ⟨.responseHeader name, h⟩
    · exact ⟨.responseBody, h⟩
    · exact ⟨.message key, h⟩
    · exact ⟨.error i, h⟩
  · rintro ⟨field, h⟩
    -- to the disjunct of the field
    cases field <;> repeat first
      | exact h
      | exact ⟨_, h⟩
      | exact Or.inl h
      | exact Or.inl ⟨_, h⟩
      | apply Or.inr

/-- **The list.**  Of every field. -/
theorem listed_iff (field : Field) : Lists (prev.diff next) field.path ↔ Reported prev next field := by
  rw [lists_diff]
  constructor
  · rintro ⟨other, hpath, hreported⟩
    rwa [Field.path_inj hpath] at hreported
  · exact fun h => ⟨field, rfl, h⟩

omit [JsonText] in
/-- What is reported differs. -/
theorem differs_of_reported {field : Field} (h : Reported prev next field) : Differs prev next field := by
  cases field with
  | requestBody => exact fun heq => h (congrArg BodyCapture.len heq)
  | responseBody => exact fun heq => h (congrArg BodyCapture.len heq)
  | error i =>
    obtain ⟨hle, hlt⟩ := h
    show prev.errors[i]? ≠ next.errors[i]?
    rw [List.getElem?_eq_none hle, List.getElem?_eq_getElem hlt]
    exact fun hnone => nomatch hnone
  | _ => exact h

omit [JsonText] in
/-- The later errors are those past the earlier ones, which are the first of them. -/
theorem errors_reported_iff : (∀ i, prev.errors[i]? ≠ next.errors[i]? →
      prev.errors.length ≤ i ∧ i < next.errors.length) ↔ prev.errors <+: next.errors := by
  constructor
  · intro h
    rw [List.prefix_iff_getElem?]
    intro i hi
    by_contra hne
    have hdiffers : prev.errors[i]? ≠ next.errors[i]? := by
      rw [List.getElem?_eq_getElem hi]
      exact fun heq => hne heq.symm
    exact absurd (h i hdiffers).1 (Nat.not_le.mpr hi)
  · rintro ⟨more, hmore⟩ i hne
    rw [← hmore] at hne ⊢
    rcases Nat.lt_or_ge i prev.errors.length with hlt | hge
    · exact absurd (List.getElem?_append_left hlt).symm hne
    · refine ⟨hge, ?_⟩
      by_contra hlong
      rw [List.getElem?_eq_none hge, List.getElem?_eq_none (Nat.not_lt.mp hlong)] at hne
      exact hne rfl

/-- **The diff.**  For every two snapshots: a change is listed at a path exactly when it is the path of a
    field that differs, where a body differs by its length, and the errors by those past the end of the
    earlier list.  So every change that is listed is one, and all are where bodies of one length are one
    capture and the earlier errors are the first of the later ones. -/
theorem diff_exact (prev next : ContextSnapshot) :
    (∀ path, Lists (prev.diff next) path → ∃ field : Field, field.path = path ∧
      Differs prev next field) ∧
    (∀ field, Lists (prev.diff next) field.path ↔ Reported prev next field) ∧
    ((∀ field, Lists (prev.diff next) field.path ↔ Differs prev next field) ↔
      (prev.request.body.len = next.request.body.len → prev.request.body = next.request.body) ∧
      (prev.response.body.len = next.response.body.len → prev.response.body = next.response.body) ∧
      prev.errors <+: next.errors) := by
  refine ⟨fun path h => ?_, listed_iff, ?_⟩
  · obtain ⟨field, hpath, hreported⟩ := lists_diff.mp h
    exact ⟨field, hpath, differs_of_reported hreported⟩
  · simp only [listed_iff]
    constructor
    · intro h
      refine ⟨fun hlen => ?_, fun hlen => ?_, errors_reported_iff.mp fun i => (h (.error i)).mpr⟩
      · by_contra hne
        exact (h .requestBody).mpr hne hlen
      · by_contra hne
        exact (h .responseBody).mpr hne hlen
    · rintro ⟨hrequest, hresponse, herrors⟩ field
      refine ⟨differs_of_reported, fun hdiffers => ?_⟩
      cases field with
      | requestBody => exact fun hlen => hdiffers (hrequest hlen)
      | responseBody => exact fun hlen => hdiffers (hresponse hlen)
      | error i => exact errors_reported_iff.mpr herrors i hdiffers
      | _ => exact hdiffers

end Listed

/-! ## What is not listed -/

/-- A context with a body in its response, and errors. -/
def contextWith (body : String) (errors : List GatewayError) : Context :=
  { Context.new (default : GatewayRequest) with
    response := { statusCode := 200, headers := ∅, body := asBytes body }
    errors := errors }

/-- A snapshot with the bodies captured. -/
def snapshotWith [CaseMapping] (body : String) (errors : List GatewayError) : ContextSnapshot :=
  .capture (contextWith body errors) { CaptureOptions.default with captureBodies := true } {}

/-- A body of the same length, and an error that is gone. -/
theorem diff_misses :
    let _ : CaseMapping := asciiCaseMapping
    let _ : JsonText := oneFieldText
    let timeout : GatewayError := ⟨"upstream", "TIMEOUT", "no answer", ∅⟩
    (Differs (snapshotWith "yes" []) (snapshotWith "no!" []) .responseBody ∧
      ¬ Lists ((snapshotWith "yes" []).diff (snapshotWith "no!" [])) "response.body") ∧
    Differs (snapshotWith "" [timeout]) (snapshotWith "" []) (.error 0) ∧
    ¬ Lists ((snapshotWith "" [timeout]).diff (snapshotWith "" [])) "errors[0]" := by
  intro _ _ timeout
  refine ⟨⟨?_, ?_⟩, ?_, ?_⟩
  · show (snapshotWith "yes" []).response.body ≠ (snapshotWith "no!" []).response.body
    decide
  · rw [show "response.body" = Field.responseBody.path by decide, listed_iff]
    exact fun h => h (by decide)
  · exact fun h => nomatch h
  · rw [show "errors[0]" = (Field.error 0).path by decide, listed_iff]
    exact fun h => absurd h.2 (by decide)

end Featherbit
