/-
  WHICH TEXTS SHARE A CACHE KEY (`derive_key` of `plugins/native/proxy_cache.rs`).

  The key is the id of the pair and the interpolated components, U+0001 before each.

  1. **The key** (`deriveKey_eq_iff`) — of two contexts the keys are equal exactly when the components are
     the same text, joined by U+0001.
  2. **The separator** (`Split.eq_of_intercalate`, `Split.exists_other_parts`) — without it in a component
     the joint text is cut in one way; with it, and two components at least, in several.
  3. **Every text can come** (`components_formContext`) — a field of a form is percent-decoded, so the
     components of a node over form fields take any values at all, also one with U+0001.
-/
import Featherbit.Plugins.CookieLookup
import Featherbit.Plugins.ProxyCache
import Featherbit.Vars.FormDecode

namespace Featherbit

open Vars

namespace ProxyCachePlugin

section Key

variable [CaseMapping] [JsonText] (plugin : ProxyCachePlugin) (ctx : Context)

/-- What the components of the key read as. -/
def components : List String := plugin.cacheKey.map (interpolate ctx)

theorem length_components : (plugin.components ctx).length = plugin.cacheKey.length := List.length_map _

/-- The separator before each component is the id, and one between any two. -/
theorem deriveKey_toList : (plugin.deriveKey ctx).toList =
    if plugin.components ctx = [] then plugin.id.toList
    else plugin.id.toList ++ '\x01' :: ['\x01'].intercalate ((plugin.components ctx).map String.toList) := by
  have hfold : ∀ (texts : List String) (key : String),
      (texts.foldl (fun key text => key ++ "\x01" ++ text) key).toList =
        if texts = [] then key.toList
        else key.toList ++ '\x01' :: ['\x01'].intercalate (texts.map String.toList) := by
    intro texts
    induction texts with
    | nil => intro key; rfl
    | cons text texts ih =>
      intro key
      rw [List.foldl_cons, ih, if_neg (List.cons_ne_nil _ _)]
      cases texts with
      | nil =>
        rw [if_pos rfl, String.toList_append, String.toList_append, List.append_assoc]
        simp
      | cons next texts =>
        rw [if_neg (List.cons_ne_nil _ _), String.toList_append, String.toList_append, List.map_cons,
          List.map_cons, List.map_cons, List.intercalate_cons_cons]
        simp
  have hkey := hfold (plugin.components ctx) plugin.id
  unfold components at hkey ⊢
  rw [List.foldl_map] at hkey
  exact hkey

/-- **The key.**  Two contexts have the same key where their components are the same joint text. -/
theorem deriveKey_eq_iff (ctx ctx' : Context) :
    plugin.deriveKey ctx = plugin.deriveKey ctx' ↔
      ['\x01'].intercalate ((plugin.components ctx).map String.toList) =
        ['\x01'].intercalate ((plugin.components ctx').map String.toList) := by
  have hlen := plugin.length_components ctx
  have hlen' := plugin.length_components ctx'
  rw [← String.toList_inj, deriveKey_toList, deriveKey_toList]
  by_cases hnil : plugin.cacheKey = []
  · rw [hnil] at hlen hlen'
    rw [List.length_eq_zero_iff.mp hlen, List.length_eq_zero_iff.mp hlen']
    simp
  · have hpositive : 0 < plugin.cacheKey.length := List.length_pos_iff.mpr hnil
    rw [if_neg (List.length_pos_iff.mp (by omega)), if_neg (List.length_pos_iff.mp (by omega)),
      List.append_cancel_left_eq, List.cons.injEq]
    exact and_iff_right rfl

end Key

end ProxyCachePlugin

/-! ## Every text can come -/

namespace CacheForm

/-- The name of a field. -/
def fieldName (i : Nat) : String := String.ofList (List.replicate (i + 1) 'x')

/-- The fields of a form with these values, every byte percent-encoded. -/
def fields (start : Nat) (texts : List String) : List (String × String) :=
  (texts.zipIdx start).map fun (text, i) => (fieldName i, percentText (fun _ => false) text)

/-- A request that brings the form. -/
def formContext (texts : List String) : Context := Context.new {
  method := "GET", path := "/", host := "shop", scheme := "http"
  headers := (∅ : HashMap (List String)).insert "content-type" ["application/x-www-form-urlencoded"]
  queryParams := ∅
  body := asBytes ("&".intercalate ((fields 0 texts).map joinPair))
  remoteAddr := "10.0.0.1:5000", protocol := .http1 }

/-- The key of a node over the first `n` fields. -/
def formKey (n : Nat) : List String :=
  (List.range n).map fun i => "$" ++ ("post_arg_" ++ fieldName i)

/-- Its configuration. -/
def formConfig (n : Nat) : HashMap Json :=
  (((∅ : HashMap Json).insert "phase" (.string "lookup")).insert "id" (.string "forms")).insert
    "cache_key" (.array ((formKey n).map .string))

def formNode (n : Nat) : ProxyCachePlugin where
  role := .lookup
  id := "forms"
  cacheKey := formKey n
  cacheTtl := durationFromSecs 300
  cacheStatuses := [200, 301, 404]
  cacheMethods := ["GET", "HEAD"]
  hideCacheHeaders := false

theorem formKey_ne_nil {n : Nat} (h : 0 < n) : formKey n ≠ [] := by
  intro hnil
  have hlen := congrArg List.length hnil
  unfold formKey at hlen
  rw [List.length_map, List.length_range, List.length_nil] at hlen
  omega

/-- A list of texts is read as it is. -/
theorem stringList_strings (notString empty : String) {texts : List String} (hne : texts ≠ []) :
    ProxyCachePlugin.stringList notString empty (texts.map .string) = .ok texts := by
  have hread : ∀ (read : Json → Except String String), (∀ s, read (.string s) = .ok s) →
      ∀ texts : List String, (texts.map Json.string).mapM read = .ok texts := by
    intro read hstring texts
    induction texts with
    | nil => rfl
    | cons text texts ih =>
      rw [List.map_cons, List.mapM_cons, ih, hstring]
      rfl
  unfold ProxyCachePlugin.stringList
  rw [hread _ fun s => rfl]
  show (if texts = [] then _ else _) = _
  rw [if_neg hne]
  rfl

theorem fromConfig_form [CaseMapping] {n : Nat} (h : 0 < n) :
    ProxyCachePlugin.fromConfig (formConfig n) = .ok (formNode n) := by
  have hkey : ProxyCachePlugin.cacheKeyOf (formConfig n) = .ok (formKey n) := by
    have hfound : (formConfig n)["cache_key"]? = some (.array ((formKey n).map .string)) := by
      unfold formConfig
      rw [HashMap.get_insert, if_pos rfl]
    unfold ProxyCachePlugin.cacheKeyOf
    rw [hfound]
    exact stringList_strings _ _ (formKey_ne_nil h)
  have hother : ∀ key, key ≠ "cache_key" → (formConfig n)[key]? =
      (((∅ : HashMap Json).insert "phase" (.string "lookup")).insert "id" (.string "forms"))[key]? := by
    intro key hne
    unfold formConfig
    rw [HashMap.get_insert, if_neg hne]
  unfold ProxyCachePlugin.fromConfig
  rw [hkey]
  unfold ProxyCachePlugin.roleOf phaseOrRole pairId ProxyCachePlugin.cacheMethodsOf
  rw [hother "phase" (by decide), hother "id" (by decide), hother "cache_ttl" (by decide),
    hother "cache_http_statuses" (by decide), hother "cache_http_status" (by decide),
    hother "cache_method" (by decide), hother "hide_cache_headers" (by decide)]
  rfl

section Read

variable (texts : List String)

theorem fieldName_chars (i : Nat) : ∀ c ∈ (fieldName i).toList, c = 'x' := by
  intro c hc
  unfold fieldName at hc
  rw [String.toList_ofList] at hc
  exact List.eq_of_mem_replicate hc

theorem fieldName_inj {i j : Nat} (h : fieldName i = fieldName j) : i = j := by
  have hlen := congrArg (fun name => name.toList.length) h
  simp only [fieldName, String.toList_ofList, List.length_replicate] at hlen
  omega

/-- A field is found by its name. -/
theorem findPair_fields (start i : Nat) :
    findPair (fieldName (start + i)) ((fields start texts).map joinPair) =
      texts[i]?.map (percentText fun _ => false) := by
  induction texts generalizing start i with
  | nil => rfl
  | cons text texts ih =>
    have hkey : '=' ∉ (fieldName start).toList := fun h => absurd (fieldName_chars start '=' h) (by decide)
    have hcut : splitOnceChar '=' (joinPair (fieldName start, percentText (fun _ => false) text)) =
        some (fieldName start, percentText (fun _ => false) text) := splitOnceChar_append hkey _
    show findPair _ (joinPair (fieldName start, _) :: ((fields (start + 1) texts).map joinPair)) = _
    rw [findPair, hcut]
    cases i with
    | zero => exact if_pos rfl
    | succ i =>
      have hne : fieldName start ≠ fieldName (start + (i + 1)) := by
        intro h
        have hsame := fieldName_inj h
        omega
      rw [show start + (i + 1) = start + 1 + i by omega] at hne ⊢
      exact (if_neg hne).trans (ih (start + 1) i)

theorem fields_chars (start : Nat) : ∀ text ∈ (fields start texts).map joinPair, '&' ∉ text.toList := by
  intro text htext
  obtain ⟨pair, hpair, rfl⟩ := List.mem_map.mp htext
  obtain ⟨⟨source, i⟩, -, rfl⟩ := List.mem_map.mp hpair
  have hdigit : ∀ n < 16, upperDigit n ≠ '&' := by decide
  unfold joinPair
  rw [String.toList_append, String.toList_append]
  intro h
  rcases List.mem_append.mp h with h | h
  · rcases List.mem_append.mp h with h | h
    · exact absurd (fieldName_chars i '&' h) (by decide)
    · exact absurd h (by decide)
  · rcases mem_percentText h with ⟨_, hkept, _⟩ | heq | ⟨n, hn, heq⟩
    · cases hkept
    · exact absurd heq (by decide)
    · exact hdigit n hn heq.symm

variable [CaseMapping] [JsonText]

/-- A component over a field reads as the value of the field. -/
theorem interpolate_field {i : Nat} (hi : i < texts.length) :
    interpolate (formContext texts) ("$" ++ ("post_arg_" ++ fieldName i)) = texts[i] := by
  have hname : ∀ c ∈ ("post_arg_" ++ fieldName i).toList, Vars.isNameChar c = true := by
    intro c hc
    rw [String.toList_append] at hc
    rcases List.mem_append.mp hc with hc | hc
    · exact List.all_eq_true.mp (show "post_arg_".toList.all Vars.isNameChar = true by decide) c hc
    · rw [fieldName_chars i c hc]
      decide
  have hne : "post_arg_" ++ fieldName i ≠ "" := by
    intro h
    have hlen := congrArg (fun s => s.toList.length) h
    simp at hlen
  have hbody : Lookup.formBody (formContext texts) =
      some ("&".intercalate ((fields 0 texts).map joinPair)) := by
    show (if startsWith "application/x-www-form-urlencoded" "application/x-www-form-urlencoded" = true
      then fromUtf8 (asBytes _) else none) = _
    rw [if_pos (startsWith_iff.mpr ⟨"", String.append_empty.symm⟩), fromUtf8_asBytes]
  have hfields : (fields 0 texts).map joinPair ≠ [] := by
    intro h
    have hlen := congrArg List.length h
    simp only [fields, List.length_map, List.length_zipIdx, List.length_nil] at hlen
    omega
  rw [interpolate_var _ hne hname, Lookup.resolve_postArg, Lookup.postArg_eq _ _ hbody,
    show "&" = String.singleton '&' from rfl, splitChar_intercalate hfields (fields_chars texts 0)]
  have hfound := findPair_fields texts 0 i
  rw [Nat.zero_add, List.getElem?_eq_getElem hi] at hfound
  rw [hfound]
  exact urldecode_of_bytes (urldecodeBytes_percentText (fun _ hkept => absurd hkept Bool.false_ne_true) texts[i])

/-- **Every text can come.**  The components of a node over form fields take any values. -/
theorem components_formContext :
    (formNode texts.length).components (formContext texts) = texts := by
  have hcomponents : (formNode texts.length).components (formContext texts) =
      (List.range texts.length).map fun i =>
        interpolate (formContext texts) ("$" ++ ("post_arg_" ++ fieldName i)) := List.map_map ..
  rw [hcomponents]
  apply List.ext_getElem
  · rw [List.length_map, List.length_range]
  · intro i hleft hright
    rw [List.getElem_map, List.getElem_range]
    exact interpolate_field texts hright

end Read

end CacheForm

namespace ProxyCachePlugin

open CacheForm

/-- **The components of a key.**  Texts are the only ones with their key, over every node and every two
    contexts, exactly when there is one at most, or U+0001 is in none of them. -/
theorem deriveKey_separates_iff [CaseMapping] [JsonText] (texts : List String) :
    (∀ (config : HashMap Json) (plugin : ProxyCachePlugin) (ctx ctx' : Context),
      fromConfig config = .ok plugin → plugin.components ctx = texts →
      plugin.deriveKey ctx = plugin.deriveKey ctx' → plugin.components ctx' = texts) ↔
    texts.length ≤ 1 ∨ ∀ text ∈ texts, '\x01' ∉ text.toList := by
  constructor
  · intro hsame
    by_contra hnot
    obtain ⟨hlen, hsep⟩ := not_or.mp hnot
    push Not at hsep
    obtain ⟨text, htext, hmem⟩ := hsep
    obtain ⟨ls, hlength, hother, hjoin⟩ := Split.exists_other_parts
      ⟨text.toList, List.mem_map_of_mem htext, hmem⟩ (by rw [List.length_map]; omega)
    rw [List.length_map] at hlength
    -- the other texts come in the same fields
    have hread := components_formContext texts
    have hread' := components_formContext (ls.map String.ofList)
    rw [List.length_map, hlength] at hread'
    have hlists : (ls.map String.ofList).map String.toList = ls := by
      rw [List.map_map]
      conv_rhs => rw [← List.map_id ls]
      exact List.map_congr_left fun l _ => String.toList_ofList
    have hkey : (formNode texts.length).deriveKey (formContext texts) =
        (formNode texts.length).deriveKey (formContext (ls.map String.ofList)) := by
      rw [deriveKey_eq_iff, hread, hread', hlists]
      exact hjoin.symm
    have htexts := hsame (formConfig texts.length) _ _ _ (fromConfig_form (by omega)) hread hkey
    rw [hread'] at htexts
    exact hother (hlists.symm.trans (congrArg (List.map String.toList) htexts))
  · rintro hcond config plugin ctx ctx' - hcomponents hkey
    have hlen := plugin.length_components ctx
    have hlen' := plugin.length_components ctx'
    rw [deriveKey_eq_iff] at hkey
    have hsplit : (plugin.components ctx').map String.toList =
        (plugin.components ctx).map String.toList := by
      rcases hcond with hone | hnone
      · rw [← hcomponents, hlen] at hone
        rcases Nat.le_one_iff_eq_zero_or_eq_one.mp hone with hzero | hone
        · rw [List.length_eq_zero_iff.mp (hlen.trans hzero), List.length_eq_zero_iff.mp (hlen'.trans hzero)]
        · -- one text is its own joint text
          obtain ⟨text, htext⟩ := List.length_eq_one_iff.mp (hlen.trans hone)
          obtain ⟨text', htext'⟩ := List.length_eq_one_iff.mp (hlen'.trans hone)
          rw [htext, htext', List.map_singleton, List.map_singleton, List.intercalate_singleton,
            List.intercalate_singleton] at hkey
          rw [htext, htext', List.map_singleton, List.map_singleton, hkey]
      · refine Split.eq_of_intercalate ?_ ?_ hkey
        · intro l hl
          obtain ⟨text, htext, rfl⟩ := List.mem_map.mp hl
          exact hnone text (hcomponents ▸ htext)
        · rw [List.length_map, List.length_map, hlen, hlen']
    rw [← hcomponents]
    exact List.map_injective_iff.mpr (fun _ _ h => String.toList_inj.mp h) hsplit

/-- Two forms whose fields differ, and one key. -/
theorem deriveKey_collides :
    let _ : CaseMapping := asciiCaseMapping
    let _ : JsonText := oneFieldText
    ¬ ∀ (config : HashMap Json) (plugin : ProxyCachePlugin) (ctx ctx' : Context),
      fromConfig config = .ok plugin → plugin.deriveKey ctx = plugin.deriveKey ctx' →
      plugin.components ctx = plugin.components ctx' := by
  intro _ _ h
  have hread : (formNode 2).components (formContext ["a\x01b", "c"]) = ["a\x01b", "c"] :=
    components_formContext _
  have hread' : (formNode 2).components (formContext ["a", "b\x01c"]) = ["a", "b\x01c"] :=
    components_formContext _
  have hkey : (formNode 2).deriveKey (formContext ["a\x01b", "c"]) =
      (formNode 2).deriveKey (formContext ["a", "b\x01c"]) := by
    rw [deriveKey_eq_iff, hread, hread']
    decide
  have hsame := h (formConfig 2) _ _ _ (fromConfig_form (by decide)) hkey
  rw [hread, hread'] at hsame
  revert hsame
  decide

end ProxyCachePlugin

end Featherbit
