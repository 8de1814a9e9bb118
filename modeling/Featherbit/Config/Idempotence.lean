/-
  A SECOND INTERPOLATION (`interpolate_env_json` over what `interpolate_env` has already been
  over).

  The text falls into pieces (`pieces`): characters that are kept and placeholders, and a pass
  writes the pieces one after another (`interpolateChars_eq`).  What a pass writes is never looked
  at by that pass, only by the next one.

  1. A text without a placeholder is left alone by every pass (`interpolateEnv_of_plain`).
  2. Any placeholder can be given a value that is a placeholder again (`nesting`), so no other
     text is left alone by the second pass under every environment (`twice_iff`).
  3. Under one environment it is enough that no `${` comes about: not inside a value, and not by
     a kept `$` meeting what stands behind it (`Separate`, `twice_of_separate`).

  For JSON a pass is a pass over each string in it (`interpolateEnvJson_eq_iff`, by induction on
  the value), so all of it carries over.
-/
import Featherbit.Config.Loader

namespace Featherbit

/-- A piece of a text: a character that is kept, or a placeholder. -/
inductive Piece where
  | kept (c : Char)
  | ref (name dflt : String)
deriving DecidableEq

/-- What a pass writes for a piece. -/
def Piece.text (env : Env) : Piece → List Char
  | kept c => [c]
  | ref name dflt => ((env name).getD dflt).toList

def Piece.isRef : Piece → Bool
  | kept _ => false
  | ref .. => true

/-- The pieces of a text, from the left. -/
def piecesOf : Nat → List Char → List Piece
  | 0, l => l.map .kept
  | _ + 1, [] => []
  | n + 1, c :: rest =>
    match matchRef (c :: rest) with
    | some (name, dflt, rest') => .ref name dflt :: piecesOf n rest'
    | none => .kept c :: piecesOf n rest

def pieces (text : String) : List Piece := piecesOf text.toList.length text.toList

/-- No placeholder stands in the text. -/
def Plain (text : String) : Prop := ∀ piece ∈ pieces text, piece.isRef = false

instance : DecidablePred Plain := fun _ => inferInstanceAs (Decidable (∀ _ ∈ _, _))

theorem interpolateChars_eq (env : Env) (n : Nat) (l : List Char) :
    interpolateChars env n l = (piecesOf n l).flatMap (Piece.text env) := by
  induction n generalizing l with
  | zero => simp [interpolateChars, piecesOf, List.flatMap_map, Piece.text]
  | succ n ih =>
    cases l with
    | nil => rfl
    | cons c rest =>
      cases hm : matchRef (c :: rest) with
      | some m =>
        rw [interpolateChars, piecesOf, hm]
        show _ ++ interpolateChars env n m.2.2 = _ ++ _
        rw [ih]
        rfl
      | none =>
        rw [interpolateChars, piecesOf, hm]
        show c :: interpolateChars env n rest = c :: _
        rw [ih]
        rfl

theorem interpolateEnv_eq (env : Env) (text : String) :
    interpolateEnv env text = String.ofList ((pieces text).flatMap (Piece.text env)) := by
  rw [interpolateEnv, interpolateChars_eq, pieces]

/-! ## What one pass leaves alone -/

/-- Without a placeholder the pieces are the characters. -/
theorem flatMap_of_plain (env : Env) (n : Nat) (l : List Char)
    (h : ∀ piece ∈ piecesOf n l, piece.isRef = false) : interpolateChars env n l = l := by
  induction n generalizing l with
  | zero => rfl
  | succ n ih =>
    cases l with
    | nil => rfl
    | cons c rest =>
      rw [piecesOf] at h
      rw [interpolateChars]
      split
      · rename_i name dflt rest' hm
        rw [hm] at h
        exact absurd (h _ List.mem_cons_self) (by simp [Piece.isRef])
      · rename_i hm
        rw [hm] at h
        rw [ih rest fun piece hp => h piece (List.mem_cons_of_mem _ hp)]

theorem interpolateEnv_of_plain (env : Env) {text : String} (h : Plain text) :
    interpolateEnv env text = text := by
  rw [interpolateEnv, flatMap_of_plain env _ _ h, String.ofList_toList]

theorem matchRef_head {l : List Char} {m : String × String × List Char} (h : matchRef l = some m) :
    ∃ rest, l = '$' :: '{' :: rest := by
  unfold matchRef at h
  split at h
  · exact ⟨_, rfl⟩
  · cases h

/-- Without `${` there is no placeholder, so the guard of `interpolate_env_json` changes
    nothing. -/
theorem plain_of_not_containsRef {text : String} (h : containsRef text.toList = false) :
    Plain text := by
  unfold Plain pieces
  generalize text.toList.length = n
  revert h
  generalize text.toList = l
  intro h
  induction n generalizing l with
  | zero =>
    intro piece hp
    obtain ⟨c, -, rfl⟩ := List.mem_map.mp hp
    rfl
  | succ n ih =>
    cases l with
    | nil => simp [piecesOf]
    | cons c rest =>
      have hrest : containsRef rest = false := by
        unfold containsRef at h
        split at h
        · cases h
        · rename_i heq
          rw [(List.cons.inj heq).2]
          exact h
        · simp_all
      rw [piecesOf]
      split
      · rename_i hm
        obtain ⟨t, ht⟩ := matchRef_head hm
        rw [ht] at h
        cases h
      · intro piece hp
        rcases List.mem_cons.mp hp with rfl | hp
        · rfl
        · exact ih rest hrest piece hp

theorem interpolateEnvJson_string (env : Env) (s : String) :
    interpolateEnvJson env (.string s) = .string (interpolateEnv env s) := by
  rw [interpolateEnvJson]
  split
  · rfl
  · rename_i h
    rw [interpolateEnv_of_plain env (plain_of_not_containsRef (Bool.not_eq_true _ ▸ h))]

/-! ## Every placeholder can be nested -/

/-- Every variable stands for a placeholder behind a letter. -/
def nesting : Env := fun _ => some "x${A}"

/-- What is written for a variable then. -/
def nestedRef : List Char := ['x', '$', '{', 'A', '}']

theorem nesting_text (name dflt : String) : ((nesting name).getD dflt).toList = nestedRef := by
  show "x${A}".toList = _
  decide

/-- The letter is written where a placeholder stood, so a text with a placeholder changes. -/
theorem eq_of_nesting_fixed {n : Nat} {l : List Char} (h : interpolateChars nesting n l = l) :
    ∀ piece ∈ piecesOf n l, piece.isRef = false := by
  induction n generalizing l with
  | zero =>
    intro piece hp
    obtain ⟨c, -, rfl⟩ := List.mem_map.mp hp
    rfl
  | succ n ih =>
    cases l with
    | nil => simp [piecesOf]
    | cons c rest =>
      rw [piecesOf]
      rw [interpolateChars] at h
      cases hm : matchRef (c :: rest) with
      | some m =>
        obtain ⟨t, ht⟩ := matchRef_head hm
        obtain rfl : c = '$' := (List.cons.inj ht).1
        rw [hm] at h
        have hvalue : nestedRef ++ interpolateChars nesting n m.2.2 = '$' :: rest := by
          rw [← nesting_text m.1 m.2.1]
          exact h
        exact absurd (List.cons.inj hvalue).1 (by decide)
      | none =>
        rw [hm] at h
        intro piece hp
        rcases List.mem_cons.mp hp with rfl | hp
        · rfl
        · exact ih (List.cons.inj h).2 piece hp

/-- A placeholder anywhere in a text makes one of its pieces a placeholder. -/
theorem exists_ref_of_suffix {s l : List Char} {m : String × String × List Char}
    (hm : matchRef s = some m) (hs : s <:+ l) {n : Nat} (hn : l.length ≤ n) :
    ∃ piece ∈ piecesOf n l, piece.isRef = true := by
  induction n generalizing l with
  | zero =>
    obtain rfl := List.length_eq_zero_iff.mp (Nat.le_zero.mp hn)
    rw [List.suffix_nil.mp hs] at hm
    cases hm
  | succ n ih =>
    cases l with
    | nil =>
      rw [List.suffix_nil.mp hs] at hm
      cases hm
    | cons c rest =>
      rw [piecesOf]
      split
      · exact ⟨_, List.mem_cons_self, rfl⟩
      · rename_i hnone
        rcases List.suffix_cons_iff.mp hs with heq | hrest
        · rw [heq, hnone] at hm
          cases hm
        · obtain ⟨piece, hp, hr⟩ := ih hrest (by simp only [List.length_cons] at hn; omega)
          exact ⟨piece, List.mem_cons_of_mem _ hp, hr⟩

/-- What is written for a placeholder holds one. -/
theorem plain_of_nested {text : String} (h : Plain (interpolateEnv nesting text)) : Plain text := by
  intro piece hp
  by_contra hr
  obtain ⟨pre, post, hsplit⟩ := List.append_of_mem hp
  have htext : piece.text nesting = nestedRef := by
    cases piece with
    | kept c => exact absurd rfl hr
    | ref name dflt => exact nesting_text name dflt
  have hsuffix : ['$', '{', 'A', '}'] ++ post.flatMap (Piece.text nesting) <:+
      (interpolateEnv nesting text).toList := by
    refine ⟨pre.flatMap (Piece.text nesting) ++ ['x'], ?_⟩
    rw [interpolateEnv_eq, hsplit, String.toList_ofList, List.flatMap_append, List.flatMap_cons,
      htext]
    simp [nestedRef]
  obtain ⟨found, hf, href⟩ := exists_ref_of_suffix (m := ("A", "", _)) rfl hsuffix (Nat.le_refl _)
  rw [h found hf] at href
  cases href

/-- The second pass leaves what the first one has written alone, under every environment, exactly
    if there was nothing to write. -/
theorem twice_iff (text : String) :
    (∀ env, interpolateEnv env (interpolateEnv env text) = interpolateEnv env text) ↔
      Plain text := by
  constructor
  · intro h
    refine plain_of_nested (eq_of_nesting_fixed ?_)
    have hfixed := congrArg String.toList (h nesting)
    rwa [interpolateEnv, String.toList_ofList] at hfixed
  · intro h env
    rw [interpolateEnv_of_plain env h, interpolateEnv_of_plain env h]

/-! ## Under one environment -/

/-- No `${` comes about: no value holds a `$`, and no `$` that is kept stands before a kept `{` or
    before a placeholder. -/
structure Separate (env : Env) (text : String) : Prop where
  values : ∀ piece ∈ pieces text, piece.isRef = true → '$' ∉ piece.text env
  kept : (pieces text).IsChain fun a b => a = .kept '$' → b ≠ .kept '{' ∧ b.isRef = false

theorem containsRef_append {v t : List Char} (hv : '$' ∉ v) :
    containsRef (v ++ t) = containsRef t := by
  induction v with
  | nil => rfl
  | cons c v ih =>
    rw [List.mem_cons, not_or] at hv
    rw [List.cons_append, containsRef]
    · exact ih hv.2
    · intro l hc
      exact absurd hc.symm hv.1

theorem twice_of_separate {env : Env} {text : String} (h : Separate env text) :
    interpolateEnv env (interpolateEnv env text) = interpolateEnv env text := by
  refine interpolateEnv_of_plain env (plain_of_not_containsRef ?_)
  rw [interpolateEnv_eq, String.toList_ofList]
  obtain ⟨hvalues, hkept⟩ := h
  revert hvalues hkept
  generalize pieces text = ps
  intro hvalues hkept
  induction ps with
  | nil => rfl
  | cons p ps ih =>
    have htail := ih (fun q hq => hvalues q (List.mem_cons_of_mem _ hq)) hkept.tail
    rw [List.flatMap_cons]
    cases p with
    | ref name dflt =>
      rw [containsRef_append (hvalues _ List.mem_cons_self rfl)]
      exact htail
    | kept c =>
      by_cases hc : c = '$'
      · -- what follows is kept and is no `{`
        subst hc
        cases ps with
        | nil => rfl
        | cons q ps =>
          obtain ⟨hbrace, href⟩ := List.isChain_cons_cons.mp hkept |>.1 rfl
          cases q with
          | ref name dflt => cases href
          | kept d =>
            show containsRef ('$' :: d :: ps.flatMap (Piece.text env)) = false
            rw [containsRef]
            · exact htail
            · intro l _ hd
              exact hbrace (congrArg Piece.kept (List.cons.inj hd).1)
      · rw [containsRef_append (v := Piece.text env (.kept c)) (by simpa [Piece.text] using Ne.symm hc)]
        exact htail

/-! ## JSON -/

namespace Json

mutual

/-- The strings of a value, keys left out. -/
def strings : Json → List String
  | string s => [s]
  | array items => stringsItems items
  | object fields => stringsFields fields
  | null | bool _ | number _ => []

def stringsItems : List Json → List String
  | [] => []
  | v :: vs => strings v ++ stringsItems vs

def stringsFields : List (String × Json) → List String
  | [] => []
  | (_, v) :: fields => strings v ++ stringsFields fields

end

end Json

mutual

theorem strings_interpolateEnvJson (env : Env) : ∀ v : Json,
    (interpolateEnvJson env v).strings = v.strings.map (interpolateEnv env)
  | .string s => by
    rw [interpolateEnvJson_string]
    rfl
  | .array items => strings_interpolateItems env items
  | .object fields => strings_interpolateFields env fields
  | .null | .bool _ | .number _ => rfl

theorem strings_interpolateItems (env : Env) : ∀ items : List Json,
    Json.stringsItems (interpolateItems env items) =
      (Json.stringsItems items).map (interpolateEnv env)
  | [] => rfl
  | v :: vs => by
    rw [interpolateItems, Json.stringsItems, Json.stringsItems, List.map_append,
      strings_interpolateEnvJson env v, strings_interpolateItems env vs]

theorem strings_interpolateFields (env : Env) : ∀ fields : List (String × Json),
    Json.stringsFields (interpolateFields env fields) =
      (Json.stringsFields fields).map (interpolateEnv env)
  | [] => rfl
  | (_, v) :: fields => by
    rw [interpolateFields, Json.stringsFields, Json.stringsFields, List.map_append,
      strings_interpolateEnvJson env v, strings_interpolateFields env fields]

end

mutual

/-- A pass leaves a value alone exactly if it leaves each string in it alone. -/
theorem interpolateEnvJson_eq_iff (env : Env) : ∀ v : Json,
    interpolateEnvJson env v = v ↔ ∀ s ∈ v.strings, interpolateEnv env s = s
  | .string s => by
    rw [interpolateEnvJson_string]
    simp [Json.strings]
  | .array items => by
    rw [interpolateEnvJson, Json.array.injEq, Json.strings]
    exact interpolateItems_eq_iff env items
  | .object fields => by
    rw [interpolateEnvJson, Json.object.injEq, Json.strings]
    exact interpolateFields_eq_iff env fields
  | .null | .bool _ | .number _ => by simp [interpolateEnvJson, Json.strings]

theorem interpolateItems_eq_iff (env : Env) : ∀ items : List Json,
    interpolateItems env items = items ↔ ∀ s ∈ Json.stringsItems items, interpolateEnv env s = s
  | [] => by simp [interpolateItems, Json.stringsItems]
  | v :: vs => by
    rw [interpolateItems, List.cons.injEq, interpolateEnvJson_eq_iff env v,
      interpolateItems_eq_iff env vs, Json.stringsItems, List.forall_mem_append]

theorem interpolateFields_eq_iff (env : Env) : ∀ fields : List (String × Json),
    interpolateFields env fields = fields ↔
      ∀ s ∈ Json.stringsFields fields, interpolateEnv env s = s
  | [] => by simp [interpolateFields, Json.stringsFields]
  | (k, v) :: fields => by
    rw [interpolateFields, List.cons.injEq, Prod.mk.injEq, eq_self, true_and,
      interpolateEnvJson_eq_iff env v, interpolateFields_eq_iff env fields, Json.stringsFields,
      List.forall_mem_append]

end

theorem twiceJson_eq_iff (env : Env) (v : Json) :
    interpolateEnvJson env (interpolateEnvJson env v) = interpolateEnvJson env v ↔
      ∀ s ∈ v.strings, interpolateEnv env (interpolateEnv env s) = interpolateEnv env s := by
  rw [interpolateEnvJson_eq_iff, strings_interpolateEnvJson, List.forall_mem_map]

theorem interpolateConfig_get (env : Env) (config : HashMap Json) (key : String) :
    (interpolateConfig env config)[key]? = (config[key]?).map (interpolateEnvJson env) :=
  Std.ExtTreeMap.getElem?_map

/-- The pass of `compile_policy` over a config that has been passed over before. -/
theorem twiceConfig_eq_iff (env : Env) (config : HashMap Json) :
    interpolateConfig env (interpolateConfig env config) = interpolateConfig env config ↔
      ∀ (key : String) (value : Json), config[key]? = some value →
        interpolateEnvJson env (interpolateEnvJson env value) = interpolateEnvJson env value := by
  constructor
  · intro h key value hv
    have hkey := congrArg (fun m : HashMap Json => m[key]?) h
    simpa only [interpolateConfig_get, hv, Option.map_some, Option.some.injEq] using hkey
  · intro h
    refine Std.ExtTreeMap.ext_getElem? fun key => ?_
    rw [interpolateConfig_get, interpolateConfig_get]
    cases hv : config[key]? with
    | none => rfl
    | some value => exact congrArg some (h key value hv)

/-- **When interpolating again changes nothing.**  A configuration text, a JSON value or a node's
    config is left alone by a second pass in every environment exactly if it has no placeholder;
    in one environment it is as soon as its values and the text around them do not make a new
    `${`. -/
theorem interpolate_twice_iff (text : String) (value : Json) (config : HashMap Json) :
    ((∀ env, interpolateEnv env (interpolateEnv env text) = interpolateEnv env text) ↔
      Plain text) ∧
    ((∀ env, interpolateEnvJson env (interpolateEnvJson env value) = interpolateEnvJson env value) ↔
      ∀ s ∈ value.strings, Plain s) ∧
    ((∀ env,
        interpolateConfig env (interpolateConfig env config) = interpolateConfig env config) ↔
      ∀ (key : String) (v : Json), config[key]? = some v → ∀ s ∈ v.strings, Plain s) ∧
    ∀ env,
      (Separate env text →
        interpolateEnv env (interpolateEnv env text) = interpolateEnv env text) ∧
      ((∀ s ∈ value.strings, Separate env s) →
        interpolateEnvJson env (interpolateEnvJson env value) = interpolateEnvJson env value) := by
  have hjson : ∀ v : Json,
      (∀ env, interpolateEnvJson env (interpolateEnvJson env v) = interpolateEnvJson env v) ↔
        ∀ s ∈ v.strings, Plain s := by
    intro v
    constructor
    · intro h s hs
      rw [← twice_iff]
      exact fun env => (twiceJson_eq_iff env v).mp (h env) s hs
    · intro h env
      rw [twiceJson_eq_iff]
      exact fun s hs => (twice_iff s).mpr (h s hs) env
  refine ⟨twice_iff text, hjson value, ⟨fun h key v hv => ?_, fun h env => ?_⟩,
    fun env => ⟨twice_of_separate, fun h => ?_⟩⟩
  · rw [← hjson]
    exact fun env => (twiceConfig_eq_iff env config).mp (h env) key v hv
  · rw [twiceConfig_eq_iff]
    exact fun key v hv => (hjson v).mpr (h key v hv) env
  · rw [twiceJson_eq_iff]
    exact fun s hs => twice_of_separate (h s hs)

/-- `A` names `B`, and `B` is set. -/
def nestedEnv : Env
  | "A" => some "${B}"
  | "B" => some "x"
  | _ => none

/-- A variable whose value is a placeholder, and a default that holds one: the second pass goes
    on where the first one stopped. -/
theorem interpolate_twice_differs :
    interpolateEnv nestedEnv "${A}" = "${B}" ∧ interpolateEnv nestedEnv "${B}" = "x" ∧
      interpolateEnv (fun _ => none) "${A:-${B}}" = "${B}" ∧
      interpolateEnv (fun _ => none) "${B}" = "" ∧
      interpolateConfig nestedEnv (interpolateConfig nestedEnv
          ((∅ : HashMap Json).insert "key" (.string "${A}"))) ≠
        interpolateConfig nestedEnv ((∅ : HashMap Json).insert "key" (.string "${A}")) := by
  refine ⟨by decide, by decide, by decide, by decide, fun h => ?_⟩
  have hkey := (twiceConfig_eq_iff _ _).mp h "key" (.string "${A}")
    (by rw [HashMap.get_insert, if_pos rfl])
  revert hkey
  decide

end Featherbit
