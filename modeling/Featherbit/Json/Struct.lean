/-
  STRUCTS READ FROM JSON TEXT (`#[derive(Deserialize)]`, `serde_json::from_slice`).

  A derived reader is handed the entries of an object in the order of the text: a field that comes
  twice is an error, one it does not know is skipped.  An array is read as the fields in the order
  of their declaration.

  `entries` is the text as a tree whose objects keep all their entries; `toValue` is such a tree as
  a `serde_json::Value`, where the last entry of a key counts.  A derived writer puts the fields in
  the order of their declaration, which need not be the key order: the text of any list of
  entries is read back.
-/
import Featherbit.Json.Text

namespace Featherbit

namespace Json

mutual

/-- A tree of entries as a `Value`. -/
def toValue : Json → Json
  | array items => array (toValueItems items)
  | object fields => object (toValueFields fields)
  | null => null
  | bool b => bool b
  | number n => number n
  | string s => string s

def toValueItems : List Json → List Json
  | [] => []
  | v :: vs => toValue v :: toValueItems vs

def toValueFields : List (String × Json) → List (String × Json)
  | [] => []
  | (k, v) :: fields => CompactJson.addField k (toValue v) (toValueFields fields)

end

mutual

/-- What is a `Value` already stays as it is. -/
theorem toValue_mapFloats (f : F64 → F64) : ∀ v : Json, v.Canonical →
    (v.mapFloats f).toValue = v.mapFloats f
  | null, _ | bool _, _ | string _, _ => rfl
  | number (.posInt _), _ | number (.negInt _), _ | number (.float _), _ => rfl
  | array items, h => congrArg array (toValueItems_mapFloats f items h)
  | object fields, h => congrArg object (toValueFields_mapFloats f fields h.1 h.2)

theorem toValueItems_mapFloats (f : F64 → F64) : ∀ items : List Json, CanonicalItems items →
    toValueItems (mapFloatsItems f items) = mapFloatsItems f items
  | [], _ => rfl
  | v :: vs, h => by
    rw [mapFloatsItems, toValueItems, toValue_mapFloats f v h.1, toValueItems_mapFloats f vs h.2]

theorem toValueFields_mapFloats (f : F64 → F64) : ∀ fields : List (String × Json),
    (fields.map Prod.fst).Pairwise (· < ·) → CanonicalFields fields →
    toValueFields (mapFloatsFields f fields) = mapFloatsFields f fields
  | [], _, _ => rfl
  | (k, v) :: fields, hs, h => by
    have hsorted : ((k, v.mapFloats f) :: mapFloatsFields f fields).map Prod.fst
        |>.Pairwise (· < ·) := by
      rw [List.map_cons, mapFloatsFields_keys]
      exact hs
    rw [mapFloatsFields, toValueFields, toValue_mapFloats f v h.1,
      toValueFields_mapFloats f fields hs.tail h.2]
    exact CompactJson.addField_sorted hsorted

end

/-- The one entry of a field that must be there. -/
def requiredField (entries : List (String × Json)) (name : String) : Option Json :=
  match entries.filter (·.1 = name) with
  | [(_, v)] => some v
  | _ => none

/-- The entry of a field that may be missing. -/
def optionalField (entries : List (String × Json)) (name : String) : Option (Option Json) :=
  match entries.filter (·.1 = name) with
  | [] => some none
  | [(_, v)] => some (some v)
  | _ => none

/-- An `Option<String>`. -/
def asOptionalStr : Json → Option (Option String)
  | null => some none
  | string s => some (some s)
  | _ => none

/-- An `Option<String>` field that may be missing. -/
def optionalStr (entries : List (String × Json)) (name : String) : Option (Option String) :=
  match optionalField entries name with
  | some none => some none
  | some (some v) => asOptionalStr v
  | none => none

end Json

/-- `to_vec` and `from_slice` of structs. -/
class JsonStructCodec extends JsonCodec where
  /-- the text as a tree of entries -/
  entries : Bytes → Option Json
  /-- what the error says of a text that is not read as the target -/
  fault : String → Bytes → String
  entries_toText : ∀ fields : List (String × Json), Json.CanonicalFields fields →
    (Json.object fields).depth < 128 →
    entries (asBytes (toText (.object fields))) = some (.object (Json.mapFloatsFields reread fields))
  /-- entries that are nested deeper are not read back as others -/
  eq_of_entries_toText : ∀ (fields : List (String × Json)) (w : Json), Json.CanonicalFields fields →
    entries (asBytes (toText (.object fields))) = some w →
    w = .object (Json.mapFloatsFields reread fields)

/-! ## Computed -/

namespace CompactJson

def parseEntries : Nat → List Char → Option (List (String × Json) × List Char)
  | 0, _ => none
  | n + 1, l =>
    match readKey l with
    | some (k, l) =>
      match parseValue n l with
      | some (v, ',' :: rest) => (parseEntries n rest).map fun p => ((k, v) :: p.1, p.2)
      | some (v, '}' :: rest) => some ([(k, v)], rest)
      | _ => none
    | none => none

/-- The entries of an object, each with its value; any other text as a value. -/
def entries (text : Bytes) : Option Json :=
  match fromUtf8 text with
  | some s =>
    match s.toList with
    | ['{', '}'] => some (.object [])
    | '{' :: l =>
      match parseEntries l.length l with
      | some (fields, []) => some (.object fields)
      | _ => none
    | _ => parse text
  | none => none

theorem parseEntries_print (fields : List (String × Json)) {n : Nat} (hne : fields ≠ [])
    (hfields : Json.CanonicalFields fields) (hn : (printFields fields).length < n) :
    parseEntries n (printFields fields ++ ['}']) = some (Json.mapFloatsFields zero fields, []) := by
  induction fields generalizing n with
  | nil => exact absurd rfl hne
  | cons field fields ih =>
    obtain ⟨k, v⟩ := field
    obtain ⟨n, rfl⟩ : ∃ m, n = m + 1 := ⟨n - 1, by omega⟩
    cases fields with
    | nil =>
      rw [printFields, List.length_append, List.length_cons] at hn
      have hread := parseValue_print v hfields.1 (show (print v).length ≤ n by omega)
        (stops_of_mem (c := '\x7d') (by simp) [])
      simp only [parseEntries, printFields, List.append_assoc, List.cons_append, readKey_print, hread]
      rfl
    | cons field fields =>
      rw [printFields, List.length_append, List.length_cons, List.length_append,
        List.length_cons] at hn
      have hread := parseValue_print v hfields.1 (show (print v).length ≤ n by omega)
        (stops_of_mem (c := ',') (by simp) (printFields (field :: fields) ++ ['\x7d']))
      have hrest := ih (List.cons_ne_nil _ _) hfields.2
        (show (printFields (field :: fields)).length < n by omega)
      simp only [parseEntries, printFields, List.append_assoc, List.cons_append, readKey_print,
        hread, hrest, Option.map_some]
      rfl

theorem entries_toText {fields : List (String × Json)} (hfields : Json.CanonicalFields fields) :
    entries (asBytes (toText (.object fields))) =
      some (.object (Json.mapFloatsFields zero fields)) := by
  rw [entries, fromUtf8_asBytes, toText]
  simp only [String.toList_ofList]
  cases fields with
  | nil => rfl
  | cons field fields =>
    obtain ⟨l, hl⟩ := printFields_head field fields
    have hread := parseEntries_print (field :: fields) (List.cons_ne_nil _ _) hfields
      (show (printFields (field :: fields)).length < (printFields (field :: fields) ++ ['\x7d']).length
        by rw [List.length_append, List.length_singleton]; omega)
    rw [print]
    rw [hl] at hread ⊢
    show (match parseEntries ('"' :: l ++ ['\x7d']).length ('"' :: l ++ ['\x7d']) with
      | some (fields, []) => some (Json.object fields)
      | _ => none) = _
    rw [hread]

end CompactJson

/-- Compact JSON with its structs, computed. -/
abbrev compactStructs : JsonStructCodec where
  toJsonCodec := compactJson
  entries := CompactJson.entries
  fault target _ := "not a " ++ target
  entries_toText _ hfields _ := CompactJson.entries_toText hfields
  eq_of_entries_toText _ _ hfields h :=
    Option.some.inj (h.symm.trans (CompactJson.entries_toText hfields))

end Featherbit
