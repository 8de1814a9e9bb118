/-
  JSON VALUES (`serde_json::Value`), as plugin configuration, credentials and the context's
  scratch space hold them.

  An object is a `BTreeMap`: its fields are listed in key order.  A number keeps `serde_json`'s
  three forms; a float is its bit pattern (no arithmetic is ever done on it here).
-/
import Featherbit.Rust.Std

namespace Featherbit

/-- An IEEE-754 double, by its bits. -/
structure F64 where
  bits : UInt64
deriving DecidableEq

/-- `serde_json::Number`. -/
inductive JsonNumber where
  | posInt (n : UInt64)
  | negInt (n : Int64)
  | float (x : F64)
deriving DecidableEq

/-- `serde_json::Value`. -/
inductive Json where
  | null
  | bool (b : Bool)
  | number (n : JsonNumber)
  | string (s : String)
  | array (items : List Json)
  | object (fields : List (String × Json))

namespace Json

mutual

/-- Equality of values, decided by going down both trees. -/
def decEq : (a b : Json) → Decidable (a = b)
  | null, null => isTrue rfl
  | bool a, bool b => decidable_of_iff (a = b) (by simp)
  | number a, number b => decidable_of_iff (a = b) (by simp)
  | string a, string b => decidable_of_iff (a = b) (by simp)
  | array a, array b =>
    match decEqItems a b with
    | isTrue h => isTrue (by rw [h])
    | isFalse h => isFalse (by simpa using h)
  | object a, object b =>
    match decEqFields a b with
    | isTrue h => isTrue (by rw [h])
    | isFalse h => isFalse (by simpa using h)
  | null, bool _ | null, number _ | null, string _ | null, array _ | null, object _
  | bool _, null | bool _, number _ | bool _, string _ | bool _, array _ | bool _, object _
  | number _, null | number _, bool _ | number _, string _ | number _, array _
  | number _, object _ | string _, null | string _, bool _ | string _, number _
  | string _, array _ | string _, object _ | array _, null | array _, bool _
  | array _, number _ | array _, string _ | array _, object _ | object _, null
  | object _, bool _ | object _, number _ | object _, string _ | object _, array _ =>
    isFalse (by simp)

def decEqItems : (a b : List Json) → Decidable (a = b)
  | [], [] => isTrue rfl
  | [], _ :: _ | _ :: _, [] => isFalse (by simp)
  | a :: as, b :: bs =>
    match decEq a b, decEqItems as bs with
    | isTrue h, isTrue h' => isTrue (by rw [h, h'])
    | isFalse h, _ => isFalse (fun e => h (List.cons.inj e).1)
    | _, isFalse h => isFalse (fun e => h (List.cons.inj e).2)

def decEqFields : (a b : List (String × Json)) → Decidable (a = b)
  | [], [] => isTrue rfl
  | [], _ :: _ | _ :: _, [] => isFalse (by simp)
  | (k, a) :: as, (l, b) :: bs =>
    match decEq a b, decEqFields as bs with
    | isTrue h, isTrue h' => decidable_of_iff (k = l) (by simp [h, h'])
    | isFalse h, _ => isFalse (fun e => h (congrArg Prod.snd (List.cons.inj e).1))
    | _, isFalse h => isFalse (fun e => h (List.cons.inj e).2)

end

instance : DecidableEq Json := decEq

/-- `value.get(field)`. -/
def get (field : String) : Json → Option Json
  | object fields => fields.lookup field
  | _ => none

/-- `map.remove(key)`: what is left of the fields. -/
def removeField (key : String) (fields : List (String × Json)) : List (String × Json) :=
  fields.filter fun field => field.1 ≠ key

/-- `map.insert(key, value)`, in key order. -/
def insertField (key : String) (value : Json) : List (String × Json) → List (String × Json)
  | [] => [(key, value)]
  | (k, v) :: fields =>
    if key < k then (key, value) :: (k, v) :: fields
    else if key = k then (key, value) :: fields
    else (k, v) :: insertField key value fields

theorem insertField_nil (key : String) (value : Json) :
    insertField key value [] = [(key, value)] := rfl

theorem insertField_of_lt {key k : String} (h : key < k) (value v : Json)
    (fields : List (String × Json)) :
    insertField key value ((k, v) :: fields) = (key, value) :: (k, v) :: fields := by
  rw [insertField, if_pos h]

theorem insertField_of_gt {key k : String} (h : k < key) (value v : Json)
    (fields : List (String × Json)) :
    insertField key value ((k, v) :: fields) = (k, v) :: insertField key value fields := by
  rw [insertField, if_neg (lt_asymm h), if_neg h.ne']

theorem insertField_self (key : String) (value v : Json) (fields : List (String × Json)) :
    insertField key value ((key, v) :: fields) = (key, value) :: fields := by
  rw [insertField, if_neg (lt_irrefl key), if_pos rfl]

/-- A field that was inserted is found; the others are as they were. -/
theorem lookup_insertField (key k : String) (value : Json) (fields : List (String × Json)) :
    (insertField key value fields).lookup k = if k = key then some value else fields.lookup k := by
  have hcons : ∀ (l : String) (v : Json) (rest : List (String × Json)),
      ((l, v) :: rest).lookup k = if k = l then some v else rest.lookup k := by
    intro l v rest
    rw [List.lookup_cons]
    by_cases hk : k = l
    · rw [if_pos hk, beq_iff_eq.mpr hk]
    · rw [if_neg hk, beq_eq_false_iff_ne.mpr hk]
  induction fields with
  | nil =>
    rw [insertField_nil, hcons]
  | cons field fields ih =>
    obtain ⟨l, v⟩ := field
    rcases lt_trichotomy key l with hlt | rfl | hgt
    · rw [insertField_of_lt hlt, hcons key]
    · rw [insertField_self, hcons, hcons]
      by_cases hk : k = key
      · rw [if_pos hk, if_pos hk]
      · rw [if_neg hk, if_neg hk, if_neg hk]
    · rw [insertField_of_gt hgt, hcons, hcons, ih]
      by_cases hk : k = l
      · rw [if_pos hk, if_pos hk, if_neg (hk ▸ hgt.ne)]
      · rw [if_neg hk, if_neg hk]

theorem key_mem_insertField {key k : String} {value : Json} {fields : List (String × Json)}
    (h : k ∈ (insertField key value fields).map Prod.fst) : k = key ∨ k ∈ fields.map Prod.fst := by
  induction fields with
  | nil => exact Or.inl (List.mem_singleton.mp h)
  | cons field fields ih =>
    obtain ⟨l, v⟩ := field
    rcases lt_trichotomy key l with hlt | rfl | hgt
    · rw [insertField_of_lt hlt, List.map_cons] at h
      exact List.mem_cons.mp h
    · rw [insertField_self, List.map_cons] at h
      exact Or.inr h
    · rw [insertField_of_gt hgt, List.map_cons, List.mem_cons] at h
      rw [List.map_cons, List.mem_cons]
      rcases h with h | h
      · exact Or.inr (Or.inl h)
      · rcases ih h with h | h
        · exact Or.inl h
        · exact Or.inr (Or.inr h)

/-- The fields stay in key order. -/
theorem insertField_pairwise {fields : List (String × Json)} (h : fields.Pairwise (·.1 < ·.1))
    (key : String) (value : Json) : (insertField key value fields).Pairwise (·.1 < ·.1) := by
  induction fields with
  | nil => exact List.pairwise_singleton _ _
  | cons field fields ih =>
    obtain ⟨l, v⟩ := field
    obtain ⟨hfirst, hrest⟩ := List.pairwise_cons.mp h
    rcases lt_trichotomy key l with hlt | rfl | hgt
    · rw [insertField_of_lt hlt]
      refine List.pairwise_cons.mpr ⟨fun other hother => ?_, h⟩
      rcases List.mem_cons.mp hother with rfl | hother
      · exact hlt
      · exact hlt.trans (hfirst other hother)
    · rw [insertField_self]
      exact List.pairwise_cons.mpr ⟨hfirst, hrest⟩
    · rw [insertField_of_gt hgt]
      refine List.pairwise_cons.mpr ⟨fun other hother => ?_, ih hrest⟩
      rcases key_mem_insertField (List.mem_map_of_mem hother) with hkey | hkey
      · exact hkey ▸ hgt
      · obtain ⟨old, hold, hkey⟩ := List.mem_map.mp hkey
        exact hkey ▸ hfirst old hold

/-- `value.as_str()`. -/
def asStr : Json → Option String
  | string s => some s
  | _ => none

/-- `value.as_u64()`. -/
def asU64 : Json → Option UInt64
  | number (.posInt n) => some n
  | _ => none

/-- `value.as_i64()`. -/
def asI64 : Json → Option Int64
  | number (.posInt n) => if n.toNat < 2 ^ 63 then some n.toInt64 else none
  | number (.negInt n) => some n
  | _ => none

/-- `value.as_array()`. -/
def asArray : Json → Option (List Json)
  | array items => some items
  | _ => none

/-- `value.as_object()`. -/
def asObject : Json → Option (List (String × Json))
  | object fields => some fields
  | _ => none

/-- `value.as_bool()`. -/
def asBool : Json → Option Bool
  | bool b => some b
  | _ => none

end Json

/-- `serde_json::Value` as text (`to_string`): compact JSON. -/
class JsonText where
  toText : Json → String

/-- The text of an object of one plain text field, such as a rejection body. -/
abbrev oneFieldText : JsonText where
  toText
    | .object [(k, .string s)] => "\x7b\"" ++ k ++ "\":\"" ++ s ++ "\"\x7d"
    | _ => ""

end Featherbit
