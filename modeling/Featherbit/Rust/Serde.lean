/-
  READING JSON INTO RUST TYPES (`serde_json::from_value` on derived `Deserialize`).

  Only what the gateway's input types use: options, texts, lists, maps, and structs whose fields
  all have defaults and that know no other fields.  A struct is read off an object field by field
  in key order, and the first fault is reported; off an array it is read by position.
-/
import Featherbit.Json

namespace Featherbit

/-- What a value can be refused for. -/
inductive SerdeFault where
  | invalidType (value : Json)
  | invalidLength (n : Nat)
  | unknownField (name : String)
  | unknownVariant (name : String)
  | noVariant (typeName : String)

/-- The message `serde` writes for a fault. -/
class SerdeText where
  toText : SerdeFault → String

namespace Serde

variable {α β : Type}

/-- `Option<T>`: `null` is `None`. -/
def readOption (read : Json → Except SerdeFault α) : Json → Except SerdeFault (Option α)
  | .null => .ok none
  | value => (read value).map some

/-- `String`. -/
def readString : Json → Except SerdeFault String
  | .string s => .ok s
  | value => .error (.invalidType value)

/-- `u16`. -/
def readU16 (value : Json) : Except SerdeFault UInt16 :=
  match value with
  | .number (.posInt n) =>
    if n.toNat < 2 ^ 16 then .ok n.toUInt16 else .error (.invalidType value)
  | _ => .error (.invalidType value)

/-- `Vec<T>`. -/
def readVec (read : Json → Except SerdeFault α) : Json → Except SerdeFault (List α)
  | .array items => items.mapM read
  | value => .error (.invalidType value)

/-- `HashMap<String, T>`. -/
def readMap (read : Json → Except SerdeFault α) : Json → Except SerdeFault (HashMap α)
  | .object fields =>
    fields.foldlM (fun m field => do return m.insert field.1 (← read field.2)) ∅
  | value => .error (.invalidType value)

/-- A struct with `#[serde(default, deny_unknown_fields)]`: `names` are its fields in declaration
    order, `setField` reads one of them. -/
def readStruct (names : List String) (setField : α → String × Json → Except SerdeFault α)
    (dflt : α) : Json → Except SerdeFault α
  | .object fields => fields.foldlM setField dflt
  | .array items => do
    let value ← (names.zip items).foldlM setField dflt
    -- items that no field has taken
    if items.length > names.length then .error (.invalidLength items.length) else .ok value
  | value => .error (.invalidType value)

/-- A map reads back from the object it is written as. -/
theorem readMap_object {read : Json → Except SerdeFault β} {write : α → Json} {f : α → β}
    (h : ∀ a, read (write a) = .ok (f a)) (m : HashMap α) :
    readMap read (.object (m.toList.map fun field => (field.1, write field.2))) =
      .ok (m.map fun _ a => f a) := by
  have hfold : ∀ (fields : List (String × α)) (acc : HashMap β),
      (fields.map fun field => (field.1, write field.2)).foldlM
          (fun m field => do return m.insert field.1 (← read field.2)) acc =
        (.ok (acc.insertMany (fields.map fun field => (field.1, f field.2))) :
          Except SerdeFault (HashMap β)) := by
    intro fields
    induction fields with
    | nil => intro acc; rw [List.map_nil, List.map_nil, Std.ExtTreeMap.insertMany_nil]; rfl
    | cons field fields ih =>
      intro acc
      rw [List.map_cons, List.map_cons, List.foldlM_cons, h, Std.ExtTreeMap.insertMany_cons]
      exact ih (acc.insert field.1 (f field.2))
  have htoList : m.toList.map (fun field => (field.1, f field.2)) =
      (m.map fun _ a => f a).toList := by
    rw [Std.ExtTreeMap.toList_map]
  rw [readMap, hfold, htoList, ← Std.ExtTreeMap.ofList_eq_insertMany_empty, HashMap.ofList_toList]

/-- A list reads back item by item. -/
theorem readVec_array {read : Json → Except SerdeFault α} {write : α → Json}
    (h : ∀ a, read (write a) = .ok a) (items : List α) :
    readVec read (.array (items.map write)) = .ok items := by
  show (items.map write).mapM read = .ok items
  induction items with
  | nil => rfl
  | cons a items ih => rw [List.map_cons, List.mapM_cons, h, ih]; rfl

end Serde

end Featherbit
