/-
  PATHS INTO A JSON VALUE: a key of an object, an index of an array, one after another.

  `child`, `setChild` and `removeChild` go one segment down; their laws say that two different
  segments do not see each other, but for one case: removing an element of an array moves those
  behind it (`Before`).  `at?` and `setAt` go down a whole path.
-/
import Featherbit.Json

namespace Featherbit

/-- One segment of a path. -/
inductive PathSeg where
  | key (k : String)
  | index (i : Nat)
deriving DecidableEq

namespace Json

/-- The value of the first field of a key, replaced. -/
def setField (key : String) (x : Json) : List (String × Json) → List (String × Json)
  | [] => []
  | (k, v) :: fields => if k = key then (k, x) :: fields else (k, v) :: setField key x fields

/-- `value.get_mut(segment)`: the entry a segment stands for. -/
def child : PathSeg → Json → Option Json
  | .key k, object fields => fields.lookup k
  | .index i, array items => items[i]?
  | .key _, null | .key _, bool _ | .key _, number _ | .key _, string _ | .key _, array _
  | .index _, null | .index _, bool _ | .index _, number _ | .index _, string _
  | .index _, object _ => none

/-- The entry, overwritten where there is one. -/
def setChild : PathSeg → Json → Json → Json
  | .key k, x, object fields => object (setField k x fields)
  | .index i, x, array items => array (items.set i x)
  | .key _, _, null => null
  | .key _, _, bool b => bool b
  | .key _, _, number n => number n
  | .key _, _, string s => string s
  | .key _, _, array items => array items
  | .index _, _, null => null
  | .index _, _, bool b => bool b
  | .index _, _, number n => number n
  | .index _, _, string s => string s
  | .index _, _, object fields => object fields

/-- The entry, taken out. -/
def removeChild : PathSeg → Json → Json
  | .key k, object fields => object (removeField k fields)
  | .index i, array items => array (items.eraseIdx i)
  | .key _, null => null
  | .key _, bool b => bool b
  | .key _, number n => number n
  | .key _, string s => string s
  | .key _, array items => array items
  | .index _, null => null
  | .index _, bool b => bool b
  | .index _, number n => number n
  | .index _, string s => string s
  | .index _, object fields => object fields

/-! ## Fields -/

section Fields

variable {k l : String} {x y : Json} {fields : List (String × Json)}

theorem lookup_cons (field : String × Json) : (field :: fields).lookup k =
    if k = field.1 then some field.2 else fields.lookup k := by
  rw [List.lookup_cons]
  by_cases hk : k = field.1
  · rw [if_pos hk, beq_iff_eq.mpr hk]
  · rw [if_neg hk, beq_eq_false_iff_ne.mpr hk]

theorem removeField_cons (field : String × Json) : removeField k (field :: fields) =
    if field.1 = k then removeField k fields else field :: removeField k fields := by
  by_cases hk : field.1 = k
  · rw [if_pos hk]
    exact List.filter_cons_of_neg (by simpa using hk)
  · rw [if_neg hk]
    exact List.filter_cons_of_pos (by simpa using hk)

theorem lookup_setField : (setField k x fields).lookup l =
    if l = k then (fields.lookup l).map fun _ => x else fields.lookup l := by
  induction fields with
  | nil => simp [setField]
  | cons field fields ih =>
    rw [setField]
    by_cases hkey : field.1 = k
    · rw [if_pos hkey, lookup_cons, lookup_cons]
      by_cases hl : l = field.1
      · simp [hl, hkey]
      · have hlk : l ≠ k := fun h => hl (h.trans hkey.symm)
        simp [hkey, hlk]
    · rw [if_neg hkey, lookup_cons, lookup_cons, ih]
      by_cases hl : l = field.1
      · have hlk : l ≠ k := fun h => hkey (hl.symm.trans h)
        simp [hl, hkey]
      · simp [hl]

theorem setField_setField : setField k x (setField k y fields) = setField k x fields := by
  induction fields with
  | nil => rfl
  | cons field fields ih =>
    obtain ⟨key, v⟩ := field
    by_cases hkey : key = k
    · simp [setField, hkey]
    · simp [setField, hkey, ih]

theorem setField_comm (h : k ≠ l) :
    setField k x (setField l y fields) = setField l y (setField k x fields) := by
  induction fields with
  | nil => rfl
  | cons field fields ih =>
    obtain ⟨key, v⟩ := field
    by_cases hk : key = k
    · have hl : key ≠ l := fun hl => h (hk.symm.trans hl)
      simp [setField, hk, hk ▸ hl]
    · by_cases hl : key = l
      · simp [setField, hl, hl ▸ hk]
      · simp [setField, hk, hl, ih]

theorem setField_lookup (h : fields.lookup k = some x) : setField k x fields = fields := by
  induction fields with
  | nil => cases h
  | cons field fields ih =>
    rw [lookup_cons] at h
    by_cases hkey : field.1 = k
    · rw [if_pos hkey.symm] at h
      rw [setField, if_pos hkey, ← Option.some.inj h]
    · rw [if_neg (Ne.symm hkey)] at h
      rw [setField, if_neg hkey, ih h]

theorem removeField_setField_self : removeField k (setField k x fields) = removeField k fields := by
  induction fields with
  | nil => rfl
  | cons field fields ih =>
    by_cases hkey : field.1 = k
    · simp [setField, removeField_cons, hkey]
    · simp [setField, removeField_cons, hkey, ih]

theorem removeField_setField (h : l ≠ k) :
    removeField l (setField k x fields) = setField k x (removeField l fields) := by
  induction fields with
  | nil => rfl
  | cons field fields ih =>
    by_cases hk : field.1 = k
    · have hl : field.1 ≠ l := fun hl => h (hl.symm.trans hk)
      simp [setField, removeField_cons, hk, Ne.symm h]
    · by_cases hl : field.1 = l
      · simp [setField, removeField_cons, hl, h, ih]
      · simp [setField, removeField_cons, hk, hl, ih]

theorem lookup_removeField (h : l ≠ k) : (removeField l fields).lookup k = fields.lookup k := by
  induction fields with
  | nil => rfl
  | cons field fields ih =>
    rw [removeField_cons, lookup_cons]
    by_cases hl : field.1 = l
    · have hk : k ≠ field.1 := fun hk => h (hl.symm.trans hk.symm)
      rw [if_pos hl, if_neg hk, ih]
    · rw [if_neg hl, lookup_cons, ih]

end Fields

/-! ## One segment -/

/-- Removing the entry of `t` moves the one of `s`. -/
def Before : PathSeg → PathSeg → Prop
  | .index i, .index j => i < j
  | .index _, .key _ | .key _, .index _ | .key _, .key _ => False

section Child

variable {s t : PathSeg} {v x y : Json}

theorem child_setChild_self (h : (child s v).isSome) : child s (setChild s x v) = some x := by
  cases s with
  | key k =>
    cases v with
    | object fields =>
      show (setField k x fields).lookup k = _
      obtain ⟨c, hc⟩ := Option.isSome_iff_exists.mp h
      rw [lookup_setField, if_pos rfl, show fields.lookup k = some c from hc]
      rfl
    | null | bool _ | number _ | string _ | array _ => cases h
  | index i =>
    cases v with
    | array items =>
      obtain ⟨hi, -⟩ := List.getElem?_eq_some_iff.mp (Option.isSome_iff_exists.mp h).choose_spec
      exact List.getElem?_set_self hi
    | null | bool _ | number _ | string _ | object _ => cases h

theorem child_setChild_ne (h : s ≠ t) : child t (setChild s x v) = child t v := by
  cases s with
  | key k =>
    cases t with
    | key l =>
      cases v with
      | object fields =>
        show (setField k x fields).lookup l = fields.lookup l
        have hl : l ≠ k := fun heq => h (congrArg PathSeg.key heq.symm)
        rw [lookup_setField, if_neg hl]
      | null | bool _ | number _ | string _ | array _ => rfl
    | index j => cases v <;> rfl
  | index i =>
    cases t with
    | key l => cases v <;> rfl
    | index j =>
      cases v with
      | array items => exact List.getElem?_set_ne fun heq => h (congrArg PathSeg.index heq)
      | null | bool _ | number _ | string _ | object _ => rfl

theorem setChild_setChild : setChild s x (setChild s y v) = setChild s x v := by
  cases s with
  | key k =>
    cases v with
    | object fields => exact congrArg object setField_setField
    | null | bool _ | number _ | string _ | array _ => rfl
  | index i =>
    cases v with
    | array items => exact congrArg array (List.set_set y)
    | null | bool _ | number _ | string _ | object _ => rfl

theorem setChild_comm (h : s ≠ t) :
    setChild s x (setChild t y v) = setChild t y (setChild s x v) := by
  cases s with
  | key k =>
    cases t with
    | key l =>
      cases v with
      | object fields => exact congrArg object (setField_comm fun heq => h (congrArg PathSeg.key heq))
      | null | bool _ | number _ | string _ | array _ => rfl
    | index j => cases v <;> rfl
  | index i =>
    cases t with
    | key l => cases v <;> rfl
    | index j =>
      cases v with
      | array items =>
        exact congrArg array (List.set_comm y x fun heq => h (congrArg PathSeg.index heq.symm))
      | null | bool _ | number _ | string _ | object _ => rfl

theorem setChild_child (h : child s v = some x) : setChild s x v = v := by
  cases s with
  | key k =>
    cases v with
    | object fields => exact congrArg object (setField_lookup h)
    | null | bool _ | number _ | string _ | array _ => rfl
  | index i =>
    cases v with
    | array items =>
      obtain ⟨hi, rfl⟩ := List.getElem?_eq_some_iff.mp (show items[i]? = some x from h)
      exact congrArg array (List.set_getElem_self hi)
    | null | bool _ | number _ | string _ | object _ => rfl

theorem removeChild_setChild_self : removeChild s (setChild s x v) = removeChild s v := by
  cases s with
  | key k =>
    cases v with
    | object fields => exact congrArg object removeField_setField_self
    | null | bool _ | number _ | string _ | array _ => rfl
  | index i =>
    cases v with
    | array items => exact congrArg array List.eraseIdx_set_eq
    | null | bool _ | number _ | string _ | object _ => rfl

theorem removeChild_setChild (h : t ≠ s) (hbefore : ¬ Before t s) :
    removeChild t (setChild s x v) = setChild s x (removeChild t v) := by
  cases t with
  | key l =>
    cases s with
    | key k =>
      cases v with
      | object fields =>
        exact congrArg object (removeField_setField fun heq => h (congrArg PathSeg.key heq))
      | null | bool _ | number _ | string _ | array _ => rfl
    | index i => cases v <;> rfl
  | index j =>
    cases s with
    | key k => cases v <;> rfl
    | index i =>
      cases v with
      | array items =>
        have hlt : i < j := by
          rcases Nat.lt_trichotomy i j with hlt | rfl | hgt
          · exact hlt
          · exact absurd rfl h
          · exact absurd hgt hbefore
        exact congrArg array (List.eraseIdx_set_gt hlt)
      | null | bool _ | number _ | string _ | object _ => rfl

theorem child_removeChild (h : t ≠ s) (hbefore : ¬ Before t s) :
    child s (removeChild t v) = child s v := by
  cases t with
  | key l =>
    cases s with
    | key k =>
      cases v with
      | object fields => exact lookup_removeField fun heq => h (congrArg PathSeg.key heq)
      | null | bool _ | number _ | string _ | array _ => rfl
    | index i => cases v <;> rfl
  | index j =>
    cases s with
    | key k => cases v <;> rfl
    | index i =>
      cases v with
      | array items =>
        have hlt : i < j := by
          rcases Nat.lt_trichotomy i j with hlt | rfl | hgt
          · exact hlt
          · exact absurd rfl h
          · exact absurd hgt hbefore
        exact List.getElem?_eraseIdx_of_lt hlt
      | null | bool _ | number _ | string _ | object _ => rfl

/-- A text has no entries. -/
theorem child_string (s : PathSeg) (text : String) : child s (string text) = none := by
  cases s <;> rfl

end Child

/-! ## Whole paths -/

/-- What a path addresses. -/
def at? : List PathSeg → Json → Option Json
  | [], v => some v
  | s :: path, v => (child s v).bind (at? path)

/-- What a path addresses, overwritten where there is something. -/
def setAt : List PathSeg → Json → Json → Json
  | [], x, _ => x
  | s :: path, x, v =>
    match child s v with
    | some c => setChild s (setAt path x c) v
    | none => v

section Paths

variable {s : PathSeg} {path : List PathSeg} {v c x y : Json}

theorem setAt_cons (h : child s v = some c) : setAt (s :: path) x v = setChild s (setAt path x c) v := by
  rw [setAt, h]

theorem at?_cons (h : child s v = some c) : at? (s :: path) v = at? path c := by
  rw [at?, h]
  rfl

/-- Writing what is there changes nothing. -/
theorem setAt_self (h : at? path v = some x) : setAt path x v = v := by
  induction path generalizing v with
  | nil => exact (Option.some.inj h).symm
  | cons s path ih =>
    obtain ⟨c, hc, hrest⟩ := Option.bind_eq_some_iff.mp h
    rw [setAt_cons hc, ih hrest, setChild_child hc]

/-- What has entries is no text, whatever stands below it. -/
theorem asStr_setAt_cons (h : (at? (s :: path) v).isSome) : (setAt (s :: path) y v).asStr = none := by
  obtain ⟨x, hx⟩ := Option.isSome_iff_exists.mp h
  obtain ⟨c, hc, -⟩ := Option.bind_eq_some_iff.mp hx
  have hentry : child s (setAt (s :: path) y v) = some (setAt path y c) := by
    rw [setAt_cons hc]
    exact child_setChild_self (Option.isSome_iff_exists.mpr ⟨c, hc⟩)
  cases hv : setAt (s :: path) y v with
  | string text =>
    rw [hv, child_string] at hentry
    cases hentry
  | null | bool _ | number _ | array _ | object _ => rfl

end Paths

end Json

end Featherbit
