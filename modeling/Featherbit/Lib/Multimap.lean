/-
  MAPS WITH SEVERAL VALUES UNDER A KEY, as a library.

  A list of key-value pairs is collected into a map from a key to the list of its values, in order
  (`ofPairs`), and a map is listed again pair by pair (`toPairs`).  The order of the keys is not
  kept, the values of each key are: `valuesOf` reads them off a list of pairs, and both directions
  are stated with it.
-/
import Mathlib.Algebra.Order.BigOperators.Group.List
import Mathlib.Algebra.Order.Ring.Nat
import Mathlib.Data.List.Basic
import Std.Data.ExtTreeMap.Lemmas

namespace Multimap

variable {κ α : Type*} [Ord κ] [Std.TransOrd κ] [Std.LawfulEqOrd κ] [DecidableEq κ]

/-- `map.entry(key).or_default().push(value)`. -/
def push (map : Std.ExtTreeMap κ (List α) compare) (pair : κ × α) :
    Std.ExtTreeMap κ (List α) compare :=
  map.insert pair.1 (map[pair.1]?.getD [] ++ [pair.2])

/-- The values under each key, in the order of the list. -/
def ofPairs (pairs : List (κ × α)) : Std.ExtTreeMap κ (List α) compare := pairs.foldl push ∅

/-- Every value with its key. -/
def toPairs (map : Std.ExtTreeMap κ (List α) compare) : List (κ × α) :=
  map.toList.flatMap fun (key, values) => values.map fun value => (key, value)

/-- The values that come with a key. -/
def valuesOf (key : κ) (pairs : List (κ × α)) : List α :=
  (pairs.filter fun pair => pair.1 = key).map (·.2)

/-! ## The values of a list of pairs -/

section Values

variable {key : κ} {pair : κ × α} {pairs more : List (κ × α)}

omit [Ord κ] [Std.TransOrd κ] [Std.LawfulEqOrd κ]

@[simp] theorem valuesOf_nil : valuesOf key ([] : List (κ × α)) = [] := rfl

theorem valuesOf_cons : valuesOf key (pair :: pairs) =
    if pair.1 = key then pair.2 :: valuesOf key pairs else valuesOf key pairs := by
  by_cases h : pair.1 = key <;> simp [valuesOf, h]

@[simp] theorem valuesOf_append :
    valuesOf key (pairs ++ more) = valuesOf key pairs ++ valuesOf key more := by
  simp [valuesOf]

theorem valuesOf_eq_nil : valuesOf key pairs = [] ↔ ∀ pair ∈ pairs, pair.1 ≠ key := by
  simp [valuesOf]

/-- A row of the map, value by value. -/
theorem valuesOf_map_key (values : List α) :
    valuesOf key (values.map fun value => (key, value)) = values := by
  induction values with
  | nil => rfl
  | cons value values ih => rw [List.map_cons, valuesOf_cons, if_pos rfl, ih]

/-- A filter on the keys keeps all the values of a key, or none. -/
theorem valuesOf_filter (key : κ) (pairs : List (κ × α)) (p : κ → Bool) :
    valuesOf key (pairs.filter fun pair => p pair.1) = if p key then valuesOf key pairs else [] := by
  induction pairs with
  | nil => simp
  | cons pair pairs ih =>
    by_cases hkey : pair.1 = key
    · cases hp : p key <;> simp [hkey, hp, valuesOf_cons, ih]
    · cases hp : p pair.1 <;> simp [hkey, hp, valuesOf_cons, ih]

end Values

/-! ## Into a map and out of it -/

section Map

variable {key : κ} (pairs : List (κ × α)) (map : Std.ExtTreeMap κ (List α) compare)

omit [DecidableEq κ] in
theorem getElem?_push (pair : κ × α) : (push map pair)[key]? =
    if compare pair.1 key = .eq then some (map[key]?.getD [] ++ [pair.2]) else map[key]? := by
  rw [push, Std.ExtTreeMap.getElem?_insert]
  split
  · rename_i h
    rw [Std.LawfulEqOrd.eq_of_compare h]
  · rfl

/-- What pushing some pairs adds to a key. -/
theorem getElem?_foldl_push : (pairs.foldl push map)[key]? =
    if valuesOf key pairs = [] then map[key]?
    else some (map[key]?.getD [] ++ valuesOf key pairs) := by
  induction pairs generalizing map with
  | nil => simp
  | cons pair pairs ih =>
    rw [List.foldl_cons, ih, getElem?_push, valuesOf_cons]
    by_cases hkey : pair.1 = key
    · subst hkey
      rw [if_pos (Std.ReflCmp.compare_self), if_pos rfl]
      by_cases hnil : valuesOf pair.1 pairs = [] <;> simp [hnil]
    · rw [if_neg (fun h => hkey (Std.LawfulEqOrd.eq_of_compare h)), if_neg hkey]

/-- A key of the map is one that some pair has. -/
theorem getElem?_ofPairs : (ofPairs pairs)[key]? =
    if valuesOf key pairs = [] then none else some (valuesOf key pairs) := by
  rw [ofPairs, getElem?_foldl_push, Std.ExtTreeMap.getElem?_empty]
  rfl

/-- Listing a map keeps the values of each key. -/
theorem valuesOf_toPairs : valuesOf key (toPairs map) = map[key]?.getD [] := by
  have hmem : ∀ k vs, (k, vs) ∈ map.toList ↔ map[k]? = some vs :=
    fun k vs => Std.ExtTreeMap.mem_toList_iff_getElem?_eq_some
  -- the rows of other keys hold nothing under this one
  have hother : ∀ rows : List (κ × List α), (∀ row ∈ rows, row.1 ≠ key) →
      valuesOf key (rows.flatMap fun (k, vs) => vs.map fun v => (k, v)) = [] := by
    intro rows hrows
    rw [valuesOf_eq_nil]
    intro pair hpair
    obtain ⟨row, hrow, hpair⟩ := List.mem_flatMap.mp hpair
    obtain ⟨v, -, rfl⟩ := List.mem_map.mp hpair
    exact hrows row hrow
  unfold toPairs
  cases hkey : map[key]? with
  | none =>
    refine hother _ fun row hrow heq => ?_
    have hfound := (hmem row.1 row.2).mp hrow
    rw [heq, hkey] at hfound
    nomatch hfound
  | some values =>
    obtain ⟨pre, post, hsplit⟩ := List.append_of_mem ((hmem key values).mpr hkey)
    have hdistinct := map.distinct_keys_toList
    rw [hsplit] at hdistinct ⊢
    obtain ⟨-, htail, hcross⟩ := List.pairwise_append.mp hdistinct
    have hpre : ∀ row ∈ pre, row.1 ≠ key := fun row hrow heq =>
      hcross row hrow (key, values) List.mem_cons_self (by rw [heq]; exact Std.ReflCmp.compare_self)
    have hpost : ∀ row ∈ post, row.1 ≠ key := fun row hrow heq =>
      (List.pairwise_cons.mp htail).1 row hrow (by rw [heq]; exact Std.ReflCmp.compare_self)
    rw [List.flatMap_append, List.flatMap_cons, valuesOf_append, valuesOf_append, hother pre hpre,
      hother post hpost, valuesOf_map_key, List.nil_append, List.append_nil]
    rfl

end Map

/-! ## Lists of pairs that make the same map -/

section Same

variable {κ α : Type*} [DecidableEq κ] {key : κ} {pairs more : List (κ × α)}

theorem valuesOf_perm (h : pairs.Perm more) : (valuesOf key pairs).Perm (valuesOf key more) :=
  (h.filter _).map _

/-- A pair is there as often as its value is among the values of its key. -/
theorem count_valuesOf [DecidableEq α] (pair : κ × α) (pairs : List (κ × α)) :
    (valuesOf pair.1 pairs).count pair.2 = pairs.count pair := by
  induction pairs with
  | nil => rfl
  | cons head pairs ih =>
    rw [valuesOf_cons, List.count_cons]
    by_cases hkey : head.1 = pair.1
    · rw [if_pos hkey, List.count_cons, ih]
      by_cases hvalue : head.2 = pair.2
      · rw [if_pos (beq_iff_eq.mpr hvalue), if_pos (beq_iff_eq.mpr (Prod.ext hkey hvalue))]
      · rw [if_neg (fun h => hvalue (beq_iff_eq.mp h)),
          if_neg (fun h => hvalue (congrArg Prod.snd (beq_iff_eq.mp h)))]
    · rw [if_neg hkey, ih, if_neg (fun h => hkey (congrArg Prod.fst (beq_iff_eq.mp h))), Nat.add_zero]

/-- The pairs are the same, up to their order, where the values under each key are. -/
theorem perm_of_valuesOf [DecidableEq α] (h : ∀ key, valuesOf key pairs = valuesOf key more) :
    pairs.Perm more := by
  rw [List.perm_iff_count]
  intro pair
  rw [← count_valuesOf, ← count_valuesOf, h]

theorem ofPairs_eq_iff [Ord κ] [Std.TransOrd κ] [Std.LawfulEqOrd κ] :
    ofPairs pairs = ofPairs more ↔ ∀ key, valuesOf key pairs = valuesOf key more := by
  constructor
  · intro h key
    have hkey := congrArg (fun map => map[key]?.getD []) h
    simp only [getElem?_ofPairs] at hkey
    split at hkey <;> split at hkey <;> simp_all
  · intro h
    apply Std.ExtTreeMap.ext_getElem?
    intro key
    rw [getElem?_ofPairs, getElem?_ofPairs, h]

/-- A collected list has the values of each key, when it is listed again. -/
theorem valuesOf_toPairs_ofPairs [Ord κ] [Std.TransOrd κ] [Std.LawfulEqOrd κ] (key : κ)
    (pairs : List (κ × α)) : valuesOf key (toPairs (ofPairs pairs)) = valuesOf key pairs := by
  rw [valuesOf_toPairs, getElem?_ofPairs]
  split
  · rename_i hnil
    exact hnil.symm
  · rfl

/-- It is the same list, up to its order. -/
theorem toPairs_ofPairs_perm [Ord κ] [Std.TransOrd κ] [Std.LawfulEqOrd κ] [DecidableEq α]
    (pairs : List (κ × α)) : (toPairs (ofPairs pairs)).Perm pairs :=
  perm_of_valuesOf fun key => valuesOf_toPairs_ofPairs key pairs

/-- Sizes that are nowhere smaller and have the same sum are the same. -/
theorem eq_of_sum_eq {β : Type*} {size size' : β → Nat} {l : List β} (hle : ∀ b, size b ≤ size' b)
    (hsum : (l.map size').sum = (l.map size).sum) : ∀ b ∈ l, size' b = size b := by
  induction l with
  | nil => intro b hb; cases hb
  | cons head l ih =>
    rw [List.map_cons, List.map_cons, List.sum_cons, List.sum_cons] at hsum
    have hhead := hle head
    have hrest : (l.map size).sum ≤ (l.map size').sum := List.sum_le_sum fun b _ => hle b
    intro b hb
    rcases List.mem_cons.mp hb with rfl | hb
    · omega
    · exact ih (by omega) b hb

theorem sum_map_of_map_perm {β : Type*} {f : β → β} (size : β → Nat) {l : List β}
    (h : (l.map f).Perm l) : (l.map fun b => size (f b)).sum = (l.map size).sum := by
  have hmap := (h.map size).sum_eq
  rw [List.map_map] at hmap
  exact hmap

/-- What makes no element smaller and gives the same elements back keeps every size. -/
theorem size_eq_of_map_perm {β : Type*} {f : β → β} (size : β → Nat) {l : List β}
    (hle : ∀ b, size b ≤ size (f b)) (h : (l.map f).Perm l) : ∀ b ∈ l, size (f b) = size b :=
  eq_of_sum_eq hle (sum_map_of_map_perm size h)

/-- Nor does what makes no element larger. -/
theorem size_eq_of_map_perm' {β : Type*} {f : β → β} (size : β → Nat) {l : List β}
    (hle : ∀ b, size (f b) ≤ size b) (h : (l.map f).Perm l) : ∀ b ∈ l, size (f b) = size b :=
  fun b hb => (eq_of_sum_eq hle (sum_map_of_map_perm size h).symm b hb).symm

end Same

end Multimap
