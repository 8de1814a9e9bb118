/-
  LISTS OF ROWS WITH A KEY, as a library.

  A list whose rows carry a key is used as a table: a lookup reads the FIRST row with a key.  The
  list may hold a key twice; nothing here assumes that it does not.  `replaceFirst` overwrites the
  first row with a key and fails when there is none, `filter` drops every row with a key.  Each
  operation comes with the lookup after it, and `replaceFirst_eq_some` says where in the list the
  row was replaced.
-/
import Mathlib.Data.List.Basic
import Mathlib.Data.List.Nodup
import Mathlib.Data.List.Perm.Basic

namespace Keyed

variable {α κ : Type*} [DecidableEq κ] (key : α → κ)

/-- The first row with key `k`. -/
def lookup (k : κ) (rows : List α) : Option α := rows.find? fun x => key x = k

/-- The last row with key `k`: what is left of it in a map filled by inserts. -/
def lookupLast (k : κ) (rows : List α) : Option α := lookup key k rows.reverse

/-- Overwrites the first row with key `k` by `x`. -/
def replaceFirst (k : κ) (x : α) : List α → Option (List α)
  | [] => none
  | y :: ys => if key y = k then some (x :: ys) else (replaceFirst k x ys).map (y :: ·)

variable {key}

theorem lookup_eq_none {k : κ} {rows : List α} :
    lookup key k rows = none ↔ ∀ x ∈ rows, key x ≠ k := by
  simp [lookup]

theorem key_of_lookup {k : κ} {x : α} {rows : List α} (h : lookup key k rows = some x) :
    x ∈ rows ∧ key x = k := by
  have hkey := List.find?_some h
  exact ⟨List.mem_of_find?_eq_some h, of_decide_eq_true hkey⟩

theorem exists_lookup {x : α} {rows : List α} (hx : x ∈ rows) :
    ∃ y, lookup key (key x) rows = some y := by
  cases h : lookup key (key x) rows with
  | some y => exact ⟨y, rfl⟩
  | none => exact absurd rfl (lookup_eq_none.mp h x hx)

theorem lookup_append (k : κ) (rows rows' : List α) :
    lookup key k (rows ++ rows') = (lookup key k rows).or (lookup key k rows') := by
  simp [lookup]

theorem lookup_cons (k : κ) (x : α) (rows : List α) :
    lookup key k (x :: rows) = if key x = k then some x else lookup key k rows := by
  by_cases h : key x = k
  · simp [lookup, h]
  · simp [lookup, h]

/-- A row appended under a key that was not there is found under it. -/
theorem lookup_append_singleton {x : α} {rows : List α} (hnew : lookup key (key x) rows = none)
    (k : κ) : lookup key k (rows ++ [x]) = if k = key x then some x else lookup key k rows := by
  rw [lookup_append, lookup_cons]
  by_cases hk : k = key x
  · subst hk
    rw [hnew, if_pos rfl, if_pos rfl]
    rfl
  · rw [if_neg (Ne.symm hk), if_neg hk]
    exact Option.or_none

/-- Where the row was replaced: the first one with the key. -/
theorem replaceFirst_eq_some {k : κ} {x : α} :
    ∀ {rows rows' : List α}, replaceFirst key k x rows = some rows' ↔
      ∃ pre y post, rows = pre ++ y :: post ∧ key y = k ∧ (∀ z ∈ pre, key z ≠ k) ∧
        rows' = pre ++ x :: post := by
  intro rows
  induction rows with
  | nil => intro rows'; simp [replaceFirst]
  | cons y ys ih =>
    intro rows'
    by_cases hy : key y = k
    · simp only [replaceFirst, if_pos hy, Option.some.injEq]
      constructor
      · rintro rfl
        exact ⟨[], y, ys, rfl, hy, by simp, rfl⟩
      · rintro ⟨pre, z, post, hrows, -, hpre, rfl⟩
        cases pre with
        | nil =>
          obtain ⟨-, rfl⟩ := List.cons.inj hrows
          rfl
        | cons w pre =>
          obtain ⟨rfl, -⟩ := List.cons.inj hrows
          exact absurd hy (hpre _ List.mem_cons_self)
    · simp only [replaceFirst, if_neg hy, Option.map_eq_some_iff]
      constructor
      · rintro ⟨tail, htail, rfl⟩
        obtain ⟨pre, z, post, rfl, hz, hpre, rfl⟩ := ih.mp htail
        refine ⟨y :: pre, z, post, rfl, hz, ?_, rfl⟩
        intro w hw
        rcases List.mem_cons.mp hw with rfl | hw
        · exact hy
        · exact hpre w hw
      · rintro ⟨pre, z, post, hrows, hz, hpre, rfl⟩
        cases pre with
        | nil =>
          obtain ⟨rfl, -⟩ := List.cons.inj hrows
          exact absurd hz hy
        | cons w pre =>
          obtain ⟨rfl, rfl⟩ := List.cons.inj hrows
          refine ⟨pre ++ x :: post, ih.mpr ⟨pre, z, post, rfl, hz, ?_, rfl⟩, rfl⟩
          exact fun v hv => hpre v (List.mem_cons_of_mem _ hv)

theorem replaceFirst_eq_none {k : κ} {x : α} :
    ∀ {rows : List α}, replaceFirst key k x rows = none ↔ lookup key k rows = none := by
  intro rows
  induction rows with
  | nil => simp [replaceFirst, lookup]
  | cons y ys ih =>
    by_cases hy : key y = k
    · simp [replaceFirst, lookup_cons, hy]
    · simp [replaceFirst, lookup_cons, hy, ih]

/-- After a replacement the new row is found under its key, and every other lookup is unchanged. -/
theorem lookup_replaceFirst {x : α} {rows rows' : List α}
    (h : replaceFirst key (key x) x rows = some rows') (k : κ) :
    lookup key k rows' = if k = key x then some x else lookup key k rows := by
  obtain ⟨pre, y, post, rfl, hy, hpre, rfl⟩ := replaceFirst_eq_some.mp h
  rw [lookup_append, lookup_append, lookup_cons, lookup_cons, hy]
  by_cases hk : k = key x
  · subst hk
    rw [lookup_eq_none.mpr hpre, if_pos rfl, if_pos rfl]
    rfl
  · rw [if_neg (Ne.symm hk), if_neg (Ne.symm hk), if_neg hk]

/-- Dropping the rows with a key makes its lookup fail, and leaves every other one. -/
theorem lookup_filter_ne (k k' : κ) (rows : List α) :
    lookup key k' (rows.filter fun x => key x ≠ k) =
      if k' = k then none else lookup key k' rows := by
  induction rows with
  | nil => simp [lookup]
  | cons y ys ih =>
    by_cases hy : key y = k
    · rw [List.filter_cons_of_neg (by simpa using hy), ih, lookup_cons]
      by_cases hk : k' = k
      · rw [if_pos hk, if_pos hk]
      · rw [if_neg hk, if_neg hk, if_neg (fun h => hk (h.symm.trans hy))]
    · rw [List.filter_cons_of_pos (by simpa using hy), lookup_cons, lookup_cons, ih]
      by_cases hk : k' = k
      · rw [if_pos hk, if_pos hk, if_neg (fun h => hy (h.trans hk))]
      · rw [if_neg hk, if_neg hk]

/-! ## The last row with a key -/

theorem lookupLast_append (k : κ) (rows rows' : List α) :
    lookupLast key k (rows ++ rows') = (lookupLast key k rows').or (lookupLast key k rows) := by
  rw [lookupLast, List.reverse_append, lookup_append]
  rfl

theorem lookupLast_cons (k : κ) (x : α) (rows : List α) :
    lookupLast key k (x :: rows) = (lookupLast key k rows).or (if key x = k then some x else none) := by
  rw [← List.singleton_append, lookupLast_append]
  congr 1
  exact lookup_cons k x []

theorem lookupLast_concat (k : κ) (x : α) (rows : List α) :
    lookupLast key k (rows ++ [x]) = if key x = k then some x else lookupLast key k rows := by
  rw [lookupLast, List.reverse_append, List.reverse_singleton, List.singleton_append, lookup_cons]
  rfl

theorem lookupLast_map {β : Type*} {key : α → κ} (f : β → α) (k : κ) (rows : List β) :
    lookupLast key k (rows.map f) = (lookupLast (fun y => key (f y)) k rows).map f := by
  rw [lookupLast, lookup, ← List.map_reverse, List.find?_map]
  rfl

theorem key_of_lookupLast {k : κ} {x : α} {rows : List α}
    (h : lookupLast key k rows = some x) : x ∈ rows ∧ key x = k := by
  obtain ⟨hmem, hkey⟩ := key_of_lookup h
  exact ⟨List.mem_reverse.mp hmem, hkey⟩

theorem lookupLast_eq_none {k : κ} {rows : List α} :
    lookupLast key k rows = none ↔ ∀ x ∈ rows, key x ≠ k := by
  simp [lookupLast, lookup]

/-- Overwriting the first of several rows leaves the last one as it was; the only one is the last
    one. -/
theorem lookupLast_replaceFirst {x : α} {rows rows' : List α}
    (h : replaceFirst key (key x) x rows = some rows') (k : κ) :
    lookupLast key k rows' =
      if k = key x ∧ rows.countP (fun y => key y = key x) ≤ 1 then some x
      else lookupLast key k rows := by
  obtain ⟨pre, y, post, rfl, hy, hpre, rfl⟩ := replaceFirst_eq_some.mp h
  have hcount : (pre ++ y :: post).countP (fun z => key z = key x) ≤ 1 ↔
      lookupLast key (key x) post = none := by
    have hpre0 : pre.countP (fun z => key z = key x) = 0 := by
      rw [List.countP_eq_zero]
      simpa using hpre
    rw [List.countP_append, List.countP_cons, hpre0, lookupLast_eq_none]
    simp [hy, List.countP_eq_zero]
  simp only [hcount, lookupLast_append, lookupLast_cons, hy]
  by_cases hk : k = key x
  · subst hk
    cases hpost : lookupLast key (key x) post with
    | none => simp
    | some z => simp
  · rw [if_neg (Ne.symm hk), if_neg (Ne.symm hk), if_neg (fun h => hk h.1)]

/-- Where no key comes twice, the last row with a key is the only one. -/
theorem lookupLast_eq_some_iff {rows : List α} (hnodup : (rows.map key).Nodup) {k : κ} {x : α} :
    lookupLast key k rows = some x ↔ x ∈ rows ∧ key x = k := by
  constructor
  · exact key_of_lookupLast
  · rintro ⟨hx, hkey⟩
    cases hlast : lookupLast key k rows with
    | none => exact absurd hkey (lookupLast_eq_none.mp hlast x hx)
    | some y =>
      obtain ⟨hy, hykey⟩ := key_of_lookupLast hlast
      rw [List.inj_on_of_nodup_map hnodup hy hx (hykey.trans hkey.symm)]

/-! ## One row for each key -/

/-- `rows'` are the rows of `rows` that are the last with their key, in any order. -/
structure KeepsLast (key : α → κ) (rows rows' : List α) : Prop where
  mem : ∀ x, x ∈ rows' ↔ lookupLast key (key x) rows = some x

theorem KeepsLast.lookupLast {rows rows' : List α} (h : KeepsLast key rows rows') (k : κ) :
    lookupLast key k rows' = Keyed.lookupLast key k rows := by
  cases hlast : Keyed.lookupLast key k rows' with
  | some x =>
    obtain ⟨hx, rfl⟩ := key_of_lookupLast hlast
    exact ((h.mem x).mp hx).symm
  | none =>
    cases hlast' : Keyed.lookupLast key k rows with
    | none => rfl
    | some x =>
      obtain ⟨-, rfl⟩ := key_of_lookupLast hlast'
      exact absurd rfl (lookupLast_eq_none.mp hlast x ((h.mem x).mpr hlast'))

/-- Nothing is lost where no key comes twice. -/
theorem KeepsLast.perm {rows rows' : List α} (h : KeepsLast key rows rows')
    (hnodup : (rows.map key).Nodup) (hnodup' : rows'.Nodup) : rows'.Perm rows := by
  refine (List.perm_ext_iff_of_nodup hnodup' (List.Nodup.of_map key hnodup)).mpr fun x => ?_
  rw [h.mem x, lookupLast_eq_some_iff hnodup]
  simp

end Keyed
