/-
  THE LISTS WITH A COMMON PREFIX FORM AN INTERVAL, as a library.

  In the lexicographic order of lists, the lists that begin with `p` are the ones from `p` up to
  the first list that is above all of them.  That bound is `p` with its last element that is not
  the greatest one (`Greatest`) replaced by its successor (`Covers`) and the rest cut off; when
  every element of `p` is the greatest, there is no bound (`isLE_iff_of_greatest`).

  `compare_append` says that a common prefix does not count when two lists are compared,
  `compare_eq_lt_iff` and `isLE_compare_iff` that the order is the one of `<` and `≤`.
-/
import Mathlib.Data.List.Basic
import Mathlib.Order.Compare

namespace PrefixRange

variable {α : Type*} [Ord α] [Std.LawfulEqOrd α]

/-- Nothing but `a` lies in the half-open interval from `a` to `b`. -/
def Covers (a b : α) : Prop := ∀ x, (compare a x).isLE ∧ compare x b = .lt ↔ x = a

/-- Nothing but `t` is above `t`. -/
def Greatest (t : α) : Prop := ∀ x, (compare t x).isLE ↔ x = t

theorem compare_append (p x y : List α) : compare (p ++ x) (p ++ y) = compare x y := by
  induction p with
  | nil => rfl
  | cons a p ih =>
    rw [List.cons_append, List.cons_append, List.compare_cons_cons, Std.ReflOrd.compare_self, ih]
    rfl

/-- The lists are compared by the lexicographic order. -/
theorem compare_eq_lt_iff [LT α] [LE α] [Std.LawfulOrderOrd α] [Std.LawfulOrderLT α]
    {x y : List α} : compare x y = .lt ↔ x < y := by
  induction x generalizing y with
  | nil => cases y <;> simp
  | cons a x ih =>
    cases y with
    | nil => simp
    | cons b y =>
      rw [List.compare_cons_cons, List.cons_lt_cons_iff, ← ih, ← Std.compare_eq_lt,
        ← Std.compare_eq_iff_eq (a := a)]
      cases compare a b <;> simp

theorem isLE_compare_iff [LT α] [LE α] [Std.LawfulOrderOrd α] [Std.LawfulOrderLT α]
    {x y : List α} : (compare x y).isLE ↔ x ≤ y := by
  rw [← List.not_lt, ← compare_eq_lt_iff, @Std.OrientedCmp.eq_swap _ compare _ y x]
  cases compare x y <;> simp

/-- The upper lists of a list of greatest elements are its extensions. -/
theorem isLE_iff_of_greatest {t : List α} (ht : ∀ a ∈ t, Greatest a) :
    ∀ {k : List α}, (compare t k).isLE ↔ t <+: k := by
  induction t with
  | nil =>
    intro k
    have hle : (compare ([] : List α) k).isLE := by cases k <;> rfl
    exact ⟨fun _ => List.nil_prefix, fun _ => hle⟩
  | cons a t ih =>
    intro k
    have ha : Greatest a := ht a List.mem_cons_self
    have ih' := @ih fun b hb => ht b (List.mem_cons_of_mem a hb)
    cases k with
    | nil => simp
    | cons x k =>
      rw [List.compare_cons_cons, List.cons_prefix_cons, ← ih']
      have hax := ha x
      constructor
      · intro h
        have hle : (compare a x).isLE := by
          cases hc : compare a x <;> simp_all
        obtain rfl := hax.mp hle
        rw [Std.ReflOrd.compare_self] at h
        exact ⟨rfl, h⟩
      · rintro ⟨rfl, h⟩
        rw [Std.ReflOrd.compare_self]
        exact h

variable [Std.TransOrd α]

/-- Everything between two lists with the prefix `p` has that prefix. -/
theorem between_append {p x y : List α} :
    ∀ {k : List α}, (compare (p ++ x) k).isLE ∧ compare k (p ++ y) = .lt ↔
      ∃ z, k = p ++ z ∧ (compare x z).isLE ∧ compare z y = .lt := by
  intro k
  constructor
  · induction p generalizing k with
    | nil => exact fun h => ⟨k, rfl, h⟩
    | cons a p ih =>
      rintro ⟨hle, hlt⟩
      cases k with
      | nil => simp at hle
      | cons b k =>
        rw [List.cons_append, List.compare_cons_cons] at hle hlt
        have hab : a = b := by
          cases hc : compare a b with
          | eq => exact Std.LawfulEqCmp.eq_of_compare hc
          | gt => rw [hc] at hle; nomatch hle
          | lt =>
            rw [Std.OrientedCmp.gt_of_lt hc] at hlt
            nomatch hlt
        subst hab
        rw [Std.ReflOrd.compare_self] at hle hlt
        obtain ⟨z, rfl, hz⟩ := ih ⟨hle, hlt⟩
        exact ⟨z, rfl, hz⟩
  · rintro ⟨z, rfl, hle, hlt⟩
    rw [compare_append, compare_append]
    exact ⟨hle, hlt⟩

/-- **The interval of a prefix**: `b` covers `a`, and `t` has only greatest elements. -/
theorem between_iff_isPrefix {p t : List α} {a b : α} (hab : Covers a b)
    (ht : ∀ x ∈ t, Greatest x) {k : List α} :
    (compare (p ++ a :: t) k).isLE ∧ compare k (p ++ [b]) = .lt ↔ p ++ a :: t <+: k := by
  have htail : ∀ z, (compare (a :: t) z).isLE ∧ compare z [b] = .lt ↔ a :: t <+: z := by
    intro z
    cases z with
    | nil => simp
    | cons x z =>
      have hlt : compare (x :: z) [b] = .lt ↔ compare x b = .lt := by
        rw [List.compare_cons_cons]
        cases hc : compare x b <;> cases z <;> simp
      have hcover := hab x
      rw [hlt, List.compare_cons_cons, List.cons_prefix_cons, ← isLE_iff_of_greatest ht]
      constructor
      · rintro ⟨hle, hxb⟩
        have hax : (compare a x).isLE := by
          cases hc : compare a x <;> simp_all
        obtain rfl := hcover.mp ⟨hax, hxb⟩
        rw [Std.ReflOrd.compare_self] at hle
        exact ⟨rfl, hle⟩
      · rintro ⟨rfl, hle⟩
        rw [Std.ReflOrd.compare_self]
        exact ⟨hle, (hcover.mpr rfl).2⟩
  rw [between_append]
  constructor
  · rintro ⟨z, rfl, hz⟩
    exact (List.prefix_append_right_inj p).mpr ((htail z).mp hz)
  · intro h
    obtain ⟨z, rfl⟩ := (List.prefix_append p _).trans h
    exact ⟨z, rfl, (htail z).mpr ((List.prefix_append_right_inj p).mp h)⟩

end PrefixRange
