/-
  COUNTING ALONG A CURSOR THAT WRAPS, as a library.

  A cursor of modulus `N` hands out `c % N`, `(c + 1) % N`, …  How many of the first `m` of these
  satisfy `p`?

  1. `count_wrap`: as many as a cursor without end would have passed, laps and all.
  2. `count_mod_eq`: below `x`, the residue `j` modulo `n` comes `x / n` times, and once more where
     `j < x % n`.
  3. `count_window`: a window as long as the period of `p` has what one period has.
  4. `even_iff`: counts that are a constant, up by `k` below `r`, up by one below `t` and down by
     one below `a`: when any two of them differ by at most one.
  5. `exact_iff`: slots of given widths, laid side by side: when as many values of the cursor as all
     widths together hit every slot as often as it is wide.
-/
import Mathlib.Data.Nat.Count
import Mathlib.Data.Nat.Periodic
import Mathlib.Data.Int.CardIntervalMod

namespace CyclicCount

section Count

variable (p : Nat → Prop) [DecidablePred p]

theorem count_congr {q : Nat → Prop} [DecidablePred q] {x : Nat} (h : ∀ v < x, p v ↔ q v) :
    Nat.count p x = Nat.count q x := by
  unfold Nat.count
  refine List.countP_congr fun v hv => ?_
  simp only [decide_eq_true_eq]
  exact h v (List.mem_range.mp hv)

/-- Whole laps, and a last one that may not be whole. -/
theorem count_mod {N : Nat} (hN : 0 < N) (x : Nat) :
    Nat.count (fun v => p (v % N)) x = x / N * Nat.count p N + Nat.count p (x % N) := by
  have hlap : ∀ t ≤ N, Nat.count (fun v => p (v % N)) t = Nat.count p t := by
    intro t ht
    refine count_congr _ fun v hv => ?_
    rw [Nat.mod_eq_of_lt (by omega)]
  have hlaps : ∀ q t, t ≤ N →
      Nat.count (fun v => p (v % N)) (N * q + t) = q * Nat.count p N + Nat.count p t := by
    intro q
    induction q with
    | zero =>
      intro t ht
      rw [Nat.mul_zero, Nat.zero_add, Nat.zero_mul, Nat.zero_add]
      exact hlap t ht
    | succ q ih =>
      intro t ht
      have hsplit : N * (q + 1) + t = N + (N * q + t) := by ring
      have hnext : Nat.count (fun v => p ((N + v) % N)) (N * q + t) =
          Nat.count (fun v => p (v % N)) (N * q + t) :=
        count_congr _ fun v _ => by rw [Nat.add_mod_left]
      rw [hsplit, Nat.count_add, hlap N (Nat.le_refl N), hnext, ih t ht]
      ring
  have hdiv := hlaps (x / N) (x % N) (Nat.mod_lt x hN).le
  rwa [Nat.div_add_mod] at hdiv

/-- **The cursor.**  What it passes in `m` steps from `c`, and what it passed before. -/
theorem count_wrap {N c : Nat} (hc : c < N) (m : Nat) :
    Nat.count (fun i => p ((c + i) % N)) m + Nat.count p c =
      (c + m) / N * Nat.count p N + Nat.count p ((c + m) % N) := by
  have hN : 0 < N := by omega
  have hbefore := count_mod p hN c
  rw [Nat.div_eq_of_lt hc, Nat.mod_eq_of_lt hc, Nat.zero_mul, Nat.zero_add] at hbefore
  rw [← count_mod p hN (c + m), Nat.count_add, hbefore, Nat.add_comm]

/-- A window as long as a period. -/
theorem count_window {W : Nat} (hp : Function.Periodic p W) (c : Nat) :
    Nat.count (fun i => p (c + i)) W = Nat.count p W := by
  have hlong := Nat.count_add p c W
  rw [Nat.add_comm c W, Nat.count_add p W c] at hlong
  have hshift : Nat.count (fun k => p (W + k)) c = Nat.count p c :=
    count_congr _ fun v _ => by rw [Nat.add_comm W v, hp v]
  omega

end Count

/-- How often a residue comes below `x`. -/
theorem count_mod_eq {n j : Nat} (hj : j < n) (x : Nat) :
    Nat.count (fun v => v % n = j) x = x / n + if j < x % n then 1 else 0 := by
  have hmod : Nat.count (fun v => v % n = j) x = Nat.count (fun v => v ≡ j [MOD n]) x := by
    refine count_congr _ fun v _ => ?_
    show v % n = j ↔ v % n = j % n
    rw [Nat.mod_eq_of_lt hj]
  rw [hmod, Nat.count_modEq_card x (by omega) j, Nat.mod_eq_of_lt hj]

/-! ## Even counts -/

/-- Any two of the first `n` counts differ by at most one. -/
def Even (n : Nat) (count : Nat → Nat) : Prop := ∀ i < n, ∀ j < n, count i ≤ count j + 1

/-- When counts of this shape are even. -/
def EvenSteps (k r t a : Nat) : Prop :=
  k = 0 ∨ r = 0 ∨ (k = 1 ∧ (t = 0 ∨ (min r t ≤ a ∧ a ≤ max r t))) ∨ (k = 2 ∧ t = 0 ∧ a = r)

instance (k r t a : Nat) : Decidable (EvenSteps k r t a) := by
  unfold EvenSteps
  infer_instance

variable {n k r t a : Nat} {count : Nat → Nat} (base lost : Nat)

theorem even_of_evenSteps
    (hcount : ∀ j < n, count j + lost + (if j < a then 1 else 0) =
      base + (if j < r then k else 0) + if j < t then 1 else 0)
    (h : EvenSteps k r t a) : Even n count := by
  intro i hi j hj
  have hcountI := hcount i hi
  have hcountJ := hcount j hj
  unfold EvenSteps at h
  split_ifs at hcountI hcountJ <;> omega

theorem evenSteps_of_even (hr : r < n) (ht : t < n) (ha : a < n)
    (hcount : ∀ j < n, count j + lost + (if j < a then 1 else 0) =
      base + (if j < r then k else 0) + if j < t then 1 else 0)
    (h : Even n count) : EvenSteps k r t a := by
  have hat : ∀ i < n, ∀ j < n,
      (if i < r then k else 0) + (if i < t then 1 else 0) + (if j < a then 1 else 0) ≤
        (if j < r then k else 0) + (if j < t then 1 else 0) + (if i < a then 1 else 0) + 1 := by
    intro i hi j hj
    have hle := h i hi j hj
    have hcountI := hcount i hi
    have hcountJ := hcount j hj
    omega
  -- the last count is the constant
  have hlast : ∀ i < n, (if i < r then k else 0) + (if i < t then 1 else 0) ≤
      (if i < a then 1 else 0) + 1 := by
    intro i hi
    have hle := hat i hi (n - 1) (by omega)
    rw [if_neg (show ¬ n - 1 < a by omega), if_neg (show ¬ n - 1 < r by omega),
      if_neg (show ¬ n - 1 < t by omega)] at hle
    omega
  unfold EvenSteps
  rcases Nat.eq_zero_or_pos k with hk | hk
  · exact Or.inl hk
  rcases Nat.eq_zero_or_pos r with hr0 | hr0
  · exact Or.inr (Or.inl hr0)
  right; right
  have hfirst := hlast 0 (by omega)
  rw [if_pos hr0] at hfirst
  rcases Nat.eq_zero_or_pos t with rfl | ht0
  · rw [if_neg (Nat.lt_irrefl 0)] at hfirst
    rcases Nat.lt_or_ge k 2 with hk1 | hk2
    · exact Or.inl ⟨by omega, Or.inl rfl⟩
    · right
      have ha0 : 0 < a := by
        rcases Nat.eq_zero_or_pos a with rfl | ha0
        · rw [if_neg (Nat.lt_irrefl 0)] at hfirst
          omega
        · exact ha0
      rw [if_pos ha0] at hfirst
      refine ⟨by omega, rfl, ?_⟩
      have hbelow := hlast (r - 1) (by omega)
      rw [if_pos (show r - 1 < r by omega)] at hbelow
      have habove := hat 0 (by omega) r hr
      rw [if_pos hr0, if_pos ha0, if_neg (Nat.lt_irrefl r)] at habove
      split_ifs at hbelow habove <;> omega
  · left
    rw [if_pos ht0] at hfirst
    have ha0 : 0 < a := by
      rcases Nat.eq_zero_or_pos a with rfl | ha0
      · rw [if_neg (Nat.lt_irrefl 0)] at hfirst
        omega
      · exact ha0
    rw [if_pos ha0] at hfirst
    refine ⟨by omega, Or.inr ⟨?_, ?_⟩⟩
    · have hbelow := hlast (min r t - 1) (by omega)
      rw [if_pos (show min r t - 1 < r by omega), if_pos (show min r t - 1 < t by omega)] at hbelow
      split_ifs at hbelow
      · omega
      · omega
    · have habove := hat 0 (by omega) (max r t) (by omega)
      rw [if_pos hr0, if_pos ht0, if_pos ha0, if_neg (show ¬ max r t < r by omega),
        if_neg (show ¬ max r t < t by omega)] at habove
      split_ifs at habove
      · omega
      · omega

theorem even_iff (hr : r < n) (ht : t < n) (ha : a < n)
    (hcount : ∀ j < n, count j + lost + (if j < a then 1 else 0) =
      base + (if j < r then k else 0) + if j < t then 1 else 0) :
    Even n count ↔ EvenSteps k r t a :=
  ⟨evenSteps_of_even base lost hr ht ha hcount, even_of_evenSteps base lost hcount⟩

/-- **The cursor, modulo `n`.**  When the residues of `m` values of the cursor come evenly. -/
theorem even_residues_iff {N c m : Nat} (hn : 0 < n) (hc : c < N) :
    Even n (fun j => Nat.count (fun i => (c + i) % N % n = j) m) ↔
      EvenSteps ((c + m) / N) (N % n) ((c + m) % N % n) (c % n) := by
  refine even_iff ((c + m) / N * (N / n) + (c + m) % N / n) (c / n)
    (Nat.mod_lt _ hn) (Nat.mod_lt _ hn) (Nat.mod_lt _ hn) fun j hj => ?_
  have hwrap := count_wrap (fun v => v % n = j) hc m
  rw [count_mod_eq hj, count_mod_eq hj, count_mod_eq hj] at hwrap
  rw [Nat.mul_add, mul_ite, Nat.mul_one, Nat.mul_zero] at hwrap
  omega

/-! ## Slots side by side -/

/-- The slot that `v` falls into. -/
def slotAt : List Nat → Nat → Nat
  | [], _ => 0
  | w :: widths, v => if v < w then 0 else slotAt widths (v - w) + 1

/-- Where the `k`-th slot begins. -/
def edge (widths : List Nat) (k : Nat) : Nat := (widths.take k).sum

theorem edge_succ {widths : List Nat} {k : Nat} (hk : k < widths.length) :
    edge widths (k + 1) = edge widths k + widths[k] := by
  unfold edge
  rw [List.take_add_one, List.getElem?_eq_getElem hk, Option.toList_some, List.sum_append,
    List.sum_singleton]

theorem edge_le (widths : List Nat) (k : Nat) : edge widths k ≤ widths.sum := by
  have hsum := congrArg List.sum (List.take_append_drop k widths)
  rw [List.sum_append] at hsum
  unfold edge
  omega

/-- The slots before the `k`-th one are what lies before its edge. -/
theorem slotAt_lt_iff {widths : List Nat} {v : Nat} (hv : v < widths.sum) (k : Nat) :
    slotAt widths v < k ↔ v < edge widths k := by
  induction widths generalizing v k with
  | nil => cases hv
  | cons w widths ih =>
    rw [List.sum_cons] at hv
    cases k with
    | zero => exact iff_of_false (Nat.not_lt_zero _) (Nat.not_lt_zero _)
    | succ k =>
      show (if v < w then 0 else slotAt widths (v - w) + 1) < k + 1 ↔ v < (w :: widths.take k).sum
      rw [List.sum_cons]
      by_cases hfirst : v < w
      · rw [if_pos hfirst]
        omega
      · rw [if_neg hfirst, Nat.add_lt_add_iff_right, ih (by omega) k]
        unfold edge
        omega

/-- How many numbers below `x` are below `y`. -/
theorem count_lt (x y : Nat) : Nat.count (fun v => v < y) x = min x y := by
  induction x with
  | zero => rw [Nat.count_zero, Nat.zero_min]
  | succ x ih =>
    rw [Nat.count_succ, ih]
    split_ifs <;> omega

/-- Where `W` values of the cursor from `c` on hit every slot as often as it is wide.  They may not
    reach the wrap, or the laps before the wrap are whole ones; or no inner edge lies strictly inside
    the `W` places that end where the cursor ends. -/
def ExactFrom (N : Nat) (widths : List Nat) (c : Nat) : Prop :=
  c + widths.sum ≤ N ∨ N % widths.sum = 0 ∨
    ∀ k < widths.length, 0 < edge widths k → edge widths k < widths.sum →
      edge widths k + N ≤ N % widths.sum + c ∨
        N % widths.sum + c + widths.sum ≤ edge widths k + N

instance (N : Nat) (widths : List Nat) (c : Nat) : Decidable (ExactFrom N widths c) := by
  unfold ExactFrom
  infer_instance

/-- How many of the `W` values fall before the edge `y`. -/
theorem before_edge_iff {N W c y : Nat} (hc : c < N) (hW : 0 < W) (hN : W ≤ N) (hy : y ≤ W) :
    Nat.count (fun i => (c + i) % N % W < y) W = y ↔
      c + W ≤ N ∨ N % W = 0 ∨ y = 0 ∨ y = W ∨ y + N ≤ N % W + c ∨ N % W + c + W ≤ y + N := by
  have hbelow : ∀ x, Nat.count (fun v => v % W < y) x = x / W * y + min (x % W) y := by
    intro x
    rw [count_mod (fun v => v < y) hW, count_lt, count_lt, Nat.min_eq_right hy]
  have hwrap := count_wrap (fun v => v % W < y) hc W
  rw [hbelow, hbelow, hbelow] at hwrap
  have hdivC := Nat.div_add_mod c W
  have hdivN := Nat.div_add_mod N W
  have hmodC := Nat.mod_lt c hW
  have hmodN := Nat.mod_lt N hW
  rcases Nat.lt_or_ge (c + W) N with hlt | hge
  · refine iff_of_true ?_ (Or.inl hlt.le)
    rw [Nat.div_eq_of_lt hlt, Nat.mod_eq_of_lt hlt, Nat.add_div_right c hW, Nat.add_mod_right,
      Nat.succ_mul] at hwrap
    omega
  · have hlap : (c + W) / N = 1 := Nat.div_eq_of_lt_le (by omega) (by omega)
    have hrest : (c + W) % N = c + W - N := by
      rw [Nat.mod_eq_sub_mod hge, Nat.mod_eq_of_lt (by omega)]
    have hshort : c + W - N < W := by omega
    rw [hlap, hrest, Nat.div_eq_of_lt hshort, Nat.mod_eq_of_lt hshort, Nat.one_mul, Nat.zero_mul,
      Nat.zero_add] at hwrap
    -- the window begins in the lap before the last one, or in the last one itself
    rcases Nat.lt_or_ge (N % W + (c + W - N)) W with hearly | hlate
    · obtain ⟨q, hq⟩ : ∃ q, N / W = q + 1 := Nat.exists_eq_add_one.mpr (Nat.div_pos hN hW)
      rw [hq, Nat.mul_succ] at hdivN
      obtain ⟨hquot, hmod⟩ : c / W = q ∧ c % W = N % W + (c + W - N) :=
        (Nat.div_mod_unique hW).mpr ⟨by omega, hearly⟩
      rw [hq, hquot, Nat.succ_mul, hmod] at hwrap
      omega
    · obtain ⟨hquot, hmod⟩ : c / W = N / W ∧ c % W = N % W + (c + W - N) - W :=
        (Nat.div_mod_unique hW).mpr ⟨by omega, by omega⟩
      rw [hquot, hmod] at hwrap
      omega

/-- Every slot is hit as often as it is wide iff every edge has as many values before it. -/
theorem count_slots_iff {widths : List Nat} {m : Nat} {slot : Nat → Nat} :
    (∀ k (hk : k < widths.length), Nat.count (fun i => slot i = k) m = widths[k]) ↔
      ∀ k ≤ widths.length, Nat.count (fun i => slot i < k) m = edge widths k := by
  have hnext : ∀ k, Nat.count (fun i => slot i < k + 1) m =
      Nat.count (fun i => slot i < k) m + Nat.count (fun i => slot i = k) m := by
    intro k
    induction m with
    | zero => rfl
    | succ m ih =>
      rw [Nat.count_succ, Nat.count_succ, Nat.count_succ, ih]
      split_ifs <;> omega
  constructor
  · intro h k
    induction k with
    | zero =>
      intro _
      have hnone : Nat.count (fun i => slot i < 0) m = 0 := by
        rw [count_congr (q := fun _ => False) _ fun i _ => iff_of_false (Nat.not_lt_zero _) id]
        exact Nat.count_false m
      exact hnone
    | succ k ih =>
      intro hk
      rw [hnext, ih (by omega), h k hk, edge_succ hk]
  · intro h k hk
    have hbefore := h k hk.le
    have hafter := h (k + 1) hk
    rw [hnext, edge_succ hk] at hafter
    omega

/-- **The slots.** -/
theorem exact_iff {N c : Nat} {widths : List Nat} (hc : c < N) (hW : 0 < widths.sum)
    (hN : widths.sum ≤ N) :
    (∀ k (hk : k < widths.length),
      Nat.count (fun i => slotAt widths ((c + i) % N % widths.sum) = k) widths.sum = widths[k]) ↔
      ExactFrom N widths c := by
  have hedge : ∀ k, Nat.count (fun i => slotAt widths ((c + i) % N % widths.sum) < k) widths.sum =
      Nat.count (fun i => (c + i) % N % widths.sum < edge widths k) widths.sum :=
    fun k => count_congr _ fun i _ => slotAt_lt_iff (Nat.mod_lt _ hW) k
  rw [count_slots_iff]
  constructor
  · intro h
    by_cases hshort : c + widths.sum ≤ N
    · exact Or.inl hshort
    by_cases hwhole : N % widths.sum = 0
    · exact Or.inr (Or.inl hwhole)
    refine Or.inr (Or.inr fun k hk hpos hlt => ?_)
    have hbefore := h k hk.le
    rw [hedge k, before_edge_iff hc hW hN (edge_le widths k)] at hbefore
    omega
  · intro h k hk
    rw [hedge k, before_edge_iff hc hW hN (edge_le widths k)]
    rcases h with hshort | hwhole | hinner
    · exact Or.inl hshort
    · exact Or.inr (Or.inl hwhole)
    · rcases Nat.eq_zero_or_pos (edge widths k) with hzero | hpos
      · exact Or.inr (Or.inr (Or.inl hzero))
      · have hle := edge_le widths k
        rcases Nat.lt_or_ge (edge widths k) widths.sum with hlt | hge
        · have hk' : k < widths.length := by
            refine lt_of_le_of_ne hk fun hlast => ?_
            subst hlast
            unfold edge at hlt
            rw [List.take_length] at hlt
            exact Nat.lt_irrefl _ hlt
          have hout := hinner k hk' hpos hlt
          omega
        · exact Or.inr (Or.inr (Or.inr (Or.inl (by omega))))

end CyclicCount
