/-
  A BUCKET THAT REFILLS, over an ordered field.

  1. `take` refills the bucket for the time that passed, up to its capacity, and takes one if there is one.

  2. **The level** stays between nothing and the capacity (`take_within`).

  3. **The potential**: what was taken since a start, and what is left, come to no more than a full bucket
     and the refill since then (`Spent`, `spent_take`).  So do the takes alone (`Spent.le`).
-/
import Mathlib

namespace Refill

/-- What a bucket holds, and since when. -/
structure Level (K : Type*) where
  tokens : K
  last : K

variable {K : Type*} [Field K] [LinearOrder K] [IsStrictOrderedRing K]

section Take

variable (rate capacity : K) (level : Level K) (now : K)

/-- What the bucket holds at `now`. -/
def refilled : K := min (level.tokens + (now - level.last) * rate) capacity

/-- Takes one at `now`, if there is one. -/
def take : Bool × Level K :=
  if 1 ≤ refilled rate capacity level now then (true, ⟨refilled rate capacity level now - 1, now⟩)
  else (false, ⟨refilled rate capacity level now, now⟩)

/-- How many a take takes. -/
def taken : ℕ := if (take rate capacity level now).1 then 1 else 0

end Take

variable {rate capacity : K} {level : Level K} {now : K}

/-- Between nothing and the capacity. -/
def Within (capacity : K) (level : Level K) : Prop := 0 ≤ level.tokens ∧ level.tokens ≤ capacity

omit [IsStrictOrderedRing K] in
theorem take_last : (take rate capacity level now).2.last = now := by
  unfold take
  split
  · rfl
  · rfl

omit [IsStrictOrderedRing K] in
/-- What is left, and what was taken, is what there was. -/
theorem tokens_add_taken (rate capacity : K) (level : Level K) (now : K) :
    (take rate capacity level now).2.tokens + taken rate capacity level now =
      refilled rate capacity level now := by
  unfold taken take
  split
  · rw [if_pos rfl]
    push_cast
    ring
  · rw [if_neg Bool.false_ne_true]
    push_cast
    ring

theorem refilled_nonneg (hrate : 0 ≤ rate) (hlevel : Within capacity level) (htime : level.last ≤ now) :
    0 ≤ refilled rate capacity level now := by
  have hmore : 0 ≤ (now - level.last) * rate := mul_nonneg (sub_nonneg.mpr htime) hrate
  have hcapacity : 0 ≤ capacity := hlevel.1.trans hlevel.2
  exact le_min (add_nonneg hlevel.1 hmore) hcapacity

/-- **The level.** -/
theorem take_within (hrate : 0 ≤ rate) (hlevel : Within capacity level) (htime : level.last ≤ now) :
    Within capacity (take rate capacity level now).2 := by
  have hnonneg := refilled_nonneg hrate hlevel htime
  have hle : refilled rate capacity level now ≤ capacity := min_le_right _ _
  unfold take
  split
  · rename_i hone
    exact ⟨sub_nonneg.mpr hone, (sub_le_self _ zero_le_one).trans hle⟩
  · exact ⟨hnonneg, hle⟩

/-- `n` were taken since `start`: none of them before the bucket was touched, and no more than a full bucket
    and the refill leave room for. -/
def Spent (rate capacity start : K) (level : Level K) (n : ℕ) : Prop :=
  (level.last < start → n = 0) ∧
    (start ≤ level.last → n + level.tokens ≤ capacity + rate * (level.last - start))

/-- A bucket that is full, and nothing taken. -/
theorem spent_full (hrate : 0 ≤ rate) (start now : K) : Spent rate capacity start ⟨capacity, now⟩ 0 := by
  refine ⟨fun _ => rfl, fun hstart => ?_⟩
  have hmore : 0 ≤ rate * (now - start) := mul_nonneg hrate (sub_nonneg.mpr hstart)
  push_cast
  linarith

/-- **The potential.**  A take is counted from `start` on. -/
theorem spent_take {start : K} {n : ℕ} (hrate : 0 ≤ rate) (htime : level.last ≤ now)
    (h : Spent rate capacity start level n) :
    Spent rate capacity start (take rate capacity level now).2
      (if start ≤ now then n + taken rate capacity level now else n) := by
  obtain ⟨hbefore, hsince⟩ := h
  unfold Spent
  rw [take_last]
  refine ⟨fun hlt => ?_, fun hstart => ?_⟩
  · rw [if_neg (not_le.mpr hlt)]
    exact hbefore (htime.trans_lt hlt)
  · rw [if_pos hstart]
    have hleft := tokens_add_taken rate capacity level now
    push_cast
    rcases lt_or_ge level.last start with hlt | hge
    · -- nothing was taken yet, and the bucket is no more than full
      have hfull : refilled rate capacity level now ≤ capacity := min_le_right _ _
      have hmore : 0 ≤ rate * (now - start) := mul_nonneg hrate (sub_nonneg.mpr hstart)
      rw [hbefore hlt]
      push_cast
      linarith
    · -- the refill is that of the time since the last one
      have hrefill : refilled rate capacity level now ≤ level.tokens + (now - level.last) * rate :=
        min_le_left _ _
      have hbound := hsince hge
      have hsplit : rate * (now - start) = rate * (level.last - start) + (now - level.last) * rate := by
        ring
      rw [hsplit]
      linarith

/-- No more than a full bucket and the refill were taken by `stop`. -/
theorem Spent.le {start stop : K} {n : ℕ} (h : Spent rate capacity start level n) (hrate : 0 ≤ rate)
    (hlevel : Within capacity level) (hspan : start ≤ stop) (hstop : level.last ≤ stop) :
    (n : K) ≤ capacity + rate * (stop - start) := by
  have hmore : 0 ≤ rate * (stop - start) := mul_nonneg hrate (sub_nonneg.mpr hspan)
  rcases lt_or_ge level.last start with hlt | hge
  · rw [h.1 hlt]
    push_cast
    linarith [hlevel.1, hlevel.2]
  · have hbound := h.2 hge
    have hgrow : rate * (level.last - start) ≤ rate * (stop - start) :=
      mul_le_mul_of_nonneg_left (by linarith) hrate
    linarith [hlevel.1]

end Refill
