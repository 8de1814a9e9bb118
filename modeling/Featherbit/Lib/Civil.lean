/-
  THE GREGORIAN CALENDAR, as a library: dates of any year, the days since 1970, and the closed forms of
  both directions.

  1. **Dates** (`Date.Valid`) — a month, and a day that month has.
  2. **Counting days** (`Date.toDays`) — a day, a month and a year further on is as many days further on
     as there are in it (`toDays_nextDay`, `toDays_nextMonth`, `toDays_nextYear`); so a later date has a
     larger count (`toDays_lt`), and a count is that of one date (`toDays_inj`).
  3. **The date of a day** (`fromDays`) — by eras of 400 years that begin in March.  It is a valid date
     with that count (`fromDays_valid`, `toDays_fromDays`), hence the only one (`eq_fromDays`).
-/
import Mathlib.Tactic.Common

namespace Civil

/-! ## Dates -/

/-- A year of 366 days. -/
def IsLeap (year : Int) : Prop := (year % 4 = 0 ∧ year % 100 ≠ 0) ∨ year % 400 = 0

instance (year : Int) : Decidable (IsLeap year) := inferInstanceAs (Decidable (_ ∨ _))

def yearLength (year : Int) : Int := if IsLeap year then 366 else 365

def monthLength (year month : Int) : Int :=
  if month = 2 then (if IsLeap year then 29 else 28)
  else if month = 4 ∨ month = 6 ∨ month = 9 ∨ month = 11 then 30
  else 31

theorem monthLength_le (year month : Int) : monthLength year month ≤ 31 := by
  unfold monthLength
  split
  · split <;> decide
  · split <;> decide

structure Date where
  year : Int
  month : Int
  day : Int
deriving DecidableEq, Repr

namespace Date

/-- A month of the year and a day of the month. -/
structure Valid (date : Date) : Prop where
  month_pos : 1 ≤ date.month
  month_le : date.month ≤ 12
  day_pos : 1 ≤ date.day
  day_le : date.day ≤ monthLength date.year date.month

/-- Earlier in the calendar. -/
def Before (a b : Date) : Prop :=
  a.year < b.year ∨ a.year = b.year ∧ (a.month < b.month ∨ a.month = b.month ∧ a.day < b.day)

instance (a b : Date) : Decidable (Before a b) := inferInstanceAs (Decidable (_ ∨ _))

theorem before_or_before_or_eq (a b : Date) : Before a b ∨ Before b a ∨ a = b := by
  obtain ⟨y, m, d⟩ := a
  obtain ⟨y', m', d'⟩ := b
  simp only [Before, Date.mk.injEq]
  omega

/-! ## Counting days -/

/-- The days before a year that begins in March. -/
def marchStart (year : Int) : Int := 365 * year + year / 4 - year / 100 + year / 400

/-- The days before a month, counted from March, in such a year. -/
def monthStart (shifted : Int) : Int := (153 * shifted + 2) / 5

/-- The days from the first of January 1970 to the date. -/
def toDays (date : Date) : Int :=
  marchStart (if date.month ≤ 2 then date.year - 1 else date.year) +
    monthStart (if 2 < date.month then date.month - 3 else date.month + 9) + date.day - 1 - 719468

example : toDays ⟨1970, 1, 1⟩ = 0 := by decide

theorem toDays_nextDay (year month day : Int) : toDays ⟨year, month, day + 1⟩ = toDays ⟨year, month, day⟩ + 1 := by
  unfold toDays
  dsimp only
  omega

theorem toDays_day (year month day : Int) :
    toDays ⟨year, month, day⟩ = toDays ⟨year, month, 1⟩ + (day - 1) := by
  unfold toDays
  dsimp only
  omega

/-- From February to March is as far as February is long. -/
theorem marchStart_succ (year : Int) : marchStart year = marchStart (year - 1) + yearLength year := by
  unfold marchStart yearLength
  by_cases hleap : IsLeap year
  · rw [if_pos hleap]
    unfold IsLeap at hleap
    omega
  · rw [if_neg hleap]
    unfold IsLeap at hleap
    omega

/-- The closed form of the months behind February, month by month. -/
theorem monthStart_next {month : Int} (hpos : 3 ≤ month) (hlt : month < 12) (year : Int) :
    monthStart (month + 1 - 3) = monthStart (month - 3) + monthLength year month := by
  have hmonth : month = 3 ∨ month = 4 ∨ month = 5 ∨ month = 6 ∨ month = 7 ∨ month = 8 ∨ month = 9 ∨
      month = 10 ∨ month = 11 := by omega
  rcases hmonth with rfl | rfl | rfl | rfl | rfl | rfl | rfl | rfl | rfl <;> rfl

theorem toDays_nextMonth {month : Int} (hpos : 1 ≤ month) (hlt : month < 12) (year : Int) :
    toDays ⟨year, month + 1, 1⟩ = toDays ⟨year, month, 1⟩ + monthLength year month := by
  have hmonth : month = 1 ∨ month = 2 ∨ 3 ≤ month := by omega
  rcases hmonth with rfl | rfl | hmonth
  · simp [toDays, monthStart, monthLength]
    omega
  · have hmarch := marchStart_succ year
    unfold yearLength at hmarch
    simp [toDays, monthStart, monthLength]
    split at hmarch <;> split <;> first | omega | contradiction
  · have hnext := monthStart_next hmonth hlt year
    unfold toDays
    dsimp only
    rw [if_neg (show ¬month + 1 ≤ 2 by omega), if_neg (show ¬month ≤ 2 by omega),
      if_pos (show 2 < month + 1 by omega), if_pos (show 2 < month by omega)]
    omega

theorem toDays_nextYear (year : Int) :
    toDays ⟨year + 1, 1, 1⟩ = toDays ⟨year, 1, 1⟩ + yearLength year := by
  have hmarch := marchStart_succ year
  simp [toDays]
  omega

theorem yearLength_pos (year : Int) : 0 < yearLength year := by
  unfold yearLength
  split <;> omega

theorem monthLength_pos (year month : Int) : 0 < monthLength year month := by
  unfold monthLength
  split
  · split <;> omega
  · split <;> omega

/-- The first of a later year comes later. -/
theorem toDays_year_le {year year' : Int} (h : year ≤ year') :
    toDays ⟨year, 1, 1⟩ ≤ toDays ⟨year', 1, 1⟩ := by
  obtain ⟨n, rfl⟩ := Int.le.dest h
  induction n with
  | zero => simp
  | succ n ih =>
    have hnext := toDays_nextYear (year + n)
    have hpos := yearLength_pos (year + n)
    have hle := ih (by omega)
    rw [show year + ((n + 1 : Nat) : Int) = year + n + 1 by omega]
    omega

/-- So does the first of a later month of the year. -/
theorem toDays_month_le {month month' : Int} (year : Int) (hpos : 1 ≤ month) (h : month ≤ month')
    (hle : month' ≤ 12) : toDays ⟨year, month, 1⟩ ≤ toDays ⟨year, month', 1⟩ := by
  obtain ⟨n, rfl⟩ := Int.le.dest h
  induction n with
  | zero => simp
  | succ n ih =>
    have hnext := toDays_nextMonth (show 1 ≤ month + n by omega) (by omega) year
    have hlength := monthLength_pos year (month + n)
    have hbefore := ih (by omega) (by omega)
    rw [show month + ((n + 1 : Nat) : Int) = month + n + 1 by omega]
    omega

section Valid

variable {a b : Date}

theorem Valid.month_start_le (ha : a.Valid) : toDays ⟨a.year, a.month, 1⟩ ≤ a.toDays := by
  have hday := toDays_day a.year a.month a.day
  have hpos := ha.day_pos
  show _ ≤ toDays ⟨a.year, a.month, a.day⟩
  omega

theorem Valid.lt_nextMonth (ha : a.Valid) (hlt : a.month < 12) :
    a.toDays < toDays ⟨a.year, a.month + 1, 1⟩ := by
  have hday := toDays_day a.year a.month a.day
  have hle := ha.day_le
  rw [toDays_nextMonth ha.month_pos hlt]
  show toDays ⟨a.year, a.month, a.day⟩ < _
  omega

/-- December is the last month. -/
theorem toDays_december (year : Int) : toDays ⟨year + 1, 1, 1⟩ = toDays ⟨year, 12, 1⟩ + 31 := by
  simp [toDays, monthStart]
  omega

theorem Valid.lt_nextYear (ha : a.Valid) : a.toDays < toDays ⟨a.year + 1, 1, 1⟩ := by
  have hdecember := toDays_december a.year
  have hmonth := ha.month_le
  by_cases hlast : a.month = 12
  · have hday := toDays_day a.year a.month a.day
    have hle := ha.day_le
    have hlength : monthLength a.year a.month = 31 := by
      rw [hlast]
      rfl
    rw [hdecember, ← hlast]
    show toDays ⟨a.year, a.month, a.day⟩ < _
    omega
  · have hnext := ha.lt_nextMonth (by omega)
    have hpos := ha.month_pos
    have hle := toDays_month_le a.year (by omega : 1 ≤ a.month + 1) (by omega : a.month + 1 ≤ 12) (Int.le_refl _)
    omega

/-- **A later date has a larger count.** -/
theorem toDays_lt (ha : a.Valid) (hb : b.Valid) (h : Before a b) : a.toDays < b.toDays := by
  have hstart := hb.month_start_le
  rcases h with hyear | ⟨hyear, hmonth | ⟨hmonth, hday⟩⟩
  · have hend := ha.lt_nextYear
    have hyears := toDays_year_le (Int.add_one_le_of_lt hyear)
    have hmonths := toDays_month_le b.year (by omega : (1 : Int) ≤ 1) hb.month_pos hb.month_le
    omega
  · have hlast := hb.month_le
    have hend := ha.lt_nextMonth (by omega)
    have hpos := ha.month_pos
    have hmonths := toDays_month_le a.year (by omega : 1 ≤ a.month + 1) (by omega : a.month + 1 ≤ b.month) hlast
    rw [hyear] at hend hmonths
    omega
  · have hcount := toDays_day a.year a.month a.day
    have hcount' := toDays_day b.year b.month b.day
    show toDays ⟨a.year, a.month, a.day⟩ < toDays ⟨b.year, b.month, b.day⟩
    rw [← hyear, ← hmonth] at hcount'
    rw [hcount, ← hyear, ← hmonth, hcount']
    omega

theorem toDays_lt_iff (ha : a.Valid) (hb : b.Valid) : a.toDays < b.toDays ↔ Before a b := by
  refine ⟨fun hlt => ?_, toDays_lt ha hb⟩
  rcases before_or_before_or_eq a b with h | h | rfl
  · exact h
  · have hgt := toDays_lt hb ha h
    omega
  · omega

/-- A count is that of one date. -/
theorem toDays_inj (ha : a.Valid) (hb : b.Valid) (h : a.toDays = b.toDays) : a = b := by
  rcases before_or_before_or_eq a b with hlt | hlt | heq
  · have := toDays_lt ha hb hlt
    omega
  · have := toDays_lt hb ha hlt
    omega
  · exact heq

end Valid

end Date

/-! ## The date of a day -/

open Date (marchStart monthStart)

/-- The date of a day, with division as on a machine: rounded towards zero. -/
def fromDays (days : Int) : Date :=
  let z := days + 719468
  let era := (if 0 ≤ z then z else z - 146096).tdiv 146097
  let doe := z - era * 146097
  let yoe := (doe - doe.tdiv 1460 + doe.tdiv 36524 - doe.tdiv 146096).tdiv 365
  let y := yoe + era * 400
  let doy := doe - (365 * yoe + yoe.tdiv 4 - yoe.tdiv 100)
  let mp := (5 * doy + 2).tdiv 153
  let d := doy - (153 * mp + 2).tdiv 5 + 1
  let m := if mp < 10 then mp + 3 else mp - 9
  { year := if m ≤ 2 then y + 1 else y, month := m, day := d }

example : fromDays 0 = ⟨1970, 1, 1⟩ := by decide

/-- A quotient rounded down, with division that rounds towards zero. -/
theorem tdiv_floor {n : Int} (hn : 0 < n) (z : Int) :
    (if 0 ≤ z then z else z - (n - 1)).tdiv n = z / n := by
  split
  · rename_i hz
    exact Int.tdiv_eq_ediv_of_nonneg hz
  · rename_i hz
    rw [show z - (n - 1) = -(n - 1 - z) by omega, Int.neg_tdiv, Int.tdiv_eq_ediv_of_nonneg (by omega)]
    have hsplit := Int.mul_ediv_add_emod (n - 1 - z) n
    have hnonneg := Int.emod_nonneg (n - 1 - z) (show n ≠ 0 by omega)
    have hlt := Int.emod_lt_of_pos (n - 1 - z) hn
    refine ((Int.ediv_emod_unique hn).mpr (show n - 1 - (n - 1 - z) % n + n * -((n - 1 - z) / n) = z ∧ _ from
      ⟨?_, by omega, by omega⟩)).1.symm
    rw [Int.mul_neg]
    omega

/-- The year of a day of its era. -/
def yearOfEra (doe : Int) : Int := (doe - doe / 1460 + doe / 36524 - doe / 146096) / 365

/-- A century of an era: its leap years are the fourth ones, the last year apart. -/
theorem yearOfEra_century {doe century : Int} (hdoe : doe / 36524 = century) (hlt : doe < 146096)
    (hcentury : century = 0 ∨ century = 1 ∨ century = 2 ∨ century = 3) :
    yearOfEra doe / 100 = century ∧
    365 * yearOfEra doe + yearOfEra doe / 4 - century ≤ doe ∧
    doe ≤ 365 * yearOfEra doe + yearOfEra doe / 4 - century + 365 ∧
    (doe = 365 * yearOfEra doe + yearOfEra doe / 4 - century + 365 →
      yearOfEra doe % 4 = 3 ∧ yearOfEra doe % 100 ≠ 99) := by
  have hlast : doe / 146096 = 0 := by omega
  have hyear : yearOfEra doe = (doe - doe / 1460 + century) / 365 := by
    unfold yearOfEra
    rw [hdoe, hlast, Int.sub_zero]
  generalize yearOfEra doe = yoe at hyear
  rcases hcentury with rfl | rfl | rfl | rfl
  · have hhundred : yoe / 100 = 0 := by omega
    refine ⟨hhundred, by omega, by omega, by omega⟩
  · have hhundred : yoe / 100 = 1 := by omega
    refine ⟨hhundred, by omega, by omega, by omega⟩
  · have hhundred : yoe / 100 = 2 := by omega
    refine ⟨hhundred, by omega, by omega, by omega⟩
  · have hhundred : yoe / 100 = 3 := by omega
    refine ⟨hhundred, by omega, by omega, by omega⟩

/-- The day of the year that is left, with a last day only before the end of a February of 29 days. -/
theorem yearOfEra_spec {doe : Int} (hpos : 0 ≤ doe) (hlt : doe < 146097) :
    0 ≤ yearOfEra doe ∧ yearOfEra doe < 400 ∧
    365 * yearOfEra doe + yearOfEra doe / 4 - yearOfEra doe / 100 ≤ doe ∧
    doe ≤ 365 * yearOfEra doe + yearOfEra doe / 4 - yearOfEra doe / 100 + 365 ∧
    (doe = 365 * yearOfEra doe + yearOfEra doe / 4 - yearOfEra doe / 100 + 365 →
      IsLeap (yearOfEra doe + 1)) := by
  by_cases hlast : doe = 146096
  · subst hlast
    decide
  · have hcentury : doe / 36524 = 0 ∨ doe / 36524 = 1 ∨ doe / 36524 = 2 ∨ doe / 36524 = 3 := by omega
    obtain ⟨hhundred, hle, hge, hleap⟩ := yearOfEra_century rfl (by omega) hcentury
    rw [hhundred]
    refine ⟨by omega, by omega, hle, hge, fun hday => ?_⟩
    have hfourth := hleap hday
    unfold IsLeap
    omega

/-- The month of a day of a year that begins in March. -/
theorem month_spec {doy : Int} (hpos : 0 ≤ doy) (hle : doy ≤ 365) :
    0 ≤ (5 * doy + 2) / 153 ∧ (5 * doy + 2) / 153 ≤ 11 ∧
    monthStart ((5 * doy + 2) / 153) ≤ doy ∧ doy < monthStart ((5 * doy + 2) / 153 + 1) := by
  unfold monthStart
  omega

/-- The fields of the date of a day. -/
theorem fromDays_eq (days : Int) :
    ∃ era yoe doy mp, 0 ≤ yoe ∧ yoe < 400 ∧ 0 ≤ doy ∧ doy ≤ 365 ∧
      days + 719468 = era * 146097 + (365 * yoe + yoe / 4 - yoe / 100) + doy ∧
      (doy = 365 → IsLeap (yoe + 1)) ∧ 0 ≤ mp ∧ mp ≤ 11 ∧
      monthStart mp ≤ doy ∧ doy < monthStart (mp + 1) ∧
      fromDays days = {
        year := if mp < 10 then yoe + era * 400 else yoe + era * 400 + 1
        month := if mp < 10 then mp + 3 else mp - 9
        day := doy - monthStart mp + 1 } := by
  have hdoe : days + 719468 - (days + 719468) / 146097 * 146097 = (days + 719468) % 146097 := by omega
  have hpos : 0 ≤ (days + 719468) % 146097 := by omega
  have hlt : (days + 719468) % 146097 < 146097 := by omega
  have hera : ∀ z : Int, (if 0 ≤ z then z else z - 146096).tdiv 146097 = z / 146097 :=
    tdiv_floor (show (0 : Int) < 146097 by decide)
  unfold fromDays
  simp only [hera, hdoe]
  generalize (days + 719468) % 146097 = doe at hdoe hpos hlt
  obtain ⟨hyoe, hyoe400, hle, hge, hleap⟩ := yearOfEra_spec hpos hlt
  have hyear : (doe - doe.tdiv 1460 + doe.tdiv 36524 - doe.tdiv 146096).tdiv 365 = yearOfEra doe := by
    unfold yearOfEra
    rw [Int.tdiv_eq_ediv_of_nonneg hpos, Int.tdiv_eq_ediv_of_nonneg hpos, Int.tdiv_eq_ediv_of_nonneg hpos,
      Int.tdiv_eq_ediv_of_nonneg (by omega)]
  rw [hyear]
  generalize yearOfEra doe = yoe at *
  rw [Int.tdiv_eq_ediv_of_nonneg hyoe, Int.tdiv_eq_ediv_of_nonneg hyoe]
  obtain ⟨hmp, hmp11, hstart, hend⟩ :=
    month_spec (show 0 ≤ doe - (365 * yoe + yoe / 4 - yoe / 100) by omega) (by omega)
  generalize hdoy : doe - (365 * yoe + yoe / 4 - yoe / 100) = doy at *
  rw [Int.tdiv_eq_ediv_of_nonneg (a := 5 * doy + 2) (by omega)]
  generalize (5 * doy + 2) / 153 = mp at *
  rw [Int.tdiv_eq_ediv_of_nonneg (by omega)]
  refine ⟨(days + 719468) / 146097, yoe, doy, mp, hyoe, hyoe400, by omega, by omega, by omega,
    fun h => hleap (by omega), hmp, hmp11, hstart, hend, ?_⟩
  by_cases hmonth : mp < 10
  · simp only [if_pos hmonth, if_neg (show ¬mp + 3 ≤ 2 by omega), monthStart]
  · simp only [if_neg hmonth, if_pos (show mp - 9 ≤ 2 by omega), monthStart]

/-- **The date of a day** is one of the calendar. -/
theorem fromDays_valid (days : Int) : (fromDays days).Valid := by
  obtain ⟨era, yoe, doy, mp, hyoe, hyoe400, hpos, hle, -, hleap, hmp, hmp11, hstart, hend, hdate⟩ :=
    fromDays_eq days
  rw [hdate]
  have hmonths : mp < 10 ∨ mp = 10 ∨ mp = 11 := by omega
  rcases hmonths with hmonth | rfl | rfl
  · rw [if_pos hmonth]
    have hlength : doy - monthStart mp + 1 ≤ monthLength (yoe + era * 400) (mp + 3) := by
      by_cases hdecember : mp = 9
      · subst hdecember
        unfold monthStart at *
        simp [monthLength]
        omega
      · have hnext := Date.monthStart_next (show 3 ≤ mp + 3 by omega) (by omega) (yoe + era * 400)
        rw [show mp + 3 + 1 - 3 = mp + 1 by omega, show mp + 3 - 3 = mp by omega] at hnext
        omega
    exact ⟨by dsimp only; omega, by dsimp only; omega, by dsimp only; omega, by
      dsimp only
      rw [if_pos hmonth]
      exact hlength⟩
  · unfold monthStart at *
    exact ⟨by dsimp only; omega, by dsimp only; omega, by dsimp only; omega, by
      simp [monthLength]
      omega⟩
  · -- February: the last day of the year is there in leap years only
    unfold monthStart at *
    refine ⟨by dsimp only; omega, by dsimp only; omega, by dsimp only; omega, ?_⟩
    simp [monthLength]
    by_cases hlast : doy = 365
    · have hyear : IsLeap (yoe + era * 400 + 1) := by
        have h := hleap hlast
        unfold IsLeap at *
        omega
      rw [if_pos hyear]
      omega
    · split <;> omega

/-- It has the day as its count. -/
theorem toDays_fromDays (days : Int) : (fromDays days).toDays = days := by
  obtain ⟨era, yoe, doy, mp, hyoe, hyoe400, hpos, hle, hdays, -, hmp, hmp11, -, -, hdate⟩ := fromDays_eq days
  rw [hdate]
  unfold Date.toDays marchStart
  by_cases hmonth : mp < 10
  · simp only [if_pos hmonth, if_neg (show ¬mp + 3 ≤ 2 by omega), if_pos (show 2 < mp + 3 by omega),
      show mp + 3 - 3 = mp by omega]
    omega
  · simp only [if_neg hmonth, if_pos (show mp - 9 ≤ 2 by omega), if_neg (show ¬2 < mp - 9 by omega),
      show mp - 9 + 9 = mp by omega]
    omega

/-- And it is the only one that has. -/
theorem eq_fromDays {date : Date} (h : date.Valid) : date = fromDays date.toDays :=
  Date.toDays_inj h (fromDays_valid _) (toDays_fromDays _).symm

end Civil
