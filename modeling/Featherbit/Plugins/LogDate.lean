/-
  THE DATES OF THE LOGGERS: `format_http_date` of `plugins/native/sls_logger.rs`, which goes through the
  years and the months, and `format_rfc3339` of `plugins/native/syslog.rs`, which has them in closed form.

  1. **The years** (`yearLoop_spec`) — a turn takes a year's days off the days that are left, so the first
     of the year and the days that are left stay the same day.
  2. **The months** (`monthLoop_spec`) — likewise; the days that are left are fewer than the months have,
     so the loop stops before the end of the array.
  3. **One date** (`civilDate_eq`) — what both loops leave is a date with that count of days, so it is the
     one of the closed form, and all three formatters name it (`calendars_agree`).
-/
import Featherbit.Plugins.AwsLambda

namespace Featherbit

open Civil

namespace SlsLogger

/-! ## The years -/

/-- `year.is_multiple_of(4) && !year.is_multiple_of(100) || year.is_multiple_of(400)` -/
def leap (year : Nat) : Bool := (year % 4 = 0 && year % 100 ≠ 0) || year % 400 = 0

def yearDays (year : Nat) : Nat := if leap year then 366 else 365

theorem yearDays_pos (year : Nat) : 0 < yearDays year := by
  unfold yearDays
  split <;> decide

/-- The loop over the years: the year, and the days that are left in it. -/
def yearLoop (year daysLeft : Nat) : Nat × Nat :=
  if daysLeft < yearDays year then (year, daysLeft)
  else yearLoop (year + 1) (daysLeft - yearDays year)
termination_by daysLeft
decreasing_by
  have hpos := yearDays_pos year
  omega

theorem leap_iff (year : Nat) : leap year = true ↔ IsLeap year := by
  unfold leap IsLeap
  rw [Bool.or_eq_true, Bool.and_eq_true, decide_eq_true_iff, decide_eq_true_iff, decide_eq_true_iff]
  omega

theorem yearDays_eq (year : Nat) : (yearDays year : Int) = yearLength year := by
  unfold yearDays yearLength
  by_cases h : leap year = true
  · rw [if_pos h, if_pos ((leap_iff year).mp h)]
    rfl
  · rw [if_neg h, if_neg fun hleap => h ((leap_iff year).mpr hleap)]
    rfl

/-- **The years.**  The loop keeps the day, and ends within a year. -/
theorem yearLoop_spec (year daysLeft : Nat) :
    Date.toDays ⟨(yearLoop year daysLeft).1, 1, 1⟩ + (yearLoop year daysLeft).2 =
      Date.toDays ⟨year, 1, 1⟩ + daysLeft ∧
    (yearLoop year daysLeft).2 < yearDays (yearLoop year daysLeft).1 := by
  induction year, daysLeft using yearLoop.induct with
  | case1 year daysLeft h =>
    rw [yearLoop, if_pos h]
    exact ⟨rfl, h⟩
  | case2 year daysLeft h ih =>
    rw [yearLoop, if_neg h]
    refine ⟨?_, ih.2⟩
    have hnext := Date.toDays_nextYear year
    have hlength := yearDays_eq year
    rw [ih.1]
    push_cast
    omega

/-! ## The months -/

def monthLengths (leap : Bool) : List Nat :=
  [31, if leap then 29 else 28, 31, 30, 31, 30, 31, 31, 30, 31, 30, 31]

/-- The loop over the months, of which these are left; past the last one the index is out of bounds. -/
def monthLoop : List Nat → Nat → Nat → Option (Nat × Nat)
  | [], _, _ => none
  | length :: lengths, month, daysLeft =>
    if daysLeft < length then some (month, daysLeft)
    else monthLoop lengths (month + 1) (daysLeft - length)

/-- The months from one on begin with its length. -/
theorem monthLengths_drop (year : Nat) {month : Nat} (h : month < 12) :
    ∃ length : Nat, (length : Int) = monthLength year (month + 1) ∧
      (monthLengths (leap year)).drop month = length :: (monthLengths (leap year)).drop (month + 1) := by
  have hfebruary : ((if leap year then 29 else 28 : Nat) : Int) = if IsLeap year then 29 else 28 := by
    by_cases hyear : leap year = true
    · rw [if_pos hyear, if_pos ((leap_iff year).mp hyear)]
      rfl
    · rw [if_neg hyear, if_neg fun hleap => hyear ((leap_iff year).mpr hleap)]
      rfl
  have hmonth : month = 0 ∨ month = 1 ∨ month = 2 ∨ month = 3 ∨ month = 4 ∨ month = 5 ∨ month = 6 ∨
      month = 7 ∨ month = 8 ∨ month = 9 ∨ month = 10 ∨ month = 11 := by omega
  rcases hmonth with rfl | rfl | rfl | rfl | rfl | rfl | rfl | rfl | rfl | rfl | rfl | rfl
  case inr.inl => exact ⟨_, hfebruary, rfl⟩
  all_goals exact ⟨_, rfl, rfl⟩

/-- **The months.**  Within a year the loop keeps the day, and ends within a month. -/
theorem monthLoop_spec (year : Nat) {month daysLeft : Nat} (hmonth : month < 12)
    (hyear : Date.toDays ⟨year, month + 1, 1⟩ + daysLeft < Date.toDays ⟨year + 1, 1, 1⟩) :
    ∃ month' daysLeft', monthLoop ((monthLengths (leap year)).drop month) month daysLeft =
        some (month', daysLeft') ∧
      month' < 12 ∧ daysLeft' < monthLength year (month' + 1) ∧
      Date.toDays ⟨year, month' + 1, 1⟩ + daysLeft' = Date.toDays ⟨year, month + 1, 1⟩ + daysLeft := by
  induction hleft : 12 - month generalizing month daysLeft with
  | zero => omega
  | succ n ih =>
    obtain ⟨length, hlength, hdrop⟩ := monthLengths_drop year hmonth
    rw [hdrop, monthLoop]
    by_cases hlt : daysLeft < length
    · rw [if_pos hlt]
      exact ⟨month, daysLeft, rfl, hmonth, by omega, rfl⟩
    · rw [if_neg hlt]
      by_cases hlast : month = 11
      · -- December's days are the last of the year
        subst hlast
        have hdecember := Date.toDays_december year
        have hcount : (length : Int) = 31 := hlength
        have hsame : Date.toDays ⟨year, ((11 : Nat) : Int) + 1, 1⟩ = Date.toDays ⟨year, 12, 1⟩ := rfl
        omega
      · have hnext := Date.toDays_nextMonth (show 1 ≤ (month : Int) + 1 by omega) (by omega) year
        have hsame : Date.toDays ⟨year, ((month + 1 : Nat) : Int) + 1, 1⟩ =
            Date.toDays ⟨year, (month : Int) + 1 + 1, 1⟩ := rfl
        obtain ⟨month', daysLeft', hloop, hmonth', hday, hcount⟩ :=
          @ih (month + 1) (daysLeft - length) (by omega) (by omega) (by omega)
        exact ⟨month', daysLeft', hloop, hmonth', hday, by omega⟩

/-! ## One date -/

/-- The year, the month from 0 on and the day from 1 on. -/
def civilDate (days : Nat) : Option (Nat × Nat × Nat) :=
  let (year, daysLeft) := yearLoop 1970 days
  (monthLoop (monthLengths (leap year)) 0 daysLeft).map fun (month, daysLeft) =>
    (year, month, daysLeft + 1)

def dayNames : List String := ["Thu", "Fri", "Sat", "Sun", "Mon", "Tue", "Wed"]

def monthNames : List String :=
  ["Jan", "Feb", "Mar", "Apr", "May", "Jun", "Jul", "Aug", "Sep", "Oct", "Nov", "Dec"]

/-- `{hour:02}:{minute:02}:{second:02}` of the seconds of a day. -/
def timeText (secsOfDay : Nat) : String :=
  showPadded 2 (secsOfDay / 3600) ++ ":" ++ showPadded 2 (secsOfDay % 3600 / 60) ++ ":" ++
    showPadded 2 (secsOfDay % 60)

/-- `{weekday}, {day:02} {mon} {year:04} {hour:02}:{minute:02}:{second:02} GMT` -/
def dateText (weekday : Nat) (year month day secsOfDay : Nat) : String :=
  dayNames.getD weekday "" ++ ", " ++ showPadded 2 day ++ " " ++ monthNames.getD month "" ++ " " ++
    showPadded 4 year ++ " " ++ timeText secsOfDay ++ " GMT"

/-- `format_http_date`, unless an index is out of bounds. -/
def formatHttpDate (unixSecs : Nat) : Option String :=
  (civilDate (unixSecs / 86400)).map fun (year, month, day) =>
    dateText (unixSecs / 86400 % 7) year month day (unixSecs % 86400)

/-- **One date.**  The loops find the date of the closed form. -/
theorem civilDate_eq (days : Nat) :
    ∃ year month day, civilDate days = some (year, month, day) ∧ month < 12 ∧
      fromDays days = ⟨year, month + 1, day⟩ := by
  obtain ⟨hyears, hwithin⟩ := yearLoop_spec 1970 days
  have hepoch : Date.toDays ⟨((1970 : Nat) : Int), 1, 1⟩ = 0 := by decide
  unfold civilDate
  generalize yearLoop 1970 days = found at hyears hwithin
  obtain ⟨year, daysLeft⟩ := found
  dsimp only at hyears hwithin ⊢
  have hlength := yearDays_eq year
  have hnext := Date.toDays_nextYear year
  obtain ⟨month, left, hloop, hmonth, hday, hcount⟩ := @monthLoop_spec year 0 daysLeft (by decide) (by
      show Date.toDays ⟨year, 1, 1⟩ + daysLeft < _
      omega)
  refine ⟨year, month, left + 1, ?_, hmonth, ?_⟩
  · rw [List.drop_zero] at hloop
    rw [hloop]
    rfl
  · have hvalid : Date.Valid ⟨year, month + 1, ((left + 1 : Nat) : Int)⟩ :=
      ⟨by dsimp only; omega, by dsimp only; omega, by dsimp only; omega, by dsimp only; push_cast; omega⟩
    have hdays : Date.toDays ⟨year, month + 1, ((left + 1 : Nat) : Int)⟩ = days := by
      have hfirst := Date.toDays_day year (month + 1) ((left + 1 : Nat) : Int)
      have hcount' : Date.toDays ⟨year, (month : Int) + 1, 1⟩ + left = Date.toDays ⟨year, 1, 1⟩ + daysLeft :=
        hcount
      rw [hfirst]
      push_cast
      omega
    rw [eq_fromDays hvalid, hdays]

end SlsLogger

namespace Syslog

/-- `format_rfc3339`. -/
def formatRfc3339 (epochSecs millis : Nat) : String :=
  let secsOfDay := epochSecs % 86400
  let date := fromDays (epochSecs / 86400 : Nat)
  showPaddedInt 4 date.year ++ "-" ++ showPaddedInt 2 date.month ++ "-" ++ showPaddedInt 2 date.day ++ "T" ++
    showPadded 2 (secsOfDay / 3600) ++ ":" ++ showPadded 2 (secsOfDay % 3600 / 60) ++ ":" ++
    showPadded 2 (secsOfDay % 60) ++ "." ++ showPadded 3 millis ++ "Z"

end Syslog

/-- **One date.**  The three formatters name one year, month and day. -/
theorem calendars_agree (secs millis : Nat) :
    ∃ year month day : Nat, month < 12 ∧
      SlsLogger.formatHttpDate secs =
        some (SlsLogger.dateText (secs / 86400 % 7) year month day (secs % 86400)) ∧
      Syslog.formatRfc3339 secs millis =
        showPadded 4 year ++ "-" ++ showPadded 2 (month + 1) ++ "-" ++ showPadded 2 day ++ "T" ++
          SlsLogger.timeText (secs % 86400) ++ "." ++ showPadded 3 millis ++ "Z" ∧
      AwsLambda.civilFromDays (secs / 86400 : Nat) = ((year : Int), month + 1, day) := by
  obtain ⟨year, month, day, hdate, hmonth, hclosed⟩ := SlsLogger.civilDate_eq (secs / 86400)
  refine ⟨year, month, day, hmonth, ?_, ?_, ?_⟩
  · unfold SlsLogger.formatHttpDate
    rw [hdate]
    rfl
  · unfold Syslog.formatRfc3339 SlsLogger.timeText
    rw [hclosed]
    simp only [String.append_assoc]
    rfl
  · unfold AwsLambda.civilFromDays
    rw [hclosed]
    rfl

end Featherbit
