/-
  THE DATES OF SIGNED REQUESTS: `parse_http_date` of `plugins/native/hmac_auth.rs` against the calendar.

  1. **The fields** (`parseHttpDate_eq`) — six words, five of them numbers of any size; the seconds are
     computed in `i64`.
  2. **The arithmetic** (`checkedCivilSeconds`) — the same with an error where an operation overflows.
     Without one the result is exact (`checked_eq_some`), and the wrapping one is the same
     (`civilSeconds_of_checked`).  A date of the calendar overflows exactly when it lies outside the days
     that `i64` seconds reach (`checked_isSome_iff`).
  3. **There and back** (`parseHttpDate_formatHttpDate`) — what the logger writes is read as the second it
     was written for.
  4. **What is turned away** (`strict_iff`) — no numbers of `i64` are, in the calendar or not.  All of it is
     put together in `http_dates`.
-/
import Featherbit.Plugins.HmacAuth
import Featherbit.Plugins.LogDate
import Featherbit.Rust.I64

namespace Featherbit

open Civil

/-! ## The fields -/

/-- A sign, and what follows it. -/
def signed (s : String) : Bool × List Char :=
  match s.toList with
  | '-' :: rest => (true, rest)
  | '+' :: rest => (false, rest)
  | l => (false, l)

/-- An integer of any size as `i64::from_str` reads it: a sign, and digits. -/
def readInt (s : String) : Option Int :=
  let (negative, digits) := signed s
  if digits ≠ [] ∧ digits.all Char.isDigit then
    let n : Int := Nat.ofDigitChars 10 digits 0
    some (if negative then -n else n)
  else none

theorem parseI64_eq (s : String) : parseI64 s = ((readInt s).bind checkedI64).map Int64.ofInt := by
  have hparse : parseI64 s =
      if (signed s).2 ≠ [] ∧ (signed s).2.all Char.isDigit = true then
        let n : Int := Nat.ofDigitChars 10 (signed s).2 0
        let n := if (signed s).1 = true then -n else n
        if -2 ^ 63 ≤ n ∧ n < 2 ^ 63 then some (Int64.ofInt n) else none
      else none := rfl
  rw [hparse]
  unfold readInt
  dsimp only
  by_cases hdigits : (signed s).2 ≠ [] ∧ (signed s).2.all Char.isDigit = true
  · have hchecked : ∀ n : Int, (if -2 ^ 63 ≤ n ∧ n < 2 ^ 63 then some (Int64.ofInt n) else none) =
        (checkedI64 n).map Int64.ofInt := by
      intro n
      by_cases hfits : -2 ^ 63 ≤ n ∧ n < 2 ^ 63
      · rw [if_pos hfits, checkedI64_eq_some.mpr ⟨hfits, rfl⟩, Option.map_some]
      · rw [if_neg hfits, checkedI64, if_neg (show ¬FitsI64 n from hfits), Option.map_none]
    rw [if_pos hdigits, if_pos hdigits]
    exact hchecked _
  · rw [if_neg hdigits, if_neg hdigits]
    rfl

/-- The numbers of a date; the month counts from 1. -/
structure HttpDateFields where
  year : Int
  month : Int
  day : Int
  hour : Int
  minute : Int
  second : Int

/-- The fields of a date of six words. -/
def readFields (s : String) : Option HttpDateFields :=
  match splitWhitespace s with
  | [_, day, month, year, time, _] => do
    let day ← readInt day
    let month ← monthNames.findIdx? (· = month)
    let year ← readInt year
    match splitChar ':' time with
    | [hour, minute, second] => do
      let hour ← readInt hour
      let minute ← readInt minute
      let second ← readInt second
      some { year, month := month + 1, day, hour, minute, second }
    | _ => none
  | _ => none

namespace HttpDateFields

variable (fields : HttpDateFields)

def date : Date := ⟨fields.year, fields.month, fields.day⟩

def secsOfDay : Int := fields.hour * 3600 + fields.minute * 60 + fields.second

/-- The exact second. -/
def seconds : Int := fields.date.toDays * 86400 + fields.secsOfDay

/-- Every number is one of `i64`. -/
structure Fits : Prop where
  year : FitsI64 fields.year
  day : FitsI64 fields.day
  hour : FitsI64 fields.hour
  minute : FitsI64 fields.minute
  second : FitsI64 fields.second

/-- A date of the calendar and a time of the day. -/
structure InRange : Prop where
  date : fields.date.Valid
  hour : 0 ≤ fields.hour ∧ fields.hour < 24
  minute : 0 ≤ fields.minute ∧ fields.minute < 60
  second : 0 ≤ fields.second ∧ fields.second < 60

/-- The first day whose midnight is a second of `i64`. -/
def firstDay : Date := ⟨-292277022657, 1, 28⟩

/-- The day of the last second of `i64`. -/
def lastDay : Date := ⟨292277026596, 12, 4⟩

/-- No earlier than the first midnight, and no later than 15:30:07 of the last day. -/
structure Reachable : Prop where
  first : ¬Date.Before fields.date firstDay
  last : Date.Before fields.date lastDay ∨ fields.date = lastDay ∧ fields.secsOfDay ≤ 15 * 3600 + 30 * 60 + 7

end HttpDateFields

/-! ## The arithmetic -/

/-- The year that began in March. -/
def checkedYear (year month : Int) : Option Int := if month ≤ 2 then checkedI64 (year - 1) else some year

/-- The era of 400 years, with a quotient that rounds towards zero. -/
def checkedEra (y : Int) : Option Int :=
  (if 0 ≤ y then some y else checkedI64 (y - 399)).map fun n => n.tdiv 400

/-- The seconds of the fields, unless an operation overflows. -/
def checkedCivilSeconds (fields : HttpDateFields) : Option Int := do
  let y ← checkedYear fields.year fields.month
  let era ← checkedEra y
  let eraStart ← checkedI64 (era * 400)
  let yoe ← checkedI64 (y - eraStart)
  let ofYear ← checkedI64
    ((153 * (if 2 < fields.month then fields.month - 3 else fields.month + 9) + 2).tdiv 5 + fields.day)
  let doy ← checkedI64 (ofYear - 1)
  let years ← checkedI64 (yoe * 365)
  let fourths ← checkedI64 (years + yoe.tdiv 4)
  let hundredths ← checkedI64 (fourths - yoe.tdiv 100)
  let doe ← checkedI64 (hundredths + doy)
  let eras ← checkedI64 (era * 146097)
  let ofEpoch ← checkedI64 (eras + doe)
  let days ← checkedI64 (ofEpoch - 719468)
  let midnight ← checkedI64 (days * 86400)
  let hours ← checkedI64 (fields.hour * 3600)
  let untilHour ← checkedI64 (midnight + hours)
  let minutes ← checkedI64 (fields.minute * 60)
  let untilMinute ← checkedI64 (untilHour + minutes)
  checkedI64 (untilMinute + fields.second)

/-- The months are those of the calendar. -/
def MonthOfYear (month : Int) : Prop := 1 ≤ month ∧ month ≤ 12

/-- The days of a date by eras. -/
theorem marchStart_era (y : Int) :
    Date.marchStart y = y / 400 * 146097 + ((y - y / 400 * 400) * 365 + (y - y / 400 * 400).tdiv 4 -
      (y - y / 400 * 400).tdiv 100) := by
  have hpos : 0 ≤ y - y / 400 * 400 := by omega
  rw [Int.tdiv_eq_ediv_of_nonneg hpos, Int.tdiv_eq_ediv_of_nonneg hpos]
  unfold Date.marchStart
  omega

theorem checkedYear_exact {year month y : Int} (h : checkedYear year month = some y) :
    y = if month ≤ 2 then year - 1 else year := by
  unfold checkedYear at h
  split at h
  · rename_i hfebruary
    rw [if_pos hfebruary]
    exact (checkedI64_eq_some.mp h).2.symm
  · rename_i hfebruary
    rw [if_neg hfebruary]
    exact (Option.some.inj h).symm

theorem checkedEra_exact {y era : Int} (h : checkedEra y = some era) : era = y / 400 := by
  have hfloor : (if 0 ≤ y then y else y - 399).tdiv 400 = y / 400 :=
    tdiv_floor (show (0 : Int) < 400 by decide) y
  obtain ⟨floored, hfloored, rfl⟩ := Option.map_eq_some_iff.mp h
  rw [← hfloor]
  split at hfloored
  · rename_i hpos
    rw [if_pos hpos, Option.some.inj hfloored]
  · rename_i hpos
    rw [if_neg hpos, (checkedI64_eq_some.mp hfloored).2]

theorem of_bind_checked {n r : Int} {next : Int → Option Int} (h : (checkedI64 n).bind next = some r) :
    FitsI64 n ∧ next n = some r := by
  obtain ⟨m, hm, h⟩ := Option.bind_eq_some_iff.mp h
  obtain ⟨hfits, rfl⟩ := checkedI64_eq_some.mp hm
  exact ⟨hfits, h⟩

/-- What is computed where no operation overflows. -/
structure Computed (fields : HttpDateFields) (y era yoe doy doe days v : Int) : Prop where
  marchYear : checkedYear fields.year fields.month = some y
  eraOf : checkedEra y = some era
  eraStart : FitsI64 (era * 400)
  yearOfEra : FitsI64 yoe ∧ y - era * 400 = yoe
  ofYear : FitsI64
    ((153 * (if 2 < fields.month then fields.month - 3 else fields.month + 9) + 2).tdiv 5 + fields.day)
  dayOfYear : FitsI64 doy ∧
    (153 * (if 2 < fields.month then fields.month - 3 else fields.month + 9) + 2).tdiv 5 + fields.day - 1 = doy
  years : FitsI64 (yoe * 365)
  fourths : FitsI64 (yoe * 365 + yoe.tdiv 4)
  hundredths : FitsI64 (yoe * 365 + yoe.tdiv 4 - yoe.tdiv 100)
  dayOfEra : FitsI64 doe ∧ yoe * 365 + yoe.tdiv 4 - yoe.tdiv 100 + doy = doe
  eras : FitsI64 (era * 146097)
  ofEpoch : FitsI64 (era * 146097 + doe)
  epochDays : FitsI64 days ∧ era * 146097 + doe - 719468 = days
  midnight : FitsI64 (days * 86400)
  hours : FitsI64 (fields.hour * 3600)
  untilHour : FitsI64 (days * 86400 + fields.hour * 3600)
  minutes : FitsI64 (fields.minute * 60)
  untilMinute : FitsI64 (days * 86400 + fields.hour * 3600 + fields.minute * 60)
  second : FitsI64 v ∧ days * 86400 + fields.hour * 3600 + fields.minute * 60 + fields.second = v

theorem exists_computed {fields : HttpDateFields} {v : Int} (h : checkedCivilSeconds fields = some v) :
    ∃ y era yoe doy doe days, Computed fields y era yoe doy doe days v := by
  unfold checkedCivilSeconds at h
  obtain ⟨y, hyear, h⟩ := Option.bind_eq_some_iff.mp h
  obtain ⟨era, hera, h⟩ := Option.bind_eq_some_iff.mp h
  obtain ⟨heraStart, h⟩ := of_bind_checked h
  obtain ⟨hyoe, h⟩ := of_bind_checked h
  obtain ⟨hofYear, h⟩ := of_bind_checked h
  obtain ⟨hdoy, h⟩ := of_bind_checked h
  obtain ⟨hyears, h⟩ := of_bind_checked h
  obtain ⟨hfourths, h⟩ := of_bind_checked h
  obtain ⟨hhundredths, h⟩ := of_bind_checked h
  obtain ⟨hdoe, h⟩ := of_bind_checked h
  obtain ⟨heras, h⟩ := of_bind_checked h
  obtain ⟨hofEpoch, h⟩ := of_bind_checked h
  obtain ⟨hdays, h⟩ := of_bind_checked h
  obtain ⟨hmidnight, h⟩ := of_bind_checked h
  obtain ⟨hhours, h⟩ := of_bind_checked h
  obtain ⟨huntilHour, h⟩ := of_bind_checked h
  obtain ⟨hminutes, h⟩ := of_bind_checked h
  obtain ⟨huntilMinute, h⟩ := of_bind_checked h
  obtain ⟨hsecond, hv⟩ := checkedI64_eq_some.mp h
  exact ⟨y, era, _, _, _, _, hyear, hera, heraStart, ⟨hyoe, rfl⟩, hofYear, ⟨hdoy, rfl⟩, hyears, hfourths,
    hhundredths, ⟨hdoe, rfl⟩, heras, hofEpoch, ⟨hdays, rfl⟩, hmidnight, hhours, huntilHour, hminutes,
    huntilMinute, hv ▸ hsecond, hv⟩

/-- Without an overflow the result is exact, and the midnight before is a value too. -/
theorem checked_exact {fields : HttpDateFields} (hmonth : MonthOfYear fields.month) {v : Int}
    (h : checkedCivilSeconds fields = some v) :
    v = fields.seconds ∧ FitsI64 (fields.date.toDays * 86400) ∧ FitsI64 fields.seconds := by
  obtain ⟨y, era, yoe, doy, doe, days, hc⟩ := exists_computed h
  have hyear := checkedYear_exact hc.marchYear
  have hfloor := checkedEra_exact hc.eraOf
  have hshift : (153 * (if 2 < fields.month then fields.month - 3 else fields.month + 9) + 2).tdiv 5 =
      Date.monthStart (if 2 < fields.month then fields.month - 3 else fields.month + 9) := by
    apply Int.tdiv_eq_ediv_of_nonneg
    unfold MonthOfYear at hmonth
    split <;> omega
  have hexact : days = fields.date.toDays := by
    unfold HttpDateFields.date Date.toDays
    dsimp only
    rw [← hyear, marchStart_era y, ← hc.epochDays.2, ← hc.dayOfEra.2, ← hc.dayOfYear.2, ← hc.yearOfEra.2, hfloor, hshift]
    omega
  have hseconds : v = fields.seconds := by
    unfold HttpDateFields.seconds HttpDateFields.secsOfDay
    rw [← hexact, ← hc.second.2]
    omega
  exact ⟨hseconds, hexact ▸ hc.midnight, hseconds ▸ hc.second.1⟩

theorem bind_checked {n : Int} {α : Type} {next : Int → Option α} (h : FitsI64 n) :
    (checkedI64 n).bind next = next n := by
  rw [checkedI64_eq_some.mpr ⟨h, rfl⟩, Option.bind_some]

theorem checkedYear_of_fits {year month : Int} (h : FitsI64 (year - 1)) :
    checkedYear year month = some (if month ≤ 2 then year - 1 else year) := by
  unfold checkedYear
  split
  · exact checkedI64_eq_some.mpr ⟨h, rfl⟩
  · rfl

theorem checkedEra_of_fits {y : Int} (h : FitsI64 (y - 399)) : checkedEra y = some (y / 400) := by
  have hsome : ∃ era, checkedEra y = some era := by
    unfold checkedEra
    split
    · exact ⟨y.tdiv 400, rfl⟩
    · exact ⟨(y - 399).tdiv 400, congrArg _ (checkedI64_eq_some.mpr ⟨h, rfl⟩)⟩
  obtain ⟨era, hera⟩ := hsome
  rw [hera, checkedEra_exact hera]

/-- A date of the calendar overflows nowhere, if its midnight and its second are values. -/
theorem checked_of_fits {fields : HttpDateFields} (hrange : fields.InRange)
    (hmidnight : FitsI64 (fields.date.toDays * 86400)) (hseconds : FitsI64 fields.seconds) :
    checkedCivilSeconds fields = some fields.seconds := by
  obtain ⟨hvalid, ⟨hhour, hhour'⟩, ⟨hminute, hminute'⟩, hsecond, hsecond'⟩ := hrange
  have hmonth : MonthOfYear fields.month := ⟨hvalid.month_pos, hvalid.month_le⟩
  have hday : 1 ≤ fields.day := hvalid.day_pos
  have hday' : fields.day ≤ 31 := Int.le_trans hvalid.day_le (monthLength_le _ _)
  unfold HttpDateFields.seconds HttpDateFields.secsOfDay at hseconds ⊢
  unfold FitsI64 at hmidnight hseconds
  have hdays : fields.date.toDays = Date.marchStart (if fields.month ≤ 2 then fields.year - 1 else fields.year) +
      Date.monthStart (if 2 < fields.month then fields.month - 3 else fields.month + 9) + fields.day - 1 -
      719468 := rfl
  have hshifted : 0 ≤ (if 2 < fields.month then fields.month - 3 else fields.month + 9) ∧
      (if 2 < fields.month then fields.month - 3 else fields.month + 9) ≤ 11 := by
    unfold MonthOfYear at hmonth
    split <;> omega
  have hyear : fields.year - 1 ≤ (if fields.month ≤ 2 then fields.year - 1 else fields.year) ∧
      (if fields.month ≤ 2 then fields.year - 1 else fields.year) ≤ fields.year := by
    split <;> omega
  generalize fields.date.toDays = days at *
  unfold checkedCivilSeconds
  generalize (if 2 < fields.month then fields.month - 3 else fields.month + 9) = shifted at *
  have hshift : (153 * shifted + 2).tdiv 5 = Date.monthStart shifted :=
    Int.tdiv_eq_ediv_of_nonneg (by omega)
  have hstart : 0 ≤ Date.monthStart shifted ∧ Date.monthStart shifted ≤ 337 := by
    unfold Date.monthStart
    omega
  generalize Date.monthStart shifted = start at *
  -- the days bound the year
  have hmarch : Date.marchStart (if fields.month ≤ 2 then fields.year - 1 else fields.year) =
      days + 719469 - start - fields.day := by omega
  have hbound : -300000000000 ≤ fields.year ∧ fields.year ≤ 300000000000 := by
    unfold Date.marchStart at hmarch
    omega
  have hy : checkedYear fields.year fields.month = some _ :=
    checkedYear_of_fits (by unfold FitsI64; omega)
  generalize (if fields.month ≤ 2 then fields.year - 1 else fields.year) = y at *
  have hera := checkedEra_of_fits (y := y) (by unfold FitsI64; omega)
  have hpos : 0 ≤ y - y / 400 * 400 := by omega
  have hfourth := Int.tdiv_eq_ediv_of_nonneg hpos (b := 4)
  have hhundredth := Int.tdiv_eq_ediv_of_nonneg hpos (b := 100)
  rw [marchStart_era] at hmarch
  have hera400 : FitsI64 (y / 400 * 400) := by unfold FitsI64; omega
  have hyoe : FitsI64 (y - y / 400 * 400) := by unfold FitsI64; omega
  rw [hy, Option.bind_eq_bind, Option.bind_some, hera, Option.bind_some, hshift, bind_checked hera400,
    bind_checked hyoe]
  -- from here on the quotients are only bounded
  have hquotients : y / 400 * 400 ≤ y ∧ y < y / 400 * 400 + 400 ∧ 0 ≤ (y - y / 400 * 400).tdiv 4 ∧
      (y - y / 400 * 400).tdiv 4 < 100 ∧ 0 ≤ (y - y / 400 * 400).tdiv 100 ∧
      (y - y / 400 * 400).tdiv 100 < 4 := by omega
  clear hfourth hhundredth hpos hera hy hshift hshifted hdays hera400 hyoe hvalid
  generalize (y - y / 400 * 400).tdiv 4 = fourth at *
  generalize (y - y / 400 * 400).tdiv 100 = hundredth at *
  generalize y / 400 = era at *
  rw [bind_checked, bind_checked, bind_checked, bind_checked, bind_checked, bind_checked, bind_checked,
    bind_checked, bind_checked, bind_checked, bind_checked, bind_checked, bind_checked, bind_checked,
    checkedI64_eq_some]
  · constructor
    · unfold FitsI64
      omega
    · omega
  all_goals
    unfold FitsI64
    omega

/-! ## The arithmetic that wraps -/

section Wrapping

variable {year month day hour minute second : Int64}

theorem toInt_year {y : Int} (h : checkedYear year.toInt month.toInt = some y) :
    (if month ≤ 2 then year - 1 else year).toInt = y := by
  have htwo : month ≤ 2 ↔ month.toInt ≤ 2 := Int64.le_iff_toInt_le
  unfold checkedYear at h
  split at h
  · rename_i hmonth
    rw [if_pos (htwo.mpr hmonth)]
    obtain ⟨hfits, rfl⟩ := checkedI64_eq_some.mp h
    exact toInt_sub_eq rfl rfl hfits
  · rename_i hmonth
    rw [if_neg fun hle => hmonth (htwo.mp hle)]
    exact Option.some.inj h

theorem toInt_era {y : Int64} {era : Int} (h : checkedEra y.toInt = some era) :
    ((if 0 ≤ y then y else y - 399) / 400).toInt = era := by
  have hzero : (0 : Int64) ≤ y ↔ 0 ≤ y.toInt := Int64.le_iff_toInt_le
  obtain ⟨floored, hfloored, rfl⟩ := Option.map_eq_some_iff.mp h
  have hvalue : (if 0 ≤ y then y else y - 399).toInt = floored := by
    split at hfloored
    · rename_i hpos
      rw [if_pos (hzero.mpr hpos)]
      exact Option.some.inj hfloored
    · rename_i hpos
      rw [if_neg fun hle => hpos (hzero.mp hle)]
      obtain ⟨hfits, rfl⟩ := checkedI64_eq_some.mp hfloored
      exact toInt_sub_eq rfl rfl hfits
  exact toInt_div_eq hvalue rfl (by decide)

/-- The days before the month, none of which overflows. -/
theorem toInt_monthStart (hmonth : MonthOfYear month.toInt) :
    ((153 * (if 2 < month then month - 3 else month + 9) + 2) / 5).toInt =
      (153 * (if 2 < month.toInt then month.toInt - 3 else month.toInt + 9) + 2).tdiv 5 := by
  have htwo : (2 : Int64) < month ↔ 2 < month.toInt := Int64.lt_iff_toInt_lt
  unfold MonthOfYear at hmonth
  have hshifted : (if 2 < month then month - 3 else month + 9).toInt =
      if 2 < month.toInt then month.toInt - 3 else month.toInt + 9 := by
    by_cases hlt : 2 < month.toInt
    · rw [if_pos (htwo.mpr hlt), if_pos hlt]
      exact toInt_sub_eq rfl rfl (by unfold FitsI64; omega)
    · rw [if_neg fun h => hlt (htwo.mp h), if_neg hlt]
      exact toInt_add_eq rfl rfl (by unfold FitsI64; omega)
  have hbound : 0 ≤ (if 2 < month.toInt then month.toInt - 3 else month.toInt + 9) ∧
      (if 2 < month.toInt then month.toInt - 3 else month.toInt + 9) ≤ 11 := by
    split <;> omega
  generalize (if 2 < month.toInt then month.toInt - 3 else month.toInt + 9) = exact at *
  have hproduct := toInt_mul_eq (show (153 : Int64).toInt = 153 from rfl) hshifted (by unfold FitsI64; omega)
  have hsum := toInt_add_eq hproduct (show (2 : Int64).toInt = 2 from rfl) (by unfold FitsI64; omega)
  exact toInt_div_eq hsum rfl (by decide)

/-- Where nothing overflows, the operations that wrap have the same result. -/
theorem civilSeconds_of_checked (hmonth : MonthOfYear month.toInt) {v : Int}
    (h : checkedCivilSeconds ⟨year.toInt, month.toInt, day.toInt, hour.toInt, minute.toInt, second.toInt⟩ =
      some v) : (civilSeconds year month day hour minute second).toInt = v := by
  obtain ⟨y, era, yoe, doy, doe, days, hc⟩ := exists_computed h
  have hyear := toInt_year hc.marchYear
  have hera := toInt_era (hyear.symm ▸ hc.eraOf)
  obtain ⟨fyoe, rfl⟩ := hc.yearOfEra
  obtain ⟨fdoy, rfl⟩ := hc.dayOfYear
  obtain ⟨fdoe, rfl⟩ := hc.dayOfEra
  obtain ⟨fdays, rfl⟩ := hc.epochDays
  obtain ⟨fsecond, rfl⟩ := hc.second
  unfold civilSeconds
  extract_lets y64 era64 yoe64 doy64 doe64 days64
  -- the literals are the numbers they show
  have h1 : (1 : Int64).toInt = 1 := rfl
  have h4 : (4 : Int64).toInt = 4 := rfl
  have h100 : (100 : Int64).toInt = 100 := rfl
  have h365 : (365 : Int64).toInt = 365 := rfl
  have h400 : (400 : Int64).toInt = 400 := rfl
  have h146097 : (146097 : Int64).toInt = 146097 := rfl
  have h719468 : (719468 : Int64).toInt = 719468 := rfl
  have h60 : (60 : Int64).toInt = 60 := rfl
  have h3600 : (3600 : Int64).toInt = 3600 := rfl
  have h86400 : (86400 : Int64).toInt = 86400 := rfl
  have hyoe : yoe64.toInt = y - era * 400 := toInt_sub_eq hyear (toInt_mul_eq hera h400 hc.eraStart) fyoe
  have hfourth := toInt_div_eq hyoe h4 (by decide)
  have hhundredth := toInt_div_eq hyoe h100 (by decide)
  have hdoy : doy64.toInt = _ := toInt_sub_eq (toInt_add_eq (toInt_monthStart hmonth) rfl hc.ofYear) h1 fdoy
  have hyears := toInt_add_eq (toInt_mul_eq hyoe h365 hc.years) hfourth hc.fourths
  have hdoe : doe64.toInt = _ := toInt_add_eq (toInt_sub_eq hyears hhundredth hc.hundredths) hdoy fdoe
  have hdays : days64.toInt = _ :=
    toInt_sub_eq (toInt_add_eq (toInt_mul_eq hera h146097 hc.eras) hdoe hc.ofEpoch) h719468 fdays
  have hmidnight := toInt_mul_eq hdays h86400 hc.midnight
  have huntilHour := toInt_add_eq hmidnight (toInt_mul_eq rfl h3600 hc.hours) hc.untilHour
  have huntilMinute := toInt_add_eq huntilHour (toInt_mul_eq rfl h60 hc.minutes) hc.untilMinute
  exact toInt_add_eq huntilMinute rfl fsecond

end Wrapping

/-! ## What is read -/

/-- The words of a date. -/
def HasWords (s day month year hour minute second : String) : Prop :=
  ∃ first time last, splitWhitespace s = [first, day, month, year, time, last] ∧
    splitChar ':' time = [hour, minute, second]

section Reading

variable {s : String}

/-- What is read from the words of a date, of any numbers. -/
def readWith {N R : Type} (number : String → Option N) (build : Nat → N → N → N → N → N → R) (s : String) :
    Option R :=
  match splitWhitespace s with
  | [_, day, month, year, time, _] => do
    let d ← number day
    let idx ← monthNames.findIdx? (· = month)
    let y ← number year
    match splitChar ':' time with
    | [hour, minute, second] => do
      let ho ← number hour
      let mi ← number minute
      let se ← number second
      some (build idx d y ho mi se)
    | _ => none
  | _ => none

theorem readWith_eq_some {N R : Type} {number : String → Option N} {build : Nat → N → N → N → N → N → R} {r : R} :
    readWith number build s = some r ↔ ∃ day month year hour minute second idx d y ho mi se,
      HasWords s day month year hour minute second ∧ monthNames.findIdx? (· = month) = some idx ∧
      number day = some d ∧ number year = some y ∧ number hour = some ho ∧ number minute = some mi ∧
      number second = some se ∧ r = build idx d y ho mi se := by
  constructor
  · intro h
    unfold readWith at h
    split at h
    · rename_i first day month year time last hwords
      obtain ⟨d, hday, h⟩ := Option.bind_eq_some_iff.mp h
      obtain ⟨idx, hmonth, h⟩ := Option.bind_eq_some_iff.mp h
      obtain ⟨y, hyear, h⟩ := Option.bind_eq_some_iff.mp h
      split at h
      · rename_i hour minute second htime
        obtain ⟨ho, hhour, h⟩ := Option.bind_eq_some_iff.mp h
        obtain ⟨mi, hminute, h⟩ := Option.bind_eq_some_iff.mp h
        obtain ⟨se, hsecond, h⟩ := Option.bind_eq_some_iff.mp h
        exact ⟨day, month, year, hour, minute, second, idx, d, y, ho, mi, se,
          ⟨first, time, last, hwords, htime⟩, hmonth, hday, hyear, hhour, hminute, hsecond,
          (Option.some.inj h).symm⟩
      · cases h
    · cases h
  · rintro ⟨day, month, year, hour, minute, second, idx, d, y, ho, mi, se, ⟨first, time, last, hwords, htime⟩,
      hmonth, hday, hyear, hhour, hminute, hsecond, rfl⟩
    unfold readWith
    rw [hwords]
    simp only [hday, hmonth, hyear, htime, hhour, hminute, hsecond, Option.bind_eq_bind, Option.bind_some]

theorem readFields_eq_some {fields : HttpDateFields} :
    readFields s = some fields ↔ ∃ day month year hour minute second idx,
      HasWords s day month year hour minute second ∧ monthNames.findIdx? (· = month) = some idx ∧
      fields.month = idx + 1 ∧ readInt day = some fields.day ∧ readInt year = some fields.year ∧
      readInt hour = some fields.hour ∧ readInt minute = some fields.minute ∧
      readInt second = some fields.second := by
  have hread : readFields s = readWith readInt (fun idx d y ho mi se => ⟨y, idx + 1, d, ho, mi, se⟩) s := rfl
  rw [hread, readWith_eq_some]
  constructor
  · rintro ⟨day, month, year, hour, minute, second, idx, d, y, ho, mi, se, hwords, hmonth, hday, hyear, hhour,
      hminute, hsecond, rfl⟩
    exact ⟨day, month, year, hour, minute, second, idx, hwords, hmonth, rfl, hday, hyear, hhour, hminute, hsecond⟩
  · rintro ⟨day, month, year, hour, minute, second, idx, hwords, hmonth, hidx, hday, hyear, hhour, hminute,
      hsecond⟩
    refine ⟨day, month, year, hour, minute, second, idx, _, _, _, _, _, hwords, hmonth, hday, hyear, hhour,
      hminute, hsecond, ?_⟩
    rw [← hidx]

theorem parseHttpDate_eq_some {v : Int64} :
    parseHttpDate s = some v ↔ ∃ day month year hour minute second idx d y ho mi se,
      HasWords s day month year hour minute second ∧ monthNames.findIdx? (· = month) = some idx ∧
      parseI64 day = some d ∧ parseI64 year = some y ∧ parseI64 hour = some ho ∧ parseI64 minute = some mi ∧
      parseI64 second = some se ∧ v = civilSeconds y (Int64.ofNat (idx + 1)) d ho mi se := by
  have hparse : parseHttpDate s =
      readWith parseI64 (fun idx d y ho mi se => civilSeconds y (Int64.ofNat (idx + 1)) d ho mi se) s := rfl
  rw [hparse, readWith_eq_some]

theorem parseI64_eq_some {text : String} {v : Int64} :
    parseI64 text = some v ↔ ∃ n, readInt text = some n ∧ FitsI64 n ∧ v = Int64.ofInt n := by
  rw [parseI64_eq]
  constructor
  · intro h
    obtain ⟨n, hn, rfl⟩ := Option.map_eq_some_iff.mp h
    obtain ⟨m, hm, hchecked⟩ := Option.bind_eq_some_iff.mp hn
    obtain ⟨hfits, rfl⟩ := checkedI64_eq_some.mp hchecked
    exact ⟨m, hm, hfits, rfl⟩
  · rintro ⟨n, hn, hfits, rfl⟩
    rw [hn, Option.bind_some, checkedI64_eq_some.mpr ⟨hfits, rfl⟩, Option.map_some]

end Reading

namespace HttpDateFields

/-- The second of the fields as values of `i64`. -/
def secondsOfFields (fields : HttpDateFields) : Int64 :=
  civilSeconds (Int64.ofInt fields.year) (Int64.ofInt fields.month) (Int64.ofInt fields.day)
    (Int64.ofInt fields.hour) (Int64.ofInt fields.minute) (Int64.ofInt fields.second)

variable {fields : HttpDateFields}

/-- Read numbers that are values of `i64` give a second. -/
theorem parse_of_fits {s : String} (h : readFields s = some fields) (hfits : fields.Fits) :
    parseHttpDate s = some (secondsOfFields fields) := by
  obtain ⟨day, month, year, hour, minute, second, idx, hwords, hmonth, hidx, hday, hyear, hhour, hminute,
    hsecond⟩ := readFields_eq_some.mp h
  have hnumber : ∀ {text : String} {n : Int}, readInt text = some n → FitsI64 n →
      parseI64 text = some (Int64.ofInt n) := fun hn hfits => parseI64_eq_some.mpr ⟨_, hn, hfits, rfl⟩
  refine parseHttpDate_eq_some.mpr ⟨day, month, year, hour, minute, second, idx, _, _, _, _, _, hwords, hmonth,
    hnumber hday hfits.day, hnumber hyear hfits.year, hnumber hhour hfits.hour, hnumber hminute hfits.minute,
    hnumber hsecond hfits.second, ?_⟩
  unfold secondsOfFields
  rw [hidx]
  rfl

/-- A second was read from numbers that are. -/
theorem fits_of_parse {s : String} (h : readFields s = some fields) {v : Int64}
    (hparse : parseHttpDate s = some v) : fields.Fits := by
  obtain ⟨day, month, year, hour, minute, second, idx, ⟨first, time, last, hwords, htime⟩, -, -, hday, hyear,
    hhour, hminute, hsecond⟩ := readFields_eq_some.mp h
  obtain ⟨day', month', year', hour', minute', second', idx', d, y, ho, mi, se,
    ⟨first', time', last', hwords', htime'⟩, -, hday', hyear', hhour', hminute', hsecond', -⟩ :=
    parseHttpDate_eq_some.mp hparse
  rw [hwords] at hwords'
  obtain ⟨rfl, rfl, rfl, rfl, rfl, rfl, -⟩ := by simpa using hwords'
  rw [htime] at htime'
  obtain ⟨rfl, rfl, rfl, -⟩ := by simpa using htime'
  have hnumber : ∀ {text : String} {n : Int} {v : Int64}, readInt text = some n → parseI64 text = some v →
      FitsI64 n := by
    intro text n v hn hv
    obtain ⟨m, hm, hfits, -⟩ := parseI64_eq_some.mp hv
    rw [hn] at hm
    exact Option.some.inj hm ▸ hfits
  exact ⟨hnumber hyear hyear', hnumber hday hday', hnumber hhour hhour', hnumber hminute hminute',
    hnumber hsecond hsecond'⟩

theorem month_of_read {s : String} (h : readFields s = some fields) : MonthOfYear fields.month := by
  obtain ⟨day, month, year, hour, minute, second, idx, -, hmonth, hidx, -⟩ := readFields_eq_some.mp h
  have hlt := (List.findIdx?_eq_some_iff_getElem.mp hmonth).1
  have htwelve : monthNames.length = 12 := rfl
  unfold MonthOfYear
  omega

/-- Without an overflow the second that is read is the exact one. -/
theorem secondsOfFields_of_checked (hfits : fields.Fits) (hmonth : MonthOfYear fields.month) {v : Int}
    (h : checkedCivilSeconds fields = some v) : (secondsOfFields fields).toInt = v := by
  have hvalue : ∀ {n : Int}, FitsI64 n → (Int64.ofInt n).toInt = n :=
    fun hfits => Int64.toInt_ofInt_of_le hfits.1 hfits.2
  have hmonth64 : (Int64.ofInt fields.month).toInt = fields.month := by
    unfold MonthOfYear at hmonth
    exact hvalue (by unfold FitsI64; omega)
  apply civilSeconds_of_checked
  · rw [hmonth64]
    exact hmonth
  · rw [hvalue hfits.year, hmonth64, hvalue hfits.day, hvalue hfits.hour, hvalue hfits.minute,
      hvalue hfits.second]
    exact h

/-! ## The days that `i64` reaches -/

theorem firstDay_valid : firstDay.Valid := ⟨by decide, by decide, by decide, by decide⟩

theorem lastDay_valid : lastDay.Valid := ⟨by decide, by decide, by decide, by decide⟩

theorem reachable_iff (hrange : fields.InRange) :
    fields.Reachable ↔ FitsI64 (fields.date.toDays * 86400) ∧ FitsI64 fields.seconds := by
  obtain ⟨hvalid, ⟨hhour, hhour'⟩, ⟨hminute, hminute'⟩, hsecond, hsecond'⟩ := hrange
  have hfirst : firstDay.toDays = -106751991167300 := by decide
  have hlast : lastDay.toDays = 106751991167300 := by decide
  have hbefore := Date.toDays_lt_iff hvalid firstDay_valid
  have hafter := Date.toDays_lt_iff hvalid lastDay_valid
  have hsame : fields.date = lastDay ↔ fields.date.toDays = lastDay.toDays :=
    ⟨fun h => h ▸ rfl, Date.toDays_inj hvalid lastDay_valid⟩
  have hreach : fields.Reachable ↔ ¬Date.Before fields.date firstDay ∧
      (Date.Before fields.date lastDay ∨ fields.date = lastDay ∧ fields.secsOfDay ≤ 15 * 3600 + 30 * 60 + 7) :=
    ⟨fun h => ⟨h.first, h.last⟩, fun h => ⟨h.1, h.2⟩⟩
  rw [hreach, ← hbefore, ← hafter, hsame, hfirst, hlast]
  unfold FitsI64 seconds secsOfDay
  omega

/-- **The arithmetic.**  A date of the calendar overflows nowhere exactly when it lies in these days. -/
theorem checked_isSome_iff (hrange : fields.InRange) :
    (∃ v, checkedCivilSeconds fields = some v) ↔ fields.Reachable := by
  rw [reachable_iff hrange]
  constructor
  · rintro ⟨v, h⟩
    exact (checked_exact ⟨hrange.date.month_pos, hrange.date.month_le⟩ h).2
  · rintro ⟨hmidnight, hseconds⟩
    exact ⟨_, checked_of_fits hrange hmidnight hseconds⟩

/-- **What is turned away.**  A text is turned away where its fields are none of the calendar's, and read
    without an overflow, exactly when it has no fields that are values of `i64`, or a date of the calendar
    in the days that `i64` reaches. -/
theorem strict_iff (s : String) :
    (∀ fields, readFields s = some fields →
      (¬fields.InRange → parseHttpDate s = none) ∧
      (fields.Fits → ∃ v, checkedCivilSeconds fields = some v)) ↔
    ∀ fields, readFields s = some fields → fields.Fits → fields.InRange ∧ fields.Reachable := by
  constructor
  · intro h fields hread hfits
    obtain ⟨hrejected, hexact⟩ := h fields hread
    have hrange : fields.InRange := by
      by_contra hrange
      have hnone := hrejected hrange
      rw [parse_of_fits hread hfits] at hnone
      cases hnone
    exact ⟨hrange, (checked_isSome_iff hrange).mp (hexact hfits)⟩
  · intro h fields hread
    refine ⟨fun hrange => ?_, fun hfits => ?_⟩
    · cases hparse : parseHttpDate s with
      | none => rfl
      | some v => exact absurd (h fields hread (fits_of_parse hread hparse)).1 hrange
    · obtain ⟨hrange, hreach⟩ := h fields hread hfits
      exact (checked_isSome_iff hrange).mpr hreach

end HttpDateFields

/-! ## There and back -/

/-- Text without white space. -/
def IsWord (s : String) : Prop := s ≠ "" ∧ ∀ c ∈ s.toList, isWhitespace c = false

/-- Words are read back from their joint text. -/
theorem splitWhitespace_words {words : List String} (hne : words ≠ [])
    (hwords : ∀ w ∈ words, IsWord w) : splitWhitespace (" ".intercalate words) = words := by
  have hjoined : (" ".intercalate words).toList = [' '].intercalate (words.map String.toList) :=
    String.toList_intercalate
  have hsplit : (" ".intercalate words).toList.splitOnP isWhitespace = words.map String.toList := by
    rw [hjoined]
    apply Split.splitOnP_intercalate (by decide) fun h => hne (List.map_eq_nil_iff.mp h)
    intro l hl
    obtain ⟨w, hw, rfl⟩ := List.mem_map.mp hl
    exact (hwords w hw).2
  have hkept : (words.map String.toList).filter (· ≠ []) = words.map String.toList := by
    apply List.filter_eq_self.mpr
    intro l hl
    obtain ⟨w, hw, rfl⟩ := List.mem_map.mp hl
    exact decide_eq_true fun h => (hwords w hw).1 (String.toList_inj.mp h)
  unfold splitWhitespace
  rw [hsplit, hkept, List.map_map]
  conv_rhs => rw [← List.map_id words]
  exact List.map_congr_left fun w _ => String.ofList_toList

/-- A digit is neither white space nor a sign nor a colon. -/
theorem digit_plain {c : Char} (h : c.isDigit = true) :
    isWhitespace c = false ∧ c ≠ '-' ∧ c ≠ '+' ∧ c ≠ ':' := by
  have hrange : 48 ≤ c.toNat ∧ c.toNat ≤ 57 := by
    unfold Char.isDigit at h
    obtain ⟨hle, hge⟩ := Bool.and_eq_true_iff.mp h
    exact ⟨of_decide_eq_true hle, of_decide_eq_true hge⟩
  refine ⟨?_, ?_, ?_, ?_⟩
  · unfold isWhitespace
    simp
    omega
  all_goals
    rintro rfl
    exact absurd hrange (by decide)

/-- A padded number is read. -/
theorem readInt_showPadded (width n : Nat) : readInt (showPadded width n) = some n := by
  have hdigits : ∀ c ∈ (showPadded width n).toList, c.isDigit = true := fun c hc => isDigit_of_mem_showPadded hc
  have hsigned : signed (showPadded width n) = (false, (showPadded width n).toList) := by
    unfold signed
    split
    · rename_i rest heq
      exact absurd rfl (digit_plain (hdigits '-' (heq ▸ List.mem_cons_self))).2.1
    · rename_i rest heq
      exact absurd rfl (digit_plain (hdigits '+' (heq ▸ List.mem_cons_self))).2.2.1
    · rfl
  unfold readInt
  rw [hsigned]
  dsimp only
  rw [if_pos ⟨showPadded_ne_nil _ _, List.all_eq_true.mpr hdigits⟩, ofDigitChars_showPadded]
  rfl

theorem isWord_showPadded (width n : Nat) : IsWord (showPadded width n) :=
  ⟨fun h => showPadded_ne_nil width n (String.toList_inj.mpr h),
    fun _ hc => (digit_plain (isDigit_of_mem_showPadded hc)).1⟩

/-- The names of a table are words, each of them checked. -/
theorem isWord_getD {names : List String} {i : Nat}
    (hall : names.all (fun name => name ≠ "" && name.toList.all fun c => !isWhitespace c) = true)
    (hi : i < names.length) : IsWord (names.getD i "") := by
  have hmem : names.getD i "" ∈ names := by
    rw [List.getD_eq_getElem _ _ hi]
    exact List.getElem_mem hi
  obtain ⟨hne, hchars⟩ := Bool.and_eq_true_iff.mp (List.all_eq_true.mp hall _ hmem)
  refine ⟨of_decide_eq_true hne, fun c hc => ?_⟩
  rw [← Bool.not_eq_true']
  exact List.all_eq_true.mp hchars c hc

theorem isWord_dayName {i : Nat} (hi : i < 7) : IsWord (SlsLogger.dayNames.getD i "" ++ ",") := by
  have hname : IsWord (SlsLogger.dayNames.getD i "") := isWord_getD rfl hi
  constructor
  · intro h
    have hlist := congrArg String.toList h
    rw [String.toList_append] at hlist
    exact List.cons_ne_nil _ _ (List.append_eq_nil_iff.mp hlist).2
  · intro c hc
    rw [String.toList_append] at hc
    rcases List.mem_append.mp hc with hc | hc
    · exact hname.2 c hc
    · rw [List.mem_singleton.mp hc]
      rfl

theorem isWord_monthName {i : Nat} (hi : i < 12) : IsWord (SlsLogger.monthNames.getD i "") :=
  isWord_getD rfl hi

theorem timeText_eq (secsOfDay : Nat) :
    SlsLogger.timeText secsOfDay = (String.singleton ':').intercalate
      [showPadded 2 (secsOfDay / 3600), showPadded 2 (secsOfDay % 3600 / 60), showPadded 2 (secsOfDay % 60)] := by
  rw [← String.toList_inj]
  simp [SlsLogger.timeText]

theorem splitChar_timeText (secsOfDay : Nat) :
    splitChar ':' (SlsLogger.timeText secsOfDay) =
      [showPadded 2 (secsOfDay / 3600), showPadded 2 (secsOfDay % 3600 / 60), showPadded 2 (secsOfDay % 60)] := by
  have hcolon : ∀ width n, ':' ∉ (showPadded width n).toList :=
    fun width n h => (digit_plain (isDigit_of_mem_showPadded h)).2.2.2 rfl
  rw [timeText_eq, splitChar_intercalate (List.cons_ne_nil _ _)]
  intro s hs
  simp only [List.mem_cons, List.not_mem_nil, or_false] at hs
  rcases hs with rfl | rfl | rfl
  · exact hcolon _ _
  · exact hcolon _ _
  · exact hcolon _ _

theorem isWord_timeText (secsOfDay : Nat) : IsWord (SlsLogger.timeText secsOfDay) := by
  have hdigit : ∀ {width n c}, c ∈ (showPadded width n).toList → isWhitespace c = false :=
    fun hc => (digit_plain (isDigit_of_mem_showPadded hc)).1
  constructor
  · intro h
    have hlist := congrArg String.toList h
    unfold SlsLogger.timeText at hlist
    rw [String.toList_append] at hlist
    exact showPadded_ne_nil _ _ (List.append_eq_nil_iff.mp hlist).2
  · intro c hc
    unfold SlsLogger.timeText at hc
    simp only [String.toList_append, List.mem_append] at hc
    rcases hc with (((hc | hc) | hc) | hc) | hc
    · exact hdigit hc
    · rw [List.mem_singleton.mp hc]
      rfl
    · exact hdigit hc
    · rw [List.mem_singleton.mp hc]
      rfl
    · exact hdigit hc

/-- The words of a written date. -/
theorem dateText_eq (weekday year month day secsOfDay : Nat) :
    SlsLogger.dateText weekday year month day secsOfDay = " ".intercalate
      [SlsLogger.dayNames.getD weekday "" ++ ",", showPadded 2 day, SlsLogger.monthNames.getD month "",
        showPadded 4 year, SlsLogger.timeText secsOfDay, "GMT"] := by
  rw [← String.toList_inj]
  simp [SlsLogger.dateText]

theorem hasWords_dateText {weekday month : Nat} (hweekday : weekday < 7) (hmonth : month < 12)
    (year day secsOfDay : Nat) :
    HasWords (SlsLogger.dateText weekday year month day secsOfDay) (showPadded 2 day)
      (SlsLogger.monthNames.getD month "") (showPadded 4 year) (showPadded 2 (secsOfDay / 3600))
      (showPadded 2 (secsOfDay % 3600 / 60)) (showPadded 2 (secsOfDay % 60)) := by
  refine ⟨SlsLogger.dayNames.getD weekday "" ++ ",", SlsLogger.timeText secsOfDay, "GMT", ?_,
    splitChar_timeText secsOfDay⟩
  rw [dateText_eq]
  apply splitWhitespace_words (List.cons_ne_nil _ _)
  intro w hw
  simp only [List.mem_cons, List.not_mem_nil, or_false] at hw
  rcases hw with rfl | rfl | rfl | rfl | rfl | rfl
  · exact isWord_dayName hweekday
  · exact isWord_showPadded _ _
  · exact isWord_monthName hmonth
  · exact isWord_showPadded _ _
  · exact isWord_timeText _
  · exact (isWord_getD rfl (by decide) : IsWord (["GMT"].getD 0 ""))

/-- The second at which the year 10000 begins. -/
def year10000 : Nat := 253402300800

example : Date.toDays ⟨10000, 1, 1⟩ * 86400 = year10000 := by decide

/-- The fields of what is written for a date, whose months count from 0, and a second of the day. -/
def writtenFields (year month day secsOfDay : Nat) : HttpDateFields where
  year := year
  month := month + 1
  day := day
  hour := (secsOfDay / 3600 : Nat)
  minute := (secsOfDay % 3600 / 60 : Nat)
  second := (secsOfDay % 60 : Nat)

section Written

variable {weekday year month day secsOfDay : Nat}

theorem readFields_dateText (hweekday : weekday < 7) (hmonth : month < 12) (year day secsOfDay : Nat) :
    readFields (SlsLogger.dateText weekday year month day secsOfDay) =
      some (writtenFields year month day secsOfDay) := by
  have hmonthName : ∀ i < 12, monthNames.findIdx? (· = SlsLogger.monthNames.getD i "") = some i := by decide
  exact readFields_eq_some.mpr ⟨_, _, _, _, _, _, month, hasWords_dateText hweekday hmonth year day secsOfDay,
    hmonthName month hmonth, rfl, readInt_showPadded _ _, readInt_showPadded _ _, readInt_showPadded _ _,
    readInt_showPadded _ _, readInt_showPadded _ _⟩

theorem writtenFields_inRange (hvalid : Date.Valid ⟨year, month + 1, day⟩) (hsecs : secsOfDay < 86400) :
    (writtenFields year month day secsOfDay).InRange := by
  refine ⟨hvalid, ?_, ?_, ?_⟩
  · show 0 ≤ ((secsOfDay / 3600 : Nat) : Int) ∧ ((secsOfDay / 3600 : Nat) : Int) < 24
    omega
  · show 0 ≤ ((secsOfDay % 3600 / 60 : Nat) : Int) ∧ ((secsOfDay % 3600 / 60 : Nat) : Int) < 60
    omega
  · show 0 ≤ ((secsOfDay % 60 : Nat) : Int) ∧ ((secsOfDay % 60 : Nat) : Int) < 60
    omega

theorem writtenFields_fits (hvalid : Date.Valid ⟨year, month + 1, day⟩) (hyear : year < 10000)
    (hsecs : secsOfDay < 86400) : (writtenFields year month day secsOfDay).Fits := by
  have hday := hvalid.day_le
  have hlength := monthLength_le year (month + 1)
  dsimp only at hday
  refine ⟨?_, ?_, ?_, ?_, ?_⟩
  · show FitsI64 (year : Int)
    unfold FitsI64
    omega
  · show FitsI64 (day : Int)
    unfold FitsI64
    omega
  · show FitsI64 ((secsOfDay / 3600 : Nat) : Int)
    unfold FitsI64
    omega
  · show FitsI64 ((secsOfDay % 3600 / 60 : Nat) : Int)
    unfold FitsI64
    omega
  · show FitsI64 ((secsOfDay % 60 : Nat) : Int)
    unfold FitsI64
    omega

/-- A date before the year 10000 has four digits. -/
theorem year_lt_of_toDays (hvalid : Date.Valid ⟨year, month + 1, day⟩)
    (hdays : Date.toDays ⟨year, month + 1, day⟩ < Date.toDays ⟨10000, 1, 1⟩) : year < 10000 := by
  have hlast : Date.Valid ⟨10000, 1, 1⟩ := ⟨by decide, by decide, by decide, by decide⟩
  have hbefore := (Date.toDays_lt_iff hvalid hlast).mp hdays
  have hpos := hvalid.month_pos
  have hday := hvalid.day_pos
  simp only [Date.Before] at hbefore hpos hday
  omega

end Written

/-- **There and back.**  What is written for a second before the year 10000 is read as that second. -/
theorem parseHttpDate_formatHttpDate {t : Nat} (ht : t < year10000) :
    ∃ text, SlsLogger.formatHttpDate t = some text ∧ parseHttpDate text = some (Int64.ofNat t) := by
  unfold year10000 at ht
  obtain ⟨year, month, day, hdate, hmonth, hclosed⟩ := SlsLogger.civilDate_eq (t / 86400)
  have hvalid := fromDays_valid ((t / 86400 : Nat) : Int)
  have hdays := toDays_fromDays ((t / 86400 : Nat) : Int)
  rw [hclosed] at hvalid hdays
  have hsecs : t % 86400 < 86400 := Nat.mod_lt _ (by decide)
  refine ⟨SlsLogger.dateText (t / 86400 % 7) year month day (t % 86400), ?_, ?_⟩
  · unfold SlsLogger.formatHttpDate
    rw [hdate]
    rfl
  have hread := readFields_dateText (Nat.mod_lt (t / 86400) (by decide : 7 > 0)) hmonth year day (t % 86400)
  have hyear : year < 10000 := by
    have hlast : Date.toDays ⟨10000, 1, 1⟩ = 2932897 := by decide
    refine year_lt_of_toDays hvalid ?_
    omega
  have hfits := writtenFields_fits hvalid hyear hsecs
  have hseconds : (writtenFields year month day (t % 86400)).seconds = t := by
    show Date.toDays ⟨year, month + 1, day⟩ * 86400 + (((t % 86400 / 3600 : Nat) : Int) * 3600 +
      ((t % 86400 % 3600 / 60 : Nat) : Int) * 60 + ((t % 86400 % 60 : Nat) : Int)) = t
    rw [hdays]
    omega
  have hchecked : checkedCivilSeconds (writtenFields year month day (t % 86400)) = some (t : Int) := by
    rw [← hseconds]
    apply checked_of_fits (writtenFields_inRange hvalid hsecs)
    · show FitsI64 (Date.toDays ⟨year, month + 1, day⟩ * 86400)
      rw [hdays]
      unfold FitsI64
      omega
    · rw [hseconds]
      unfold FitsI64
      omega
  rw [HttpDateFields.parse_of_fits hread hfits, Option.some_inj, ← Int64.toInt_inj,
    HttpDateFields.secondsOfFields_of_checked hfits (HttpDateFields.month_of_read hread) hchecked,
    Int64.toInt_ofNat_of_lt (by omega)]

/-! ## The four calendars -/

/-- **The four calendars.**  The logger's dates are read back, all formatters name one date, and a text is
    turned away where its fields are none of the calendar's, and read without an overflow, exactly when it
    has no fields that are values of `i64`, or those of a date that `i64` reaches. -/
theorem http_dates (t millis : Nat) (s : String) :
    (t < year10000 → ∃ text,
      SlsLogger.formatHttpDate t = some text ∧ parseHttpDate text = some (Int64.ofNat t)) ∧
    (t < year10000 → ∃ year month day : Nat, month < 12 ∧
      SlsLogger.formatHttpDate t =
        some (SlsLogger.dateText (t / 86400 % 7) year month day (t % 86400)) ∧
      Syslog.formatRfc3339 t millis =
        showPadded 4 year ++ "-" ++ showPadded 2 (month + 1) ++ "-" ++ showPadded 2 day ++ "T" ++
          SlsLogger.timeText (t % 86400) ++ "." ++ showPadded 3 millis ++ "Z" ∧
      AwsLambda.civilFromDays (t / 86400 : Nat) = ((year : Int), month + 1, day)) ∧
    ((∀ fields, readFields s = some fields →
        (¬fields.InRange → parseHttpDate s = none) ∧
        (fields.Fits → ∃ v, checkedCivilSeconds fields = some v)) ↔
      ∀ fields, readFields s = some fields → fields.Fits → fields.InRange ∧ fields.Reachable) :=
  ⟨fun ht => parseHttpDate_formatHttpDate ht, fun _ => calendars_agree t millis, HttpDateFields.strict_iff s⟩

/-- The thirtieth of February is read, and a large year overflows. -/
theorem february_thirtieth_read :
    (∃ fields, readFields "Fri, 30 Feb 2024 00:00:00 GMT" = some fields ∧ ¬fields.InRange ∧
      parseHttpDate "Fri, 30 Feb 2024 00:00:00 GMT" ≠ none) ∧
    ∃ fields, readFields "Fri, 01 Jan 9223372036854775807 00:00:00 GMT" = some fields ∧ fields.Fits ∧
      checkedCivilSeconds fields = none := by
  have hread : readFields "Fri, 30 Feb 2024 00:00:00 GMT" = some ⟨2024, 2, 30, 0, 0, 0⟩ := rfl
  have hfits : HttpDateFields.Fits ⟨2024, 2, 30, 0, 0, 0⟩ :=
    ⟨by decide, by decide, by decide, by decide, by decide⟩
  refine ⟨⟨_, hread, ?_, ?_⟩, ⟨9223372036854775807, 1, 1, 0, 0, 0⟩, rfl, ?_, by decide⟩
  · intro hrange
    have hday := hrange.date.day_le
    revert hday
    decide
  · rw [HttpDateFields.parse_of_fits hread hfits]
    exact Option.some_ne_none _
  · exact ⟨by decide, by decide, by decide, by decide, by decide⟩

end Featherbit
