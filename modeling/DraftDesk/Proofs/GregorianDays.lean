import DraftDesk.Calendar
import Mathlib.Order.Monotone.Basic
import Mathlib.Tactic.IntervalCases

/-!
# The days of the calendar

The rules of the calendar say how long its months are and which date comes next. Dates are numbered
from the first of January 1970 by these rules, and `ofDays` gives the date with a number: it gives
each date of the calendar once, and nothing else.
-/

namespace DraftDesk.Date

/-! ## The rules -/

/-- Every fourth year has a leap day, but of the full centuries only every fourth. -/
def IsLeap (year : Int) : Prop := year % 4 = 0 ∧ (year % 100 ≠ 0 ∨ year % 400 = 0)

instance (year : Int) : Decidable (IsLeap year) := inferInstanceAs (Decidable (_ ∧ _))

def monthLength (year : Int) (month : Nat) : Nat :=
  if month = 2 then if IsLeap year then 29 else 28
  else if month ∈ [4, 6, 9, 11] then 30
  else 31

/-- A date that the calendar has. -/
structure Valid (d : Date) : Prop where
  month : 1 ≤ d.month ∧ d.month ≤ 12
  day : 1 ≤ d.day ∧ d.day ≤ monthLength d.year d.month

/-- The date of the day after. -/
def next (d : Date) : Date :=
  if d.day < monthLength d.year d.month then ⟨d.year, d.month, d.day + 1⟩
  else if d.month < 12 then ⟨d.year, d.month + 1, 1⟩
  else ⟨d.year + 1, 1, 1⟩

/-- The days from the first of January 1970 to the beginning of a year. -/
def yearStart (year : Int) : Int :=
  365 * (year - 1970) + (year - 1) / 4 - (year - 1) / 100 + (year - 1) / 400 - 477

/-- The days of a year before a month. -/
def monthStart (year : Int) : Nat → Nat
  | 0 | 1 => 0
  | month + 2 => monthStart year (month + 1) + monthLength year (month + 1)

/-- The days from the first of January 1970 to a date. -/
def dayNumber (d : Date) : Int := yearStart d.year + monthStart d.year d.month + d.day - 1

variable {year days : Int} {month : Nat} {d e : Date}

theorem monthLength_pos (year : Int) (month : Nat) : 0 < monthLength year month := by
  unfold monthLength
  split_ifs <;> omega

theorem monthStart_succ (year : Int) (h : 1 ≤ month) :
    monthStart year (month + 1) = monthStart year month + monthLength year month := by
  obtain ⟨month, rfl⟩ := Nat.exists_eq_add_of_le' h
  rfl

theorem monthStart_mono (year : Int) : Monotone (monthStart year) := by
  refine monotone_nat_of_le_succ fun month => ?_
  cases month with
  | zero => exact le_rfl
  | succ month =>
    rw [monthStart_succ year month.succ_pos]
    exact Nat.le_add_right ..

/-- The twelve months are a year. -/
theorem yearStart_add_one (year : Int) : yearStart (year + 1) = yearStart year + monthStart year 13 := by
  by_cases leap : IsLeap year
  all_goals
    simp only [monthStart, monthLength, leap]
    unfold IsLeap at leap
    simp [yearStart]
    omega

theorem yearStart_mono {y z : Int} (h : y ≤ z) : yearStart y ≤ yearStart z := by
  refine monotone_int_of_le_succ (fun year => ?_) h
  rw [yearStart_add_one]
  exact Int.le_add_of_nonneg_right (Int.natCast_nonneg _)

theorem dayNumber_next (h : d.Valid) : d.next.dayNumber = d.dayNumber + 1 := by
  unfold next
  split_ifs with inMonth inYear
  · simp [dayNumber]
    omega
  · have last : d.day = monthLength d.year d.month := le_antisymm h.day.2 (not_lt.1 inMonth)
    simp [dayNumber, monthStart_succ d.year h.month.1, last]
    omega
  · have last : d.day = monthLength d.year d.month := le_antisymm h.day.2 (not_lt.1 inMonth)
    have december : d.month = 12 := le_antisymm h.month.2 (not_lt.1 inYear)
    simp [dayNumber, yearStart_add_one, last, december, monthStart]
    omega

theorem valid_next (h : d.Valid) : d.next.Valid := by
  unfold next
  split_ifs with inMonth inYear
  · exact ⟨h.month, Nat.succ_pos _, inMonth⟩
  · exact ⟨⟨by simp, inYear⟩, le_rfl, monthLength_pos ..⟩
  · exact ⟨by simp, le_rfl, monthLength_pos ..⟩

theorem dayNumber_mem_year (h : d.Valid) :
    yearStart d.year ≤ d.dayNumber ∧ d.dayNumber < yearStart (d.year + 1) := by
  have inYear := monthStart_mono d.year (show d.month + 1 ≤ 13 from Nat.succ_le_succ h.month.2)
  rw [monthStart_succ d.year h.month.1] at inYear
  have inMonth := h.day
  rw [yearStart_add_one, dayNumber]
  omega

/-- Days lie within their years and months, and these do not overlap, so that no two dates of the
calendar have one number. -/
theorem eq_of_dayNumber (hd : d.Valid) (he : e.Valid) (same : d.dayNumber = e.dayNumber) : d = e := by
  obtain ⟨dLow, dHigh⟩ := dayNumber_mem_year hd
  obtain ⟨eLow, eHigh⟩ := dayNumber_mem_year he
  have year : d.year = e.year := by
    rcases lt_trichotomy d.year e.year with before | same | after
    · have := yearStart_mono (show d.year + 1 ≤ e.year by omega)
      omega
    · exact same
    · have := yearStart_mono (show e.year + 1 ≤ d.year by omega)
      omega
  have dDay := hd.day
  have eDay := he.day
  have month : d.month = e.month := by
    simp only [dayNumber, year] at same
    rw [year] at dDay
    rcases lt_trichotomy d.month e.month with before | same | after
    · have := monthStart_mono e.year (Nat.succ_le_of_lt before)
      rw [monthStart_succ e.year hd.month.1] at this
      omega
    · exact same
    · have := monthStart_mono e.year (Nat.succ_le_of_lt after)
      rw [monthStart_succ e.year he.month.1] at this
      omega
  have day : d.day = e.day := by
    simp only [dayNumber, year, month] at same
    omega
  obtain ⟨_, _, _⟩ := d
  obtain ⟨_, _, _⟩ := e
  simp_all

theorem monthStart_three (year : Int) : monthStart year 3 = if IsLeap year then 60 else 59 := by
  by_cases leap : IsLeap year <;> simp [monthStart, monthLength, leap]

/-! ## Years from March -/

/-- The date of a day of a year that begins with March. -/
def ofMarch (year day : Int) : Date :=
  let month := (5 * day + 2) / 153
  let date := day - (153 * month + 2) / 5 + 1
  if month < 10 then ⟨year, (month + 3).toNat, date.toNat⟩
  else ⟨year + 1, (month - 9).toNat, date.toNat⟩

/-- The days from the first of March to the month that comes so many months later. -/
def marchStart (month : Nat) : Nat := (153 * month + 2) / 5

/-- The months from March to December last 30 or 31 days in turn, as evenly as they can. -/
theorem marchStart_add_one (year : Int) (h : month < 10) :
    marchStart (month + 1) = marchStart month + monthLength year (month + 3) := by
  interval_cases month <;> simp [marchStart, monthLength]

theorem monthStart_add_three (year : Int) (h : month ≤ 10) :
    monthStart year (month + 3) = monthStart year 3 + marchStart month := by
  induction month with
  | zero => rfl
  | succ month ih =>
    rw [show month + 1 + 3 = month + 3 + 1 by omega, monthStart_succ year (by omega),
      ih (by omega), marchStart_add_one year (by omega)]
    omega

/-- The ten months from March on have 306 days. -/
theorem yearStart_march (year : Int) :
    yearStart year + monthStart year 3 = yearStart (year + 1) - 306 := by
  have december : monthStart year 13 = monthStart year 3 + marchStart 10 :=
    monthStart_add_three year le_rfl
  have february : marchStart 10 = 306 := rfl
  rw [yearStart_add_one, december, february]
  omega

theorem ofMarch_of_lt (year : Int) (low : 0 ≤ days) (high : days < 306) :
    (ofMarch year days).Valid ∧
      (ofMarch year days).dayNumber = yearStart (year + 1) + days - 306 := by
  obtain ⟨day, rfl⟩ := Int.eq_ofNat_of_zero_le low
  obtain ⟨month, is⟩ : ∃ month : Nat, (5 * (day : Int) + 2) / 153 = month :=
    Int.eq_ofNat_of_zero_le (by omega)
  have fromMarch : month < 10 := by omega
  have inMonth : marchStart month ≤ day ∧ day < marchStart (month + 1) := by
    unfold marchStart
    omega
  have date : ofMarch year day = ⟨year, month + 3, day - marchStart month + 1⟩ := by
    unfold ofMarch marchStart
    simp only [is]
    rw [if_pos (by omega)]
    congr 1
    omega
  have next := marchStart_add_one year fromMarch
  have start := monthStart_add_three year fromMarch.le
  have march := yearStart_march year
  rw [date]
  constructor
  · refine ⟨⟨Nat.le_add_left .., ?_⟩, ⟨Nat.le_add_left .., ?_⟩⟩ <;> simp only <;> omega
  · simp only [dayNumber]
    omega

theorem ofMarch_of_le (year : Int) (low : 306 ≤ days)
    (high : days < 306 + monthStart (year + 1) 3) :
    (ofMarch year days).Valid ∧
      (ofMarch year days).dayNumber = yearStart (year + 1) + days - 306 := by
  have february : monthStart (year + 1) 3 = 31 + monthLength (year + 1) 2 := by
    simp [monthStart, monthLength]
  have short : monthLength (year + 1) 2 ≤ 29 := by
    unfold monthLength
    split_ifs <;> omega
  obtain ⟨day, rfl⟩ := Int.eq_ofNat_of_zero_le (show 0 ≤ days by omega)
  by_cases first : day < 337
  · have date : ofMarch year day = ⟨year + 1, 1, day - 305⟩ := by
      have is : (5 * (day : Int) + 2) / 153 = 10 := by omega
      simp only [ofMarch, is]
      rw [if_neg (by decide), Date.mk.injEq]
      exact ⟨rfl, rfl, by omega⟩
    have january : monthLength (year + 1) 1 = 31 := rfl
    rw [date]
    constructor
    · refine ⟨by simp, ⟨?_, ?_⟩⟩ <;> simp only <;> omega
    · simp only [dayNumber, monthStart]
      omega
  · have date : ofMarch year day = ⟨year + 1, 2, day - 336⟩ := by
      have is : (5 * (day : Int) + 2) / 153 = 11 := by omega
      simp only [ofMarch, is]
      rw [if_neg (by decide), Date.mk.injEq]
      exact ⟨rfl, rfl, by omega⟩
    have january : monthStart (year + 1) 2 = 31 := rfl
    rw [date]
    constructor
    · refine ⟨by simp, ⟨?_, ?_⟩⟩ <;> simp only <;> omega
    · simp only [dayNumber, january]
      omega

/-! ## Years of an era -/

/-- A day of an era by centuries, cycles of four years, years and days, where the leap day ends the
last year of a cycle, and the last cycle of a century has one in the last century only. -/
structure Cycles (dayOfEra century cycle year day : Int) : Prop where
  inEra : 0 ≤ century ∧ century ≤ 3
  inCentury : 0 ≤ cycle ∧ cycle ≤ 24
  inCycle : 0 ≤ year ∧ year ≤ 3
  inYear : 0 ≤ day ∧ day ≤ 365
  leap : day = 365 → year = 3 ∧ (cycle < 24 ∨ century = 3)
  sum : dayOfEra = 36524 * century + 1461 * cycle + 365 * year + day

variable {dayOfEra c q p r : Int}

theorem exists_cycles (low : 0 ≤ dayOfEra) (high : dayOfEra < 146097) :
    ∃ century cycle year day, Cycles dayOfEra century cycle year day := by
  obtain ⟨century, rest, hundred, last, sum⟩ : ∃ century rest,
      (0 ≤ century ∧ century ≤ 3) ∧ (0 ≤ rest ∧ rest ≤ 36524 ∧ (rest = 36524 → century = 3)) ∧
      dayOfEra = 36524 * century + rest :=
    ⟨min (dayOfEra / 36524) 3, dayOfEra - 36524 * min (dayOfEra / 36524) 3, by omega⟩
  obtain ⟨cycle, rest', four, last', rfl⟩ : ∃ cycle rest',
      (0 ≤ cycle ∧ cycle ≤ 24) ∧ (0 ≤ rest' ∧ rest' ≤ 1460) ∧ rest = 1461 * cycle + rest' :=
    ⟨rest / 1461, rest % 1461, by omega⟩
  obtain ⟨year, day, one, last'', rfl⟩ : ∃ year day,
      (0 ≤ year ∧ year ≤ 3) ∧ (0 ≤ day ∧ day ≤ 365 ∧ (day = 365 → year = 3)) ∧
      rest' = 365 * year + day :=
    ⟨min (rest' / 365) 3, rest' - 365 * min (rest' / 365) 3, by omega⟩
  exact ⟨century, cycle, year, day, hundred, four, one, by omega, by omega, by omega⟩

/-- Without the leap days before, a day of an era is a day of years of 365 days. -/
theorem Cycles.yearOfEra (h : Cycles dayOfEra c q p r) :
    (dayOfEra - dayOfEra / 1460 + dayOfEra / 36524 - dayOfEra / 146096) / 365 =
      100 * c + 4 * q + p := by
  obtain ⟨inEra, inCentury, inCycle, inYear, leap, rfl⟩ := h
  -- The quotient by 1460 runs ahead of the cycles, so that a leap day may be counted within its year,
  -- but not on the first day of the year, and never later than on the leap day itself.
  obtain ⟨counted, is, late⟩ : ∃ counted,
      (36524 * c + 1461 * q + 365 * p + r) / 1460 = 25 * c + q + counted ∧
      (counted = 0 ∧ r < 365 ∨ counted = 1 ∧ 0 < r) := by
    by_cases h : 24 * c + q + 365 * p + r < 1460
    · exact ⟨0, by omega, by omega⟩
    · exact ⟨1, by omega, by omega⟩
  have centuries : (36524 * c + 1461 * q + 365 * p + r) / 36524 -
      (36524 * c + 1461 * q + 365 * p + r) / 146096 = c := by
    obtain rfl | rfl | rfl | rfl : c = 0 ∨ c = 1 ∨ c = 2 ∨ c = 3 := by omega
    all_goals omega
  omega

theorem ofDays_eq (h : Cycles ((days + 719468) % 146097) c q p r) :
    ofDays days = ofMarch ((days + 719468) / 146097 * 400 + (100 * c + 4 * q + p)) r := by
  have dayOfYear : (days + 719468) % 146097 - (365 * (100 * c + 4 * q + p) +
      (100 * c + 4 * q + p) / 4 - (100 * c + 4 * q + p) / 100) = r := by
    obtain ⟨inEra, inCentury, inCycle, inYear, leap, sum⟩ := h
    have byFour : (100 * c + 4 * q + p) / 4 = 25 * c + q := by omega
    have byHundred : (100 * c + 4 * q + p) / 100 = c := by omega
    omega
  simp only [ofDays, ofMarch, h.yearOfEra, dayOfYear]

theorem Cycles.yearStart (h : Cycles dayOfEra c q p r) (era : Int) :
    yearStart (era * 400 + (100 * c + 4 * q + p) + 1) = era * 146097 + dayOfEra - 719162 - r := by
  obtain ⟨inEra, inCentury, inCycle, inYear, leap, rfl⟩ := h
  have byFour : (era * 400 + (100 * c + 4 * q + p)) / 4 = era * 100 + 25 * c + q := by omega
  have byHundred : (era * 400 + (100 * c + 4 * q + p)) / 100 = era * 4 + c := by omega
  have byEra : (era * 400 + (100 * c + 4 * q + p)) / 400 = era := by omega
  simp only [Date.yearStart, Int.add_sub_cancel, byFour, byHundred, byEra]
  omega

/-- A day with the number 365 of a year from March is the leap day of the next year. -/
theorem Cycles.isLeap (h : Cycles dayOfEra c q p 365) (era : Int) :
    IsLeap (era * 400 + (100 * c + 4 * q + p) + 1) := by
  obtain ⟨rfl, last⟩ := h.leap rfl
  have inCentury := h.inCentury
  have inEra := h.inEra
  unfold IsLeap
  omega

/-- The date of a day is a date of the calendar and has the number of the day. -/
theorem ofDays_spec (days : Int) : (ofDays days).Valid ∧ (ofDays days).dayNumber = days := by
  obtain ⟨c, q, p, r, cycles⟩ : ∃ c q p r, Cycles ((days + 719468) % 146097) c q p r :=
    exists_cycles (by omega) (by omega)
  obtain ⟨era, inEra⟩ : ∃ era, (days + 719468) / 146097 = era := ⟨_, rfl⟩
  rw [ofDays_eq cycles, inEra]
  have start := cycles.yearStart era
  have inYear := cycles.inYear
  have number : yearStart (era * 400 + (100 * c + 4 * q + p) + 1) + r - 306 = days := by omega
  rw [← number]
  by_cases early : r < 306
  · exact ofMarch_of_lt _ inYear.1 early
  · refine ofMarch_of_le _ (by omega) ?_
    rw [monthStart_three]
    by_cases leapDay : r = 365
    · subst leapDay
      simp [cycles.isLeap era]
    · split_ifs <;> omega

theorem ofDays_eq_iff : ofDays days = d ↔ d.Valid ∧ d.dayNumber = days := by
  obtain ⟨valid, number⟩ := ofDays_spec days
  constructor
  · rintro rfl
    exact ⟨valid, number⟩
  · rintro ⟨h, same⟩
    exact eq_of_dayNumber valid h (number.trans same.symm)

/-- The next day has the next date. -/
theorem ofDays_add_one (days : Int) : ofDays (days + 1) = (ofDays days).next := by
  obtain ⟨valid, number⟩ := ofDays_spec days
  exact ofDays_eq_iff.2 ⟨valid_next valid, by rw [dayNumber_next valid, number]⟩

/-- From any day on, the dates are those that the calendar counts. -/
theorem iterate_next (days : Int) (n : Nat) : next^[n] (ofDays days) = ofDays (days + n) := by
  induction n with
  | zero => simp
  | succ n ih =>
    rw [Function.iterate_succ_apply', ih, ← ofDays_add_one, Nat.cast_succ, add_assoc]

example : ofDays 0 = ⟨1970, 1, 1⟩ := by decide

end DraftDesk.Date
