import DraftDesk.Pieces
import DraftDesk.Proofs.GregorianDays

/-!
# Dates of headers

A date of a header is a text of six pieces between blanks: the weekday, the day, the month, the
year, the time and the name of universal time. A moment that is written so is read back
(`read?_httpDate`): the text has a date of the calendar, its weekday and its second.
-/

namespace DraftDesk

/-- What the date of a header says; weekdays are counted from Monday. -/
structure Stamp where
  weekday : Nat
  date : Date
  hour : Nat
  minute : Nat
  second : Nat
  deriving DecidableEq, Repr

namespace Stamp
open Pieces

/-- The calendar has the date, on the weekday, and the day has the time. The first of January 1970
was a Thursday. -/
structure Valid (s : Stamp) : Prop where
  date : s.date.Valid
  weekday : (s.weekday : Int) = (s.date.dayNumber + 3) % 7
  hour : s.hour < 24
  minute : s.minute < 60
  second : s.second < 60

/-- The seconds from the beginning of 1970. -/
def unixSecond (s : Stamp) : Int :=
  86400 * s.date.dayNumber + 3600 * s.hour + 60 * s.minute + s.second

/-! ## Reading -/

def weekdays : List String := ["Mon", "Tue", "Wed", "Thu", "Fri", "Sat", "Sun"]

def months : List String :=
  ["Jan", "Feb", "Mar", "Apr", "May", "Jun", "Jul", "Aug", "Sep", "Oct", "Nov", "Dec"]

/-- The hour, the minute and the second of a time. -/
def time? (text : List Char) : Option (Nat × Nat × Nat) :=
  match split (· == ':') text with
  | [hour, minute, second] => do
    return (← Decimal.nat? hour, ← Decimal.nat? minute, ← Decimal.nat? second)
  | _ => none

/-- Reads a date as headers have it. -/
def read? (text : String) : Option Stamp :=
  match split (· == ' ') text.toList with
  | [weekday, day, month, year, time, zone] => do
    guard (zone = ['G', 'M', 'T'])
    let (hour, minute, second) ← time? time
    return {
      weekday := ← weekdays.findIdx? fun name => name.toList ++ [','] = weekday
      date := {
        year := ← Decimal.signed? year
        month := (← months.findIdx? fun name => name.toList = month) + 1
        day := ← Decimal.nat? day }
      hour, minute, second }
  | _ => none

/-! ## Pieces -/

/-- A piece has letters, digits and the signs of a number, so that nothing in it cuts a text. -/
def Plain (piece : List Char) : Prop := ∀ c ∈ piece, c.isAlphanum ∨ c = '+' ∨ c = '-'

instance (piece : List Char) : Decidable (Plain piece) := List.decidableBAll _ _

variable {piece : List Char} {separator : Char}

theorem Plain.not_mem (h : Plain piece) (cuts : ¬ Plain [separator]) : separator ∉ piece :=
  fun inside => cuts (by simpa [Plain] using h separator inside)

/-- The name of a weekday is read as its place among the names. -/
theorem weekdayName_spec (days : Int) :
    (weekdays.findIdx? fun name => name.toList ++ [','] = (Date.weekdayName days).toList ++ [',']) =
        some ((days + 3) % 7).toNat ∧
      Plain (Date.weekdayName days).toList := by
  have table : ∀ late ∈ List.range 7,
      (weekdays.findIdx? fun name =>
          name.toList ++ [','] = (Date.weekdayName (late : Int)).toList ++ [',']) =
          some ((late + 3) % 7) ∧
        Plain (Date.weekdayName (late : Int)).toList := by decide
  obtain ⟨late, within, name, place⟩ : ∃ late ∈ List.range 7,
      Date.weekdayName (late : Int) = Date.weekdayName days ∧
      ((days + 3) % 7).toNat = (late + 3) % 7 := by
    refine ⟨(days % 7).toNat, List.mem_range.2 (by omega), ?_, by omega⟩
    simp only [Date.weekdayName]
    congr 1
    omega
  rw [← name, place]
  exact table late within

theorem monthName_spec {month : Nat} (h : 1 ≤ month ∧ month ≤ 12) :
    (months.findIdx? fun name => name.toList = (Date.monthName month).toList) =
        some (month - 1) ∧
      Plain (Date.monthName month).toList := by
  have table : ∀ month ∈ List.range' 1 12,
      (months.findIdx? fun name => name.toList = (Date.monthName month).toList) =
          some (month - 1) ∧
        Plain (Date.monthName month).toList := by decide
  exact table month (List.mem_range'_1.2 (by omega))

theorem plain_padded (columns n : Nat) : Plain (Decimal.padded columns n) := fun c inside => by
  have digit := Decimal.isDigit_of_nat? (Decimal.nat?_padded columns n) c inside
  simp [Char.isAlphanum, digit]

theorem yearText_spec (year : Int) :
    Decimal.signed? (Date.yearText year) = some year ∧ Plain (Date.yearText year) := by
  have plain := plain_padded 4 year.natAbs
  have read : Decimal.nat? (Decimal.padded 4 year.natAbs) = some year.natAbs :=
    Decimal.nat?_padded ..
  unfold Date.yearText
  split_ifs with negative short
  · have value : -(year.natAbs : Int) = year := by omega
    refine ⟨?_, by simpa [Plain] using plain⟩
    rw [Decimal.signed?.eq_1, read]
    exact congrArg some value
  · have value : (year.natAbs : Int) = year := by omega
    rw [Decimal.signed?_of_nat? read, value]
    exact ⟨rfl, plain⟩
  · have value : (year.natAbs : Int) = year := by omega
    refine ⟨?_, by simpa [Plain] using plain⟩
    rw [Decimal.signed?.eq_2 _ (by simp), Decimal.unsigned?.eq_1, read]
    exact congrArg some value

/-! ## Moments -/

theorem time?_padded (hour minute second : Nat) :
    time? (Decimal.padded 2 hour ++ ':' :: (Decimal.padded 2 minute ++
      ':' :: Decimal.padded 2 second)) = some (hour, minute, second) := by
  have whole (n : Nat) : split (· == ':') (Decimal.padded 2 n) = [Decimal.padded 2 n] :=
    split_of_not_mem ((plain_padded 2 n).not_mem (by decide))
  simp only [time?, split_append_cons_self, whole]
  simp

/-- The stamp of a moment. -/
def ofMoment (m : Moment) : Stamp where
  weekday := ((m.second / 86400 + 3) % 7).toNat
  date := Date.ofDays (m.second / 86400)
  hour := (m.second % 86400).toNat / 3600
  minute := (m.second % 86400).toNat / 60 % 60
  second := (m.second % 86400).toNat % 60 + if m.leap then 1 else 0

/-- The date that headers have for a moment. -/
theorem toList_httpDate (m : Moment) :
    m.httpDate.toList =
      ((Date.weekdayName (m.second / 86400)).toList ++ [',']) ++ ' ' ::
      (Decimal.padded 2 (ofMoment m).date.day ++ ' ' ::
      ((Date.monthName (ofMoment m).date.month).toList ++ ' ' ::
      (Date.yearText (ofMoment m).date.year ++ ' ' ::
      ((Decimal.padded 2 (ofMoment m).hour ++ ':' :: (Decimal.padded 2 (ofMoment m).minute ++
        ':' :: Decimal.padded 2 (ofMoment m).second)) ++ ' ' ::
      ['G', 'M', 'T'])))) := by
  simp [Moment.httpDate, ofMoment]

theorem split_httpDate (m : Moment) :
    split (· == ' ') m.httpDate.toList = [
      (Date.weekdayName (m.second / 86400)).toList ++ [','],
      Decimal.padded 2 (ofMoment m).date.day,
      (Date.monthName (ofMoment m).date.month).toList,
      Date.yearText (ofMoment m).date.year,
      Decimal.padded 2 (ofMoment m).hour ++ ':' :: (Decimal.padded 2 (ofMoment m).minute ++
        ':' :: Decimal.padded 2 (ofMoment m).second),
      ['G', 'M', 'T']] := by
  have date : (ofMoment m).date.Valid := (Date.ofDays_spec (m.second / 86400)).1
  have cuts : ¬ Plain [' '] := by decide
  have digits (n : Nat) := (plain_padded 2 n).not_mem cuts
  have month := (monthName_spec date.month).2.not_mem cuts
  have year := (yearText_spec (ofMoment m).date.year).2.not_mem cuts
  have zone : ' ' ∉ ['G', 'M', 'T'] := by decide
  have weekday : ' ' ∉ (Date.weekdayName (m.second / 86400)).toList ++ [','] := by
    simpa using (weekdayName_spec (m.second / 86400)).2.not_mem cuts
  have time : ' ' ∉ Decimal.padded 2 (ofMoment m).hour ++ ':' ::
      (Decimal.padded 2 (ofMoment m).minute ++ ':' :: Decimal.padded 2 (ofMoment m).second) := by
    simp [digits]
  rw [toList_httpDate]
  simp only [split_append_cons_self]
  rw [split_of_not_mem weekday, split_of_not_mem (digits _), split_of_not_mem month,
    split_of_not_mem year, split_of_not_mem time, split_of_not_mem zone]
  rfl

/-- Nothing in a date ends an attribute. -/
theorem semicolon_not_mem_httpDate (m : Moment) : ';' ∉ m.httpDate.toList := by
  have date : (ofMoment m).date.Valid := (Date.ofDays_spec (m.second / 86400)).1
  have cuts : ¬ Plain [';'] := by decide
  have digits (n : Nat) := (plain_padded 2 n).not_mem cuts
  have weekday := (weekdayName_spec (m.second / 86400)).2.not_mem cuts
  have month := (monthName_spec date.month).2.not_mem cuts
  have year := (yearText_spec (ofMoment m).date.year).2.not_mem cuts
  rw [toList_httpDate]
  simp [digits, weekday, month, year]

/-- The date that headers have for a moment is read back as its stamp. -/
theorem read?_httpDate (m : Moment) : read? m.httpDate = some (ofMoment m) := by
  have date : (ofMoment m).date.Valid := (Date.ofDays_spec (m.second / 86400)).1
  have month : (ofMoment m).date.month - 1 + 1 = (ofMoment m).date.month :=
    Nat.sub_add_cancel date.month.1
  rw [read?, split_httpDate]
  simp only [time?_padded, (weekdayName_spec (m.second / 86400)).1, (yearText_spec _).1,
    Decimal.nat?_padded]
  rw [(monthName_spec date.month).1]
  simp [month]
  rfl

theorem valid_ofMoment {m : Moment} (h : m.leap = false) : (ofMoment m).Valid := by
  obtain ⟨date, number⟩ := Date.ofDays_spec (m.second / 86400)
  refine ⟨date, ?_, ?_, ?_, ?_⟩
  · simp only [ofMoment, number]
    omega
  all_goals
    simp [ofMoment, h]
    omega

theorem unixSecond_ofMoment {m : Moment} (h : m.leap = false) : (ofMoment m).unixSecond = m.second := by
  obtain ⟨date, number⟩ := Date.ofDays_spec (m.second / 86400)
  simp only [unixSecond, ofMoment, number, h]
  simp
  omega

end Stamp
end DraftDesk
