import DraftDesk.Decimal

/-!
# The calendar

Moments are counted in seconds from the beginning of 1970 in universal time, and dates are those
of the Gregorian calendar, continued before its introduction and with a year 0. Moments are known
from the first second of the year -262143 to the last second of the year 262142.
-/

namespace DraftDesk

/-- A date of the continued Gregorian calendar. -/
structure Date where
  year : Int
  month : Nat
  day : Nat
  deriving DecidableEq, Repr, Inhabited

namespace Date

/-- The date that comes a number of days after the first of January 1970. A year is counted here
from March to February, so that a leap day ends it, and 400 years, which have 146097 days, are
one era. -/
def ofDays (days : Int) : Date :=
  let shifted := days + 719468
  let era := shifted / 146097
  let dayOfEra := shifted % 146097
  let yearOfEra := (dayOfEra - dayOfEra / 1460 + dayOfEra / 36524 - dayOfEra / 146096) / 365
  let dayOfYear := dayOfEra - (365 * yearOfEra + yearOfEra / 4 - yearOfEra / 100)
  let monthFromMarch := (5 * dayOfYear + 2) / 153
  let day := dayOfYear - (153 * monthFromMarch + 2) / 5 + 1
  let year := era * 400 + yearOfEra
  if monthFromMarch < 10 then ⟨year, (monthFromMarch + 3).toNat, day.toNat⟩
  else ⟨year + 1, (monthFromMarch - 9).toNat, day.toNat⟩

def monthName (month : Nat) : String :=
  ["Jan", "Feb", "Mar", "Apr", "May", "Jun", "Jul", "Aug", "Sep", "Oct", "Nov", "Dec"].getD
    (month - 1) ""

/-- The name of the weekday that comes a number of days after Thursday. -/
def weekdayName (days : Int) : String :=
  ["Thu", "Fri", "Sat", "Sun", "Mon", "Tue", "Wed"].getD (days % 7).toNat ""

/-- A year has at least four digits, and a sign if it is negative or has more. -/
def yearText (year : Int) : List Char :=
  if year < 0 then '-' :: Decimal.padded 4 year.natAbs
  else if year ≤ 9999 then Decimal.padded 4 year.natAbs
  else '+' :: Decimal.padded 4 year.natAbs

end Date

/-! ## Moments -/

/-- A second, counted from the beginning of 1970, or the leap second after it. -/
structure Moment where
  second : Int
  leap : Bool
  deriving DecidableEq, Repr, Inhabited

namespace Moment

/-- The second of a time; a billion and more nanoseconds are in the leap second after it. -/
def ofUnix (seconds : Int) (nanos : Nat) : Moment := ⟨seconds, decide (1000000000 ≤ nanos)⟩

/-- The first second of the year -262143. -/
def earliest : Moment := ⟨-8334601228800, false⟩

/-- The last second of the year 262142. -/
def latest : Moment := ⟨8210266876799, false⟩

/-- The moment some days later, or the limit of the calendar on the way. A leap second lies
after its second, seen from later days, and before the next second, seen from earlier days. -/
def addDays (m : Moment) (days : Int) : Moment :=
  if days = 0 then m
  else
    let start := if m.leap ∧ days < 0 then m.second + 1 else m.second
    let second := start + days * 86400
    if second < earliest.second then earliest
    else if latest.second < second then latest
    else ⟨second, false⟩

/-- The moment as it is written in headers. -/
def httpDate (m : Moment) : String :=
  let days := m.second / 86400
  let second := (m.second % 86400).toNat
  let date := Date.ofDays days
  let two (n : Nat) : String := String.ofList (Decimal.padded 2 n)
  Date.weekdayName days ++ ", " ++ two date.day ++ " " ++ Date.monthName date.month ++ " " ++
    String.ofList (Date.yearText date.year) ++ " " ++ two (second / 3600) ++ ":" ++
    two (second / 60 % 60) ++ ":" ++ two (second % 60 + if m.leap then 1 else 0) ++ " GMT"

end Moment

end DraftDesk
