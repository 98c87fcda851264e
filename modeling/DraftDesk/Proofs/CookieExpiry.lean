import DraftDesk.ConsentNotice
import DraftDesk.Proofs.HttpDates

/-!
# When a cookie expires

The moment at which a cookie expires is a sum that fails in two places: the days may be more than a
length of time holds, and the sum may be no moment of the calendar. Either way the limit of the
calendar is taken on the side of the days. What the header says is read back, and is the exact sum
held within the calendar (`expires?_header`).
-/

namespace DraftDesk

/-- The nanoseconds from the beginning of 1970 to the beginning of a date. -/
def Date.nanosecond (d : Date) : Int := d.dayNumber * 86400000000000

/-- An instant that the calendar knows, in seconds and nanoseconds from the beginning of 1970. No
instant is in a leap second. -/
structure Instant where
  seconds : Int
  nanos : Nat
  nanos_lt : nanos < 1000000000
  known : Moment.earliest.second ≤ seconds ∧ seconds ≤ Moment.latest.second

namespace Instant

def earliest : Instant := ⟨Moment.earliest.second, 0, by decide, by decide⟩

def latest : Instant := ⟨Moment.latest.second, 999999999, by decide, by decide⟩

/-- All nanoseconds from the beginning of 1970. -/
def nanosecond (i : Instant) : Int := 1000000000 * i.seconds + i.nanos

/-- The calendar begins with the year -262143 and ends before the year 262143. -/
theorem nanosecond_earliest : earliest.nanosecond = Date.nanosecond ⟨-262143, 1, 1⟩ := by decide

theorem nanosecond_latest : latest.nanosecond = Date.nanosecond ⟨262143, 1, 1⟩ - 1 := by decide

def moment (i : Instant) : Moment := .ofUnix i.seconds i.nanos

/-- Some days as a length of time, which is held in milliseconds of 64 bits. -/
def length? (days : Int) : Option Int :=
  if |days * 86400 * 1000| < 2 ^ 63 then some (days * 86400) else none

/-- The instant that comes some seconds later, if the calendar knows it. -/
def add? (i : Instant) (seconds : Int) : Option Instant :=
  if known : Moment.earliest.second ≤ i.seconds + seconds ∧
      i.seconds + seconds ≤ Moment.latest.second then
    some ⟨i.seconds + seconds, i.nanos, i.nanos_lt, known⟩
  else none

/-- The instant some days later; where it is not known, the limit on the side of the days. -/
def later (i : Instant) (days : Int) : Instant :=
  ((length? days).bind i.add?).getD (if days < 0 then earliest else latest)

variable {i : Instant} {days : Int}

/-- The calendar is too short for the days that are no length of time. -/
theorem length?_bind_add? (i : Instant) (days : Int) :
    (length? days).bind i.add? = i.add? (days * 86400) := by
  unfold length?
  split_ifs with fits
  · rfl
  · have known := i.known
    simp only [Moment.earliest, Moment.latest] at known
    have far : ¬ (Moment.earliest.second ≤ i.seconds + days * 86400 ∧
        i.seconds + days * 86400 ≤ Moment.latest.second) := by
      simp only [Moment.earliest, Moment.latest]
      rw [abs_lt] at fits
      omega
    simp [add?, far]

theorem later_of_known (h : Moment.earliest.second ≤ i.seconds + days * 86400 ∧
    i.seconds + days * 86400 ≤ Moment.latest.second) :
    i.later days = ⟨i.seconds + days * 86400, i.nanos, i.nanos_lt, h⟩ := by
  rw [later, length?_bind_add?, add?, dif_pos h, Option.getD_some]

/-- A sum before the calendar has less than no days in it, since the instant is known. -/
theorem later_of_lt (h : i.seconds + days * 86400 < Moment.earliest.second) :
    i.later days = earliest := by
  have known := i.known
  rw [later, length?_bind_add?, add?, dif_neg (by omega), Option.getD_none, if_pos (by omega)]

theorem later_of_gt (h : Moment.latest.second < i.seconds + days * 86400) :
    i.later days = latest := by
  have known := i.known
  rw [later, length?_bind_add?, add?, dif_neg (by omega), Option.getD_none, if_neg (by omega)]

/-- The instant some days later is the sum, held within the calendar. -/
theorem nanosecond_later (i : Instant) (days : Int) :
    (i.later days).nanosecond =
      min latest.nanosecond (max earliest.nanosecond (i.nanosecond + days * 86400000000000)) := by
  have known := i.known
  have fraction := i.nanos_lt
  have order : Moment.earliest.second ≤ Moment.latest.second := by decide
  rcases lt_or_ge (i.seconds + days * 86400) Moment.earliest.second with before | low
  · rw [later_of_lt before]
    simp only [nanosecond, earliest, latest]
    omega
  · rcases lt_or_ge Moment.latest.second (i.seconds + days * 86400) with after | high
    · rw [later_of_gt after]
      simp only [nanosecond, earliest, latest]
      omega
    · rw [later_of_known ⟨low, high⟩]
      simp only [nanosecond, earliest, latest]
      omega

theorem nanosecond_mono (i : Instant) {fewer more : Int} (h : fewer ≤ more) :
    (i.later fewer).nanosecond ≤ (i.later more).nanosecond := by
  rw [nanosecond_later, nanosecond_later]
  omega

/-- The moment of an instant has its whole second. -/
theorem moment_eq (i : Instant) : i.moment = ⟨i.nanosecond / 1000000000, false⟩ := by
  have fraction := i.nanos_lt
  have second : (1000000000 * i.seconds + i.nanos) / 1000000000 = i.seconds := by omega
  simp [moment, Moment.ofUnix, nanosecond, second, fraction]

/-- Nothing fails: the sum of moments, which is held within the calendar as it is made, is the
checked one. -/
theorem addDays_moment (i : Instant) (days : Int) :
    i.moment.addDays days = (i.later days).moment := by
  have plain (i : Instant) : i.moment = ⟨i.seconds, false⟩ := by
    simp [moment, Moment.ofUnix, i.nanos_lt]
  rw [plain, plain, Moment.addDays]
  simp only [Bool.false_eq_true, false_and, if_false]
  split_ifs with none before after
  · subst none
    rw [later_of_known (by simpa using i.known)]
    simp
  · rw [later_of_lt before]
    rfl
  · rw [later_of_gt after]
    rfl
  · rw [later_of_known (by omega)]

end Instant

namespace SetCookie
open Pieces

/-- The date at which a stored cookie expires: a header is a list of attributes, the last one of a
kind counts. -/
def expires? (header : String) : Option Stamp :=
  ((split (· == ';') header.toList).reverse.findSome? (after? "expires=".toList)).bind fun date =>
    Stamp.read? (String.ofList date)

/-- The attributes of a header that ends as the header of a stored cookie. -/
theorem split_attributes {front date : List Char} (outside : ';' ∉ date) :
    split (· == ';') (front ++ ';' :: (("expires=".toList ++ date) ++ ';' ::
      ("path=/".toList ++ ';' :: "SameSite=Strict".toList))) =
      split (· == ';') front ++
        ["expires=".toList ++ date, "path=/".toList, "SameSite=Strict".toList] := by
  have path : split (· == ';') "path=/".toList = ["path=/".toList] := by decide
  have site : split (· == ';') "SameSite=Strict".toList = ["SameSite=Strict".toList] := by decide
  have expires : split (· == ';') ("expires=".toList ++ date) = ["expires=".toList ++ date] :=
    split_of_not_mem (by simpa using outside)
  simp only [split_append_cons_self, expires, path, site]
  rfl

/-- Whatever the name and the value are, the date of a header is read back. -/
theorem expires?_header (c : SetCookie) : expires? c.header = some (Stamp.ofMoment c.expires) := by
  have whole : c.header.toList = (c.name ++ "=" ++ c.value).toList ++ ';' ::
      (("expires=".toList ++ c.expires.httpDate.toList) ++ ';' ::
      ("path=/".toList ++ ';' :: "SameSite=Strict".toList)) := by
    simp [header, headerWith]
  have site : after? "expires=".toList "SameSite=Strict".toList = none := by decide
  have path : after? "expires=".toList "path=/".toList = none := by decide
  have found : after? "expires=".toList ("expires=".toList ++ c.expires.httpDate.toList) =
      some c.expires.httpDate.toList := after?_eq_some_iff.2 rfl
  rw [expires?, whole, split_attributes (Stamp.semicolon_not_mem_httpDate _), List.reverse_append,
    List.findSome?_append]
  simp only [List.reverse_cons, List.reverse_nil, List.nil_append, List.cons_append,
    List.findSome?_cons, site, path, found, Option.some_or, Option.bind_some, String.ofList_toList,
    Stamp.read?_httpDate]

end SetCookie

/-- A cookie that lasts some days from an instant expires at the instant that comes so many days
later, with both failures on the way as in `Instant.later`. Whatever the name and the value of the
cookie are, the date in its header is a date of the calendar with its own weekday, and its second is
that of the sum, held between the first nanosecond of the year -262143 and the last one of the year
262142. More days never make the cookie expire earlier. -/
theorem SetCookie.expires_saturating (name value : String) (now : Instant) :
    ∃ expiry : Int → Stamp,
      (∀ days, (lasting name value days now.moment).expires = (now.later days).moment ∧
        expires? (lasting name value days now.moment).header = some (expiry days) ∧
        (expiry days).Valid ∧
        (expiry days).unixSecond =
          min (Date.nanosecond ⟨262143, 1, 1⟩ - 1) (max (Date.nanosecond ⟨-262143, 1, 1⟩)
            (now.nanosecond + days * 86400000000000)) / 1000000000) ∧
      ∀ fewer more, fewer ≤ more → (expiry fewer).unixSecond ≤ (expiry more).unixSecond := by
  have second (days : Int) : (Stamp.ofMoment (now.later days).moment).unixSecond =
      (now.later days).nanosecond / 1000000000 := by
    rw [Instant.moment_eq, Stamp.unixSecond_ofMoment rfl]
  refine ⟨fun days => .ofMoment (now.later days).moment, fun days => ⟨?_, ?_, ?_, ?_⟩, ?_⟩
  · exact now.addDays_moment days
  · rw [expires?_header, lasting, now.addDays_moment]
  · exact Stamp.valid_ofMoment (by rw [Instant.moment_eq])
  · rw [second, Instant.nanosecond_later, Instant.nanosecond_earliest, Instant.nanosecond_latest]
  · intro fewer more h
    rw [second, second]
    exact Int.ediv_le_ediv (by decide) (now.nanosecond_mono h)

/-- The first moment of the calendar, for as many days back as there are. -/
example : (SetCookie.lasting "a" "b" (-2 ^ 63) Instant.latest.moment).header =
    "a=b;expires=Thu, 01 Jan -262143 00:00:00 GMT;path=/;SameSite=Strict" := by rfl

end DraftDesk
