import AsciidocSpans.Text.Basic

/-!
Days of the calendar and times on them, and the text by which messages show them. A time may say
how far its clock is ahead of universal time. A moment is only made of a day that the calendar has
and a time that a clock can show.
-/

set_option autoImplicit false
set_option relaxedAutoImplicit false

namespace AsciidocSpans

/-- A time on a day. -/
structure ClockTime where
  hour : Nat
  minute : Nat
  second : Nat
  microsecond : Nat
  /-- How many minutes the clock is ahead of universal time, if it says so. -/
  ahead : Option Int
  deriving DecidableEq, Repr

/-- A day, or a time on it. -/
structure Moment where
  year : Nat
  month : Nat
  day : Nat
  time : Option ClockTime
  deriving DecidableEq, Repr

/-- Whether a clock can show a time. Its distance from universal time is less than a day. -/
def ClockTime.isValid (time : ClockTime) : Bool :=
  time.hour < 24 && time.minute < 60 && time.second < 60 && time.microsecond < 1000000 &&
    (time.ahead.all fun minutes ↦ minutes.natAbs < 24 * 60)

namespace Moment

/-- Whether a year has a leap day. -/
def isLeapYear (year : Nat) : Bool :=
  year % 4 == 0 && (year % 100 != 0 || year % 400 == 0)

/-- The number of days of a month. -/
def daysIn (year month : Nat) : Nat :=
  if month = 2 then if isLeapYear year then 29 else 28
  else if month = 4 ∨ month = 6 ∨ month = 9 ∨ month = 11 then 30
  else 31

/-- Whether a moment is on a day of the calendar, and at a time that a clock can show. -/
def isValid (moment : Moment) : Bool :=
  1 ≤ moment.year && 1 ≤ moment.month && moment.month ≤ 12 && 1 ≤ moment.day &&
    moment.day ≤ daysIn moment.year moment.month && moment.time.all ClockTime.isValid

/-- The text of a distance in minutes from universal time. -/
def zoneText (minutes : Int) : String :=
  let seconds := minutes * 60
  let days := seconds / 86400
  let rest := seconds % 86400
  if minutes = 0 then "datetime.timezone.utc"
  else if days = 0 then s!"datetime.timezone(datetime.timedelta(seconds={rest}))"
  else s!"datetime.timezone(datetime.timedelta(days={days}, seconds={rest}))"

/-- The parts of a time that are shown: microseconds only if there are some, and seconds only if
something behind the minutes is there. -/
def shownParts (time : ClockTime) : List String :=
  let fine := if time.microsecond = 0 then [] else [toString time.microsecond]
  let seconds := if fine.isEmpty ∧ time.second = 0 then [] else [toString time.second]
  let zone := match time.ahead with
    | some minutes => ["tzinfo=" ++ zoneText minutes]
    | none => []
  [toString time.hour, toString time.minute] ++ seconds ++ fine ++ zone

/-- The text by which messages show a moment. -/
def shown (moment : Moment) : Text :=
  let date := [toString moment.year, toString moment.month, toString moment.day]
  let (label, parts) := match moment.time with
    | none => ("datetime.date(", date)
    | some time => ("datetime.datetime(", date ++ shownParts time)
  (label ++ String.intercalate ", " parts ++ ")").toList

end Moment

end AsciidocSpans
