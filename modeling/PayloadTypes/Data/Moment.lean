import PayloadTypes.Text.Digit
/-!
# Moments

A moment is a day of the calendar, or a time on such a day to the
microsecond. A time may tell how far it is ahead of universal time. What
is not on the calendar or not on the clock is no moment.
-/

namespace PayloadTypes

/-- A year with a leap day. -/
def isLeapYear (year : Nat) : Bool := year % 4 == 0 && (year % 100 != 0 || year % 400 == 0)

/-- How many days a month has. -/
def daysOfMonth (year month : Nat) : Nat :=
  if month = 2 then (if isLeapYear year then 29 else 28)
  else if month = 4 ∨ month = 6 ∨ month = 9 ∨ month = 11 then 30
  else 31

/-- The calendar has a day. -/
def isOnCalendar (year month day : Nat) : Bool :=
  1 ≤ year && year ≤ 9999 && 1 ≤ month && month ≤ 12 && 1 ≤ day && day ≤ daysOfMonth year month

/-- The clock shows a time, and the time is less than a day ahead or behind. -/
def isOnClock (hour minute second micro : Nat) (ahead : Option Int) : Bool :=
  hour < 24 && minute < 60 && second < 60 && micro < 1000000 && ahead.all (·.natAbs < 1440)

/-- A day of the calendar. -/
structure Day where
  /-- The year, of four digits at most. -/
  year : Nat
  /-- The month. -/
  month : Nat
  /-- The day of the month. -/
  day : Nat
  /-- The calendar has it. -/
  onCalendar : isOnCalendar year month day = true
deriving DecidableEq, Repr

/-- A time of the clock. -/
structure ClockTime where
  /-- The hour. -/
  hour : Nat
  /-- The minute. -/
  minute : Nat
  /-- The second. -/
  second : Nat
  /-- The microsecond. -/
  micro : Nat
  /-- How many minutes it is ahead of universal time, if that is known. -/
  ahead : Option Int
  /-- The clock shows it. -/
  onClock : isOnClock hour minute second micro ahead = true
deriving DecidableEq, Repr

/-- A day or a time. -/
inductive Moment where
  /-- A day. -/
  | day (d : Day)
  /-- A time on a day. -/
  | time (d : Day) (t : ClockTime)
deriving DecidableEq, Repr

/-- A day, if the calendar has it. -/
def Day.of? (year month day : Nat) : Option Day :=
  if h : isOnCalendar year month day = true then some ⟨year, month, day, h⟩ else none

/-- A time, if the clock shows it. -/
def ClockTime.of? (hour minute second micro : Nat) (ahead : Option Int) : Option ClockTime :=
  if h : isOnClock hour minute second micro ahead = true then
    some ⟨hour, minute, second, micro, ahead, h⟩
  else none

/-! ## Texts -/

/-- A number with as many zeros in front as make it `width` digits long. -/
def paddedDigits (width n : Nat) : List Char :=
  let ds := Text.natDigits n
  List.replicate (width - ds.length) '0' ++ ds

/-- Numbers with something between them. -/
def joinNumbers (between : String) (ns : List (List Char)) : List Char :=
  between.toList.intercalate ns

/-- The text of a day. -/
def Day.text (d : Day) : List Char :=
  joinNumbers "-" [paddedDigits 4 d.year, paddedDigits 2 d.month, paddedDigits 2 d.day]

/-- The text of a distance in minutes. -/
def aheadText (m : Int) : List Char :=
  (if m < 0 then '-' else '+') ::
    joinNumbers ":" [paddedDigits 2 (m.natAbs / 60), paddedDigits 2 (m.natAbs % 60)]

/-- The text of a time. -/
def ClockTime.text (t : ClockTime) : List Char :=
  joinNumbers ":" [paddedDigits 2 t.hour, paddedDigits 2 t.minute, paddedDigits 2 t.second] ++
    (if t.micro = 0 then [] else '.' :: paddedDigits 6 t.micro) ++
    (t.ahead.map aheadText).getD []

/-- A distance in minutes as it is shown inside another value. -/
def aheadShown (m : Int) : List Char :=
  if m = 0 then "datetime.timezone.utc".toList
  else
    let seconds := Text.intDigits (if m < 0 then 86400 + 60 * m else 60 * m)
    "datetime.timezone(datetime.timedelta(".toList ++
      (if m < 0 then "days=-1, ".toList else []) ++ "seconds=".toList ++ seconds ++ "))".toList

namespace Moment

/-- The text of a moment. -/
def text : Moment → List Char
  | .day d => d.text
  | .time d t => d.text ++ ' ' :: t.text

/-- The numbers of a day. -/
def dayNumbers (d : Day) : List Nat := [d.year, d.month, d.day]

/-- The numbers of a time; a last one and a last but one that are zero are left out. -/
def timeNumbers (t : ClockTime) : List Nat :=
  if t.micro ≠ 0 then [t.hour, t.minute, t.second, t.micro]
  else if t.second ≠ 0 then [t.hour, t.minute, t.second]
  else [t.hour, t.minute]

/-- A moment as it is shown inside another value. -/
def shown (m : Moment) : List Char :=
  let numbers (ns : List Nat) : List Char := joinNumbers ", " (ns.map Text.natDigits)
  match m with
  | .day d => "datetime.date(".toList ++ numbers (dayNumbers d) ++ [')']
  | .time d t =>
    "datetime.datetime(".toList ++ numbers (dayNumbers d ++ timeNumbers t) ++
      (t.ahead.map fun a => ", tzinfo=".toList ++ aheadShown a).getD [] ++ [')']

/-- The word for the kind of a moment. -/
def kind : Moment → String
  | .day _ => "date"
  | .time .. => "datetime"

end Moment

end PayloadTypes
