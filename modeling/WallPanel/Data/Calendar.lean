/-!
# Days and moments

The days of the calendar with the Gregorian leap years, and moments of a day.

* `Day.ofNumbers`, `Moment.ofNumbers`: the day or moment of numbers, if there is one.
* `Day.text`, `Moment.text`: a day or moment from the year down to the second.
-/

namespace WallPanel

/-- A day of the calendar. -/
structure Day where
  year : Nat
  month : Nat
  day : Nat
deriving DecidableEq, Repr

/-- A moment of a day, and how many minutes its clock is ahead, if that is known. -/
structure Moment where
  day : Day
  hour : Nat
  minute : Nat
  second : Nat
  microsecond : Nat
  ahead : Option Int
deriving DecidableEq, Repr

/-- Why there is no day or moment of numbers. -/
inductive CalendarFault where
  | year (year : Nat)
  | month
  | day
  | hour
  | minute
  | second
  /-- A clock cannot be a whole day ahead or behind. -/
  | ahead (minutes : Int)
deriving DecidableEq, Repr

/-! ## Days -/

def isLeapYear (year : Nat) : Bool :=
  year % 4 = 0 && (year % 100 ≠ 0 || year % 400 = 0)

/-- The number of days of a month. -/
def daysOfMonth (year month : Nat) : Nat :=
  if month = 2 then if isLeapYear year then 29 else 28
  else if [4, 6, 9, 11].contains month then 30
  else 31

/-- A number with zeros in front up to a width. -/
def zeroPadded (width n : Nat) : String :=
  let digits := toString n
  String.ofList (List.replicate (width - digits.length) '0') ++ digits

namespace Day

/-- The day of numbers. Years have four digits. -/
def ofNumbers (year month day : Nat) : Except CalendarFault Day :=
  if year < 1 || 9999 < year then .error (.year year)
  else if month < 1 || 12 < month then .error .month
  else if day < 1 || daysOfMonth year month < day then .error .day
  else .ok ⟨year, month, day⟩

def text (d : Day) : String :=
  zeroPadded 4 d.year ++ "-" ++ zeroPadded 2 d.month ++ "-" ++ zeroPadded 2 d.day

end Day

/-! ## Moments -/

namespace Moment

/-- The number of minutes in a day. -/
def minutesOfDay : Nat := 1440

/-- The moment of numbers. The clock is looked at first, then the day. -/
def ofNumbers (year month day hour minute second microsecond : Nat) (ahead : Option Int) :
    Except CalendarFault Moment := do
  match ahead with
  | some minutes => if minutesOfDay ≤ minutes.natAbs then throw (.ahead minutes)
  | none => pure ()
  let day ← Day.ofNumbers year month day
  if 24 ≤ hour then throw .hour
  else if 60 ≤ minute then throw .minute
  else if 60 ≤ second then throw .second
  else return ⟨day, hour, minute, second, microsecond, ahead⟩

def text (m : Moment) : String :=
  m.day.text ++ "T" ++ zeroPadded 2 m.hour ++ ":" ++ zeroPadded 2 m.minute ++ ":" ++
    zeroPadded 2 m.second

end Moment

/-! ## Wording -/

namespace CalendarFault

/-- A span of minutes as days and seconds, where only the days may be negative. -/
def spanText (minutes : Int) : String :=
  let days := minutes.fdiv Moment.minutesOfDay
  let seconds := 60 * minutes.fmod Moment.minutesOfDay
  "datetime.timedelta(days=" ++ toString days ++
    (if seconds = 0 then "" else ", seconds=" ++ toString seconds) ++ ")"

/-- The wording of a fault. -/
def message : CalendarFault → String
  | year n => "year " ++ toString n ++ " is out of range"
  | month => "month must be in 1..12"
  | day => "day is out of range for month"
  | hour => "hour must be in 0..23"
  | minute => "minute must be in 0..59"
  | second => "second must be in 0..59"
  | ahead minutes =>
    "offset must be a timedelta strictly between -timedelta(hours=24) and timedelta(hours=24), not "
      ++ spanText minutes ++ "."

end CalendarFault

end WallPanel
