import WorkflowStudio.Decimal.Amount
import WorkflowStudio.Fault

/-!
Moments on the calendar. Time is counted in seconds from the beginning of the
year 1970, in days of equal length without leap seconds.
-/
namespace WorkflowStudio

structure CalendarDay where
  year : Int
  month : Nat
  day : Nat
deriving DecidableEq, Repr

/-- Days in four hundred years, after which the calendar repeats. -/
def cycleDays : Int := 146097

/-- The day that is the given number of days after the first of January 1970.
Years are counted from March, so that the day added in a leap year is the last. -/
def CalendarDay.ofDays (days : Int) : CalendarDay :=
  let shifted := days + 719468
  let cycle := shifted.fdiv cycleDays
  let day := (shifted.fmod cycleDays).toNat
  let year := (day - day / 1460 + day / 36524 - day / 146096) / 365
  let dayOfYear := day - (365 * year + year / 4 - year / 100)
  let month := (5 * dayOfYear + 2) / 153
  { year := cycle * 400 + year + if month < 10 then 0 else 1
    month := if month < 10 then month + 3 else month - 9
    day := dayOfYear - (153 * month + 2) / 5 + 1 }

/-- The year in the width in which calendars count. -/
def CalendarDay.countedYear (d : CalendarDay) : Int := d.year.bmod 0x100000000

structure Moment where
  date : CalendarDay
  hour : Nat
  minute : Nat
  second : Nat
deriving DecidableEq, Repr

def secondsPerDay : Int := 86400

namespace Moment

/-- The moment at a number of seconds that the clock can count. -/
def ofSeconds (seconds : Int) : Except Fault Moment :=
  let date := CalendarDay.ofDays (seconds.fdiv secondsPerDay)
  let left := (seconds.fmod secondsPerDay).toNat
  if !(-0x8000000000000000 ≤ seconds && seconds < 0x8000000000000000) then .error .timeBeyondClock
  else if !(-0x80000000 ≤ date.year - 1900 && date.year - 1900 < 0x80000000) then
    .error .timeBeyondCalendar
  else .ok ⟨date, left / 3600, left / 60 % 60, left % 60⟩

def twoDigits (n : Nat) : String :=
  String.ofList (Decimal.padLeft 2 (toString n).toList)

def dayText (m : Moment) : String :=
  "-" ++ twoDigits m.date.month ++ "-" ++ twoDigits m.date.day

def clockText (m : Moment) : String :=
  twoDigits m.hour ++ ":" ++ twoDigits m.minute ++ ":" ++ twoDigits m.second

end Moment

namespace Amount

/-- Whole seconds and millionths of a second, rounded to even on a tie. -/
def splitSeconds : Amount → Int × Int
  | .whole n => (n, 0)
  | .real x =>
      let millionths := (x.fraction.mul (Double.ofInt 1000000)).round
      if 1000000 ≤ millionths then (x.truncate + 1, millionths - 1000000)
      else if millionths < 0 then (x.truncate - 1, millionths + 1000000)
      else (x.truncate, millionths)

def floorSeconds : Amount → Int
  | .whole n => n
  | .real x => x.floor

/-- A time that can be counted in seconds. -/
def checkTime (a : Amount) : Except Fault Unit :=
  match a with
  | .whole _ => .ok ()
  | .real x =>
      if x.isNaN then .error .timeNotNumber
      else if !x.isFinite then .error .timeBeyondClock
      else .ok ()

/-- The time in the form of records: with millionths unless they are zero, in
years of four digits. -/
def recordTime (a : Amount) : Except Fault String := do
  a.checkTime
  let (seconds, millionths) := a.splitSeconds
  let m ← Moment.ofSeconds seconds
  if m.date.year < 1 ∨ 9999 < m.date.year then
    .error (.timeOutOfRange m.date.countedYear)
  else
    let year := String.ofList (Decimal.padLeft 4 (toString m.date.year.toNat).toList)
    let tail := String.ofList (Decimal.padLeft 6 (toString millionths.toNat).toList)
    return year ++ m.dayText ++ "T" ++ m.clockText ++
      (if millionths = 0 then "" else "." ++ tail) ++ "Z"

/-- The time in the form of console lines, in whole seconds. -/
def lineTime (a : Amount) : Except Fault String := do
  a.checkTime
  let m ← Moment.ofSeconds a.floorSeconds
  if m.date.year != m.date.countedYear then .error .yearTooLarge
  return Decimal.intText m.date.year ++ m.dayText ++ " " ++ m.clockText

end Amount
end WorkflowStudio
