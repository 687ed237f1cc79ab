import DocStore.Number.Double
import DocStore.Number.Notation

/-!
# Instants

An instant is a number of seconds since the start of 1970, UTC. It is
written with the second below it, or with the nearest microsecond.
`CivilDate.ofDays` turns a count of days into a date of the Gregorian
calendar, also before the calendar was in use. Not every instant can be
written (`Clock.plainFault?`, `Clock.isoFault?`): the count of seconds
has 64 bits and that of years 32, and with the microsecond go years of
four digits alone.
-/

namespace DocStore

/-! ## Dates -/

/-- A date of the Gregorian calendar. -/
structure CivilDate where
  year : Int
  month : Nat
  day : Nat
deriving DecidableEq

/-- The date that lies a number of days after 1970-01-01. Years are
counted from March, so that the leap day ends a year, in cycles of 400
years or 146097 days. -/
def CivilDate.ofDays (days : Int) : CivilDate :=
  let shifted := days + 719468
  let cycle := shifted.fdiv 146097
  let dayOfCycle := (shifted.fmod 146097).toNat
  let yearOfCycle :=
    (dayOfCycle - dayOfCycle / 1460 + dayOfCycle / 36524 - dayOfCycle / 146096) / 365
  let dayOfYear := dayOfCycle - (365 * yearOfCycle + yearOfCycle / 4 - yearOfCycle / 100)
  let monthFromMarch := (5 * dayOfYear + 2) / 153
  let month := if monthFromMarch < 10 then monthFromMarch + 3 else monthFromMarch - 9
  { year := cycle * 400 + yearOfCycle + (if month ≤ 2 then 1 else 0)
    month := month
    day := dayOfYear - (153 * monthFromMarch + 2) / 5 + 1 }

/-! ## Instants -/

/-- A number of seconds since the start of 1970. -/
inductive Instant where
  | whole (seconds : Int)
  | reading (seconds : Double)
deriving DecidableEq

namespace Instant

/-- The last full second. -/
def second : Instant → Int
  | whole n => n
  | reading x => x.floor?.getD 0

/-- The fraction of a double, with its sign. -/
def fraction (x : Double) : Double :=
  match x.view with
  | .finite negative m e =>
      let unit := Double.scaleUp 1 (-e)
      Double.nearest negative (Double.scaleUp m e % unit) unit
  | _ => x

/-- The nearest microsecond. The fraction of a second is turned into
microseconds by a multiplication of doubles, whose result is rounded, a
half to the even neighbour. -/
def micros : Instant → Int
  | whole n => n * 1000000
  | reading x => x.truncate?.getD 0 * 1000000 + (((fraction x).timesNat 1000000).round?).getD 0

end Instant

/-- A count with at least the given number of digits. -/
def padded (width n : Nat) : String :=
  String.ofList (padZeros width (Nat.toDigits 10 n))

namespace Clock

/-- The time of day of a second of a day. -/
def timeOfDay (second : Nat) : String :=
  padded 2 (second / 3600) ++ ":" ++ padded 2 (second / 60 % 60) ++ ":" ++ padded 2 (second % 60)

def monthAndDay (d : CivilDate) : String :=
  "-" ++ padded 2 d.month ++ "-" ++ padded 2 d.day

/-- Date and time with a blank between, to the second below. -/
def plain (t : Instant) : String :=
  let date := CivilDate.ofDays (t.second.fdiv 86400)
  intText date.year ++ monthAndDay date ++ " " ++ timeOfDay (t.second.fmod 86400).toNat

/-- Date and time with a `T` between and the offset from UTC, to the
nearest microsecond; a whole second shows no fraction. -/
def iso (t : Instant) : String :=
  let second := t.micros.fdiv 1000000
  let micro := (t.micros.fmod 1000000).toNat
  let date := CivilDate.ofDays (second.fdiv 86400)
  padded 4 date.year.toNat ++ monthAndDay date ++ "T" ++ timeOfDay (second.fmod 86400).toNat ++
    (if micro = 0 then "" else "." ++ padded 6 micro) ++ "+00:00"

/-! ## Limits -/

/-- Why an instant cannot be written. -/
inductive Fault where
  | notANumber
  | tooManySeconds
  | tooManyYears
  | yearOutOfRange (year : Int)
deriving DecidableEq

def Fault.message : Fault → String
  | notANumber => "Invalid value NaN (not a number)"
  | tooManySeconds => "timestamp out of range for platform time_t"
  | tooManyYears => "[Errno 75] Value too large for defined data type"
  | yearOutOfRange year => "year " ++ intText year ++ " is out of range"

/-- The integers from minus a bound up to below it. -/
def isWithin (bound : Nat) (n : Int) : Bool :=
  -(bound : Int) ≤ n && n < bound

/-- The year of a second; years are counted from 1900. -/
def yearOf (second : Int) : Except Fault Int :=
  if isWithin (Nat.pow 2 63) second then
    let year := (CivilDate.ofDays (second.fdiv 86400)).year
    if isWithin (Nat.pow 2 31) (year - 1900) then .ok year else .error .tooManyYears
  else
    .error .tooManySeconds

/-- The year in which an instant is written, `second` being the second
that is written. -/
def year (t : Instant) (second : Int) : Except Fault Int :=
  match t with
  | .whole _ => yearOf second
  | .reading x =>
      if x.isNaN then .error .notANumber
      else if x.floor?.isNone then .error .tooManySeconds
      else yearOf second

/-- Why an instant cannot be written to the second. -/
def plainFault? (t : Instant) : Option Fault :=
  match year t t.second with
  | .ok _ => none
  | .error e => some e

/-- Why an instant cannot be written to the microsecond. -/
def isoFault? (t : Instant) : Option Fault :=
  match year t (t.micros.fdiv 1000000) with
  | .ok year => if 1 ≤ year && year ≤ 9999 then none else some (.yearOutOfRange year)
  | .error e => some e

end Clock

end DocStore
