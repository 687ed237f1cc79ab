import DocStore.Number.Notation
import DocStore.Text.Numeral

/-!
# Timestamps in YAML

A date, or a date with a time of day and an offset from universal time.
`Timestamp.read?` tells the form; whether the calendar has such a day,
and the day such a time, is checked apart (`Timestamp.fault?`).
-/

namespace DocStore.Yaml

/-- A time of day. The offset from universal time is given in minutes;
`universal` says that it was given by its letter. -/
structure TimeOfDay where
  hour : Nat
  minute : Nat
  second : Nat
  micros : Nat
  offset : Option Int
  universal : Bool
deriving DecidableEq

/-- A date, and a time of day if one is given. -/
structure Timestamp where
  year : Nat
  month : Nat
  day : Nat
  time : Option TimeOfDay
deriving DecidableEq

namespace Timestamp

/-! ## The form -/

/-- Splits off digits, of which there may be `least` to `most`. -/
def splitNumber? (least most : Nat) (cs : List Char) : Option (Nat × List Char) :=
  let ds := (cs.take most).takeWhile Char.isDigit
  if ds.length < least then none
  else some (Nat.ofDigitChars 10 ds 0, cs.drop ds.length)

/-- Splits off a mark. -/
def splitMark? (mark : Char) : List Char → Option (List Char)
  | c :: cs => if c = mark then some cs else none
  | [] => none

def isBlank (c : Char) : Bool := c = ' ' || c = '\t'

/-- The microseconds that the digits of a fraction show; further digits
are dropped. -/
def micros (ds : List Char) : Nat :=
  let six := ds.take 6
  Nat.ofDigitChars 10 six 0 * Nat.pow 10 (6 - six.length)

/-- What may follow a time of day: nothing, or the offset in minutes and
whether it is the letter of universal time. -/
def readZone? (cs : List Char) : Option (Option Int × Bool) :=
  match cs, cs.dropWhile isBlank with
  | [], _ => some (none, false)
  | _, ['Z'] => some (none, true)
  | _, c :: rest =>
      if c = '+' || c = '-' then do
        let (hours, rest) ← splitNumber? 1 2 rest
        let (minutes, rest) ←
          match rest with
          | ':' :: rest => splitNumber? 2 2 rest
          | rest => some (0, rest)
        if !rest.isEmpty then none
        let total : Int := hours * 60 + minutes
        return (some (if c = '-' then -total else total), false)
      else
        none
  | _, [] => none

/-- A time of day, given what follows the letter or the blanks after a
date. -/
def readTime? (cs : List Char) : Option TimeOfDay := do
  let (hour, rest) ← splitNumber? 1 2 cs
  let (minute, rest) ← splitNumber? 2 2 (← splitMark? ':' rest)
  let (second, rest) ← splitNumber? 2 2 (← splitMark? ':' rest)
  let (fraction, rest) :=
    match rest with
    | '.' :: rest => (rest.takeWhile Char.isDigit, rest.dropWhile Char.isDigit)
    | rest => ([], rest)
  let (offset, universal) ← readZone? rest
  return ⟨hour, minute, second, micros fraction, offset, universal⟩

/-- Reads a timestamp. -/
def read? (cs : List Char) : Option Timestamp := do
  let (year, rest) ← splitNumber? 4 4 cs
  let (month, rest) ← splitNumber? 1 2 (← splitMark? '-' rest)
  let (day, rest) ← splitNumber? 1 2 (← splitMark? '-' rest)
  match rest with
  | [] => some ⟨year, month, day, none⟩
  | c :: after =>
      let time ←
        if c = 'T' || c = 't' then readTime? after
        else if isBlank c then readTime? (after.dropWhile isBlank)
        else none
      return ⟨year, month, day, some time⟩

/-- Whether a text is taken for a timestamp without being marked as one:
a date that has no time of day shows two digits each for month and
day. -/
def isPlain (cs : List Char) : Bool :=
  (read? cs).any fun t => t.time.isSome || cs.length = 10

/-! ## The calendar -/

/-- What can be wrong with a timestamp. -/
inductive Fault where
  | year
  | month
  | day
  | hour
  | minute
  | second
  | offset (minutes : Int)
deriving DecidableEq

def isLeapYear (year : Nat) : Bool :=
  year % 4 = 0 && (year % 100 ≠ 0 || year % 400 = 0)

def daysInMonth (year month : Nat) : Nat :=
  if month = 2 then (if isLeapYear year then 29 else 28)
  else if [4, 6, 9, 11].contains month then 30
  else 31

/-- The number of minutes of a day. -/
def minutesOfDay : Nat := 24 * 60

/-- The first fault of a time of day. -/
def clockFault? (t : TimeOfDay) : Option Fault :=
  if 24 ≤ t.hour then some .hour
  else if 60 ≤ t.minute then some .minute
  else if 60 ≤ t.second then some .second
  else none

/-- The first fault of a timestamp: an offset of a day or more, a day
that the calendar does not have, a time that a day does not have. -/
def fault? (t : Timestamp) : Option Fault :=
  match t.time.bind (·.offset) |>.filter fun n => minutesOfDay ≤ n.natAbs with
  | some n => some (.offset n)
  | none =>
      if t.year = 0 then some .year
      else if t.month = 0 || 12 < t.month then some .month
      else if t.day = 0 || daysInMonth t.year t.month < t.day then some .day
      else t.time.bind clockFault?

/-! ## Messages -/

/-- A number of minutes as it is shown: whole days, which may be
negative, and seconds. -/
def shownOffset (minutes : Int) : String :=
  let days := minutes.fdiv minutesOfDay
  let seconds := minutes.fmod minutesOfDay * 60
  let parts :=
    (if days = 0 then [] else ["days=" ++ intText days]) ++
      (if seconds = 0 then [] else ["seconds=" ++ intText seconds])
  "datetime.timedelta(" ++ (if parts.isEmpty then "0" else ", ".intercalate parts) ++ ")"

def Fault.message : Fault → String
  | year => "year 0 is out of range"
  | month => "month must be in 1..12"
  | day => "day is out of range for month"
  | hour => "hour must be in 0..23"
  | minute => "minute must be in 0..59"
  | second => "second must be in 0..59"
  | offset minutes =>
      "offset must be a timedelta strictly between -timedelta(hours=24) and " ++
        "timedelta(hours=24), not " ++ shownOffset minutes ++ "."

/-- The offset of a time of day as it is shown. -/
def shownZone (t : TimeOfDay) : List String :=
  match t.offset with
  | some 0 => ["tzinfo=datetime.timezone.utc"]
  | some n => ["tzinfo=datetime.timezone(" ++ shownOffset n ++ ")"]
  | none => if t.universal then ["tzinfo=datetime.timezone.utc"] else []

/-- A timestamp as it is shown. -/
def shown (t : Timestamp) : String :=
  let date := [t.year, t.month, t.day].map natText
  match t.time with
  | none => "datetime.date(" ++ ", ".intercalate date ++ ")"
  | some time =>
      let seconds :=
        if time.micros ≠ 0 then [time.second, time.micros]
        else if time.second ≠ 0 then [time.second]
        else []
      let clock := ([time.hour, time.minute] ++ seconds).map natText
      "datetime.datetime(" ++ ", ".intercalate (date ++ clock ++ shownZone time) ++ ")"

end Timestamp

end DocStore.Yaml
