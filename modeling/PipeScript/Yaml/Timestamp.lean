import PipeScript.Fault
import PipeScript.Number.Reader
import PipeScript.Value.Moment

/-!
# Timestamps

A date is written `year-month-day`.  A time may follow it, after a `T` or blanks: hours, minutes and
seconds, with an optional fraction of a second and an optional distance to universal time.  A form may
denote no point in time: the fields are checked in the order in which they are written, the distance
first.
-/

namespace PipeScript.Yaml

open Text

/-- The distance to universal time, as written. -/
structure WrittenOffset where
  negative : Bool
  hours : Nat
  minutes : Nat

/-- The time of a timestamp, as written. -/
structure WrittenTime where
  hour : Nat
  minute : Nat
  second : Nat
  fraction : List Char
  offset : Option WrittenOffset

/-- A timestamp, as written. -/
structure Timestamp where
  year : Nat
  month : List Char
  day : List Char
  time : Option WrittenTime

namespace Timestamp

/-- Takes a number of digits from `least` to `most`, as many as there are. -/
def takeDigits? (least most : Nat) (cs : List Char) : Option (List Char × List Char) :=
  let digits := (cs.take most).takeWhile isAsciiDigit
  if digits.length < least then none else some (digits, cs.drop digits.length)

/-- Takes a number with a mark in front of it. -/
def takeField? (mark : Char) (least most : Nat) : List Char → Option (List Char × List Char)
  | c :: rest => if c == mark then takeDigits? least most rest else none
  | [] => none

def isBlankChar (c : Char) : Bool := c == ' ' || c == '\t'

/-- Reads the distance to universal time that ends a timestamp. -/
def readOffset? (cs : List Char) : Option (Option WrittenOffset) :=
  match cs.dropWhile isBlankChar with
  | [] => if cs.isEmpty then some none else none
  | ['Z'] => some (some ⟨false, 0, 0⟩)
  | sign :: rest => do
    if sign != '+' && sign != '-' then none
    else
      let (hours, rest) ← takeDigits? 1 2 rest
      if rest.isEmpty then return some ⟨sign == '-', digitsValue hours, 0⟩
      else
        let (minutes, rest) ← takeField? ':' 2 2 rest
        if rest.isEmpty then return some ⟨sign == '-', digitsValue hours, digitsValue minutes⟩
        else none

/-- Reads the time that ends a timestamp. -/
def readTime? (cs : List Char) : Option WrittenTime := do
  let (hour, rest) ← takeDigits? 1 2 cs
  let (minute, rest) ← takeField? ':' 2 2 rest
  let (second, rest) ← takeField? ':' 2 2 rest
  let (fraction, rest) := match rest with
    | '.' :: more => (more.takeWhile isAsciiDigit, more.dropWhile isAsciiDigit)
    | _ => ([], rest)
  return ⟨digitsValue hour, digitsValue minute, digitsValue second, fraction, ← readOffset? rest⟩

/-- Reads the part of a timestamp behind the date. -/
def readTail? (cs : List Char) : Option (Option WrittenTime) :=
  match cs with
  | [] => some none
  | c :: rest =>
    if c == 'T' || c == 't' then (readTime? rest).map some
    else if isBlankChar c then (readTime? (rest.dropWhile isBlankChar)).map some
    else none

/-- Reads a whole text as a timestamp. -/
def read? (cs : List Char) : Option Timestamp := do
  let (year, rest) ← takeDigits? 4 4 cs
  let (month, rest) ← takeField? '-' 1 2 rest
  let (day, rest) ← takeField? '-' 1 2 rest
  return ⟨digitsValue year, month, day, ← readTail? rest⟩

/-- The fraction of a second, cut off at microseconds. -/
def microseconds (fraction : List Char) : Nat :=
  digitsValue (fraction.take 6) * tenTo (6 - (fraction.take 6).length)

/-- A span of time as it is quoted: days, and the seconds left over. -/
def spanText (minutes : Int) : String :=
  let seconds := 60 * minutes
  let days := seconds.fdiv 86400
  let left := seconds.fmod 86400
  let dayPart := if days = 0 then [] else [s!"days={days}"]
  let leftPart := if left = 0 then [] else [s!"seconds={left}"]
  "datetime.timedelta(" ++ ", ".intercalate (dayPart ++ leftPart) ++ ")"

/-- The distance to universal time in minutes; it is less than a day. -/
def offsetMinutes (o : WrittenOffset) : Except CalendarFault Int :=
  let distance : Int := 60 * o.hours + o.minutes
  let minutes := if o.negative then -distance else distance
  if -1440 < minutes && minutes < 1440 then .ok minutes else .error (.offset (spanText minutes))

/-- The day of a timestamp. -/
def date (t : Timestamp) : Except CalendarFault CalendarDate :=
  let month := digitsValue t.month
  let day := digitsValue t.day
  if t.year = 0 then .error (.year t.year)
  else if month = 0 || 12 < month then .error .month
  else if day = 0 || CalendarDate.daysIn t.year month < day then .error .day
  else .ok ⟨t.year, month, day⟩

/-- The time of the day. -/
def clock (t : WrittenTime) : Except CalendarFault DayTime :=
  if 23 < t.hour then .error .hour
  else if 59 < t.minute then .error .minute
  else if 59 < t.second then .error .second
  else .ok ⟨t.hour, t.minute, t.second, microseconds t.fraction⟩

/-- What a timestamp denotes. -/
def moment (t : Timestamp) : Except CalendarFault Moment :=
  match t.time with
  | none => return .date (← t.date)
  | some time => do
    let offset ← time.offset.mapM offsetMinutes
    return .instant (← t.date) (← clock time) offset

end Timestamp

/-- The form of plain texts that are timestamps: a date alone has two digits for month and day. -/
def isPlainTimestamp (cs : List Char) : Bool :=
  match Timestamp.read? cs with
  | some t => t.time.isSome || (t.month.length = 2 && t.day.length = 2)
  | none => false

end PipeScript.Yaml
