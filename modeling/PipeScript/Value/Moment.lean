import PipeScript.Text.Class

/-!
# Dates, timestamps and other objects

What documents may contain besides the values of JSON: calendar values, and objects of any other kind.
They are only carried along and written out.
-/

namespace PipeScript

/-- A number with leading zeros up to a width. -/
def padded (width n : Nat) : String :=
  let digits := Nat.toDigits 10 n
  String.ofList (List.replicate (width - digits.length) '0' ++ digits)

/-- A day of the calendar. -/
structure CalendarDate where
  year : Nat
  month : Nat
  day : Nat
  deriving DecidableEq

/-- A time of the day, to the microsecond. -/
structure DayTime where
  hour : Nat
  minute : Nat
  second : Nat
  micro : Nat
  deriving DecidableEq

/-- An object that commands take as a whole, such as bytes or a set.  It shows as a text, which is no
plain number, so it names no place in a list. -/
structure OtherObject where
  kind : String
  text : String
  notDigits : ∃ c ∈ text.toList, Text.isAsciiDigit c = false ∧ c ≠ '\n'
  deriving DecidableEq

/-- A date, a point in time with an optional distance to universal time in minutes, or an object of
another kind. -/
inductive Moment where
  | date (d : CalendarDate)
  | instant (d : CalendarDate) (t : DayTime) (offset : Option Int)
  | other (o : OtherObject)
  deriving DecidableEq

namespace CalendarDate

def isLeap (year : Nat) : Bool :=
  year % 4 == 0 && (year % 100 != 0 || year % 400 == 0)

def daysIn (year month : Nat) : Nat :=
  if month == 2 then (if isLeap year then 29 else 28)
  else if month == 4 || month == 6 || month == 9 || month == 11 then 30
  else 31

def text (d : CalendarDate) : String :=
  padded 4 d.year ++ "-" ++ padded 2 d.month ++ "-" ++ padded 2 d.day

end CalendarDate

def DayTime.text (t : DayTime) : String :=
  let clock := padded 2 t.hour ++ ":" ++ padded 2 t.minute ++ ":" ++ padded 2 t.second
  if t.micro = 0 then clock else clock ++ "." ++ padded 6 t.micro

namespace Moment

/-- A distance to universal time, as `+hh:mm`. -/
def offsetText (minutes : Int) : String :=
  let sign := if minutes < 0 then "-" else "+"
  sign ++ padded 2 (minutes.natAbs / 60) ++ ":" ++ padded 2 (minutes.natAbs % 60)

def text : Moment → String
  | .date d => d.text
  | .instant d t offset =>
    d.text ++ " " ++ t.text ++ (match offset with | some m => offsetText m | none => "")
  | .other o => o.text

/-- What an object is called. -/
def kind : Moment → String
  | .date _ => "date"
  | .instant .. => "datetime"
  | .other o => o.kind

end Moment

end PipeScript
