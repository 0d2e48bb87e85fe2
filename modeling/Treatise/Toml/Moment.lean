/-!
# Dates and times

A moment has a date, a time or both, and with both an offset from universal time.
-/

namespace Treatise.Toml

structure Date where
  year : Nat
  month : Nat
  day : Nat
  deriving DecidableEq, Repr

structure Time where
  hour : Nat
  minute : Nat
  second : Nat
  nanosecond : Nat
  deriving DecidableEq, Repr

/-- The distance from universal time. -/
inductive Offset where
  | utc
  | minutes (negative : Bool) (count : Nat)
  deriving DecidableEq, Repr

structure Moment where
  date : Option Date
  time : Option Time
  offset : Option Offset
  deriving DecidableEq, Repr

def isLeapYear (year : Nat) : Bool := year % 4 == 0 && (year % 100 != 0 || year % 400 == 0)

def daysInMonth (year month : Nat) : Nat :=
  if month = 2 then if isLeapYear year then 29 else 28
  else if month = 4 ∨ month = 6 ∨ month = 9 ∨ month = 11 then 30
  else 31

/-- A date of the calendar. -/
def Date.isValid (d : Date) : Bool :=
  1 ≤ d.month && d.month ≤ 12 && 1 ≤ d.day && d.day ≤ daysInMonth d.year d.month

/-- A time of the day; a leap second is one. -/
def Time.isValid (t : Time) : Bool := t.hour ≤ 23 && t.minute ≤ 59 && t.second ≤ 60

/-- Decimal digits with zeros in front up to a width. -/
def padded (width n : Nat) : String :=
  let digits := Nat.toDigits 10 n
  String.ofList (List.replicate (width - digits.length) '0' ++ digits)

def Date.render (d : Date) : String :=
  padded 4 d.year ++ "-" ++ padded 2 d.month ++ "-" ++ padded 2 d.day

/-- The text of a time; a fraction of a second has no zeros at its end. -/
def Time.render (t : Time) : String :=
  let fraction :=
    if t.nanosecond = 0 then ""
    else
      "." ++ String.ofList ((padded 9 t.nanosecond).toList.reverse.dropWhile (· == '0')).reverse
  padded 2 t.hour ++ ":" ++ padded 2 t.minute ++ ":" ++ padded 2 t.second ++ fraction

def Offset.render : Offset → String
  | utc => "Z"
  | minutes negative count =>
    (if negative then "-" else "+") ++ padded 2 (count / 60) ++ ":" ++ padded 2 (count % 60)

def Moment.render (m : Moment) : String :=
  (m.date.map Date.render).getD "" ++
    (if m.date.isSome ∧ m.time.isSome then "T" else "") ++
    (m.time.map Time.render).getD "" ++ (m.offset.map Offset.render).getD ""

end Treatise.Toml
