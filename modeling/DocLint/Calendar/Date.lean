/-
Dates of the Gregorian calendar, from the year 1 to the year 9999.

A date is checked before it is used, the year first, then the month, then the day.
-/
import DocLint.Text.Basic

namespace DocLint

/-- A day. -/
structure Date where
  year : Nat
  month : Nat
  day : Nat
  deriving Repr, DecidableEq

/-- What is wrong with a date or a moment. -/
inductive CalendarFault where
  | year (year : Nat)
  | month
  | day
  | hour
  | minute
  | second
  /-- The distance from universal time is a day or more. -/
  | offset (seconds : Int)
  deriving Repr, DecidableEq

/-- A number with zeros in front, up to a width. -/
def Text.padded (width n : Nat) : Text :=
  let digits := Text.ofNat n
  List.replicate (width - digits.length) '0' ++ digits

namespace Date

/-- Does the year have a 29th of February? -/
def isLeap (year : Nat) : Bool := (year % 4 == 0 && year % 100 != 0) || year % 400 == 0

def daysIn (year month : Nat) : Nat :=
  if month = 2 then (if isLeap year then 29 else 28)
  else if month = 4 ∨ month = 6 ∨ month = 9 ∨ month = 11 then 30
  else 31

/-- Is there such a date? -/
def check (d : Date) : Except CalendarFault Date :=
  if d.year < 1 ∨ 9999 < d.year then .error (.year d.year)
  else if d.month < 1 ∨ 12 < d.month then .error .month
  else if d.day < 1 ∨ daysIn d.year d.month < d.day then .error .day
  else .ok d

/-- The number of days up to a date. -/
def ordinal (d : Date) : Nat :=
  let before := d.year - 1
  let months := (List.range d.month).drop 1
  before * 365 + before / 4 - before / 100 + before / 400
    + (months.map (daysIn d.year)).foldl (· + ·) 0 + d.day

/-- The date as year, month and day with hyphens between. -/
def text (d : Date) : Text :=
  Text.padded 4 d.year ++ ['-'] ++ Text.padded 2 d.month ++ ['-'] ++ Text.padded 2 d.day

/-- The date as a message shows it. -/
def shown (d : Date) : Text :=
  "datetime.date(".toList ++ Text.join ", ".toList ([d.year, d.month, d.day].map Text.ofNat)
    ++ [')']

end Date

end DocLint
