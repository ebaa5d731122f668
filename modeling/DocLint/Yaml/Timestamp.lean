/-
Timestamps: dates, and dates with a time of the day.

Year, month and day stand with hyphens between them.  A time follows behind a letter or
blanks; its seconds may have a fraction, and its zone is a letter for universal time or a
distance from it.
-/
import DocLint.Value
import DocLint.Value.Fault

namespace DocLint.Yaml

/-- The time in a timestamp, as it is written. -/
structure Clock where
  hour : Nat
  minute : Nat
  second : Nat
  /-- The digits of the fraction of the second. -/
  fraction : Text
  /-- How many seconds the clock is ahead of universal time. -/
  offset : Option Int

/-- A timestamp, as it is written. -/
structure Timestamp where
  date : Date
  clock : Option Clock

/-! ### Parts -/

/-- A number of so many digits, as many as there are, and what follows it. -/
def shortNumber? (least most : Nat) (t : Text) : Option (Nat × Text) :=
  let digits := (t.takeWhile Char.isDigit).take most
  if digits.length < least then none
  else some (Text.valueOf 10 (digits.map fun d => d.toNat - '0'.toNat), t.drop digits.length)

/-- What follows a character. -/
def behind? (c : Char) : Text → Option Text
  | [] => none
  | d :: r => if d = c then some r else none

/-- The date at the front of a timestamp. -/
def date? (t : Text) : Option (Date × Text) := do
  let (year, r) ← shortNumber? 4 4 t
  let (month, r) ← shortNumber? 1 2 (← behind? '-' r)
  let (day, r) ← shortNumber? 1 2 (← behind? '-' r)
  return (⟨year, month, day⟩, r)

/-- What follows the letter or the blanks before a time. -/
def behindGap? : Text → Option Text
  | [] => none
  | c :: r =>
    if c = 'T' ∨ c = 't' then some r
    else if c = ' ' ∨ c = '\t' then some (r.dropWhile fun d => d == ' ' || d == '\t')
    else none

/-- The digits of a fraction, if there is a point. -/
def fractionDigits : Text → Text × Text
  | '.' :: r => r.span Char.isDigit
  | t => ([], t)

/-- A distance from universal time in hours, or in hours and minutes. -/
def distance? (t : Text) : Option Int := do
  let (hours, r) ← shortNumber? 1 2 t
  match r with
  | [] => return hours * 3600
  | _ =>
    let (minutes, r) ← shortNumber? 2 2 (← behind? ':' r)
    if r.isEmpty then some (hours * 3600 + minutes * 60) else none

/-- The zone that ends a timestamp, if there is one. -/
def zone? (t : Text) : Option (Option Int) :=
  match t, t.dropWhile fun d => d == ' ' || d == '\t' with
  | [], _ => some none
  | _, ['Z'] => some (some 0)
  | _, '+' :: r => (distance? r).map some
  | _, '-' :: r => (distance? r).map fun d => some (-d)
  | _, _ => none

/-- The time that ends a timestamp. -/
def clock? (t : Text) : Option Clock := do
  let (hour, r) ← shortNumber? 1 2 (← behindGap? t)
  let (minute, r) ← shortNumber? 2 2 (← behind? ':' r)
  let (second, r) ← shortNumber? 2 2 (← behind? ':' r)
  let (fraction, r) := fractionDigits r
  return ⟨hour, minute, second, fraction, ← zone? r⟩

namespace Timestamp

def ofText? (t : Text) : Option Timestamp := do
  let (date, r) ← date? t
  if r.isEmpty then return ⟨date, none⟩ else return ⟨date, some (← clock? r)⟩

/-- Is the text a timestamp even if nothing says that it should be one?  A date alone has to have
two digits for the month and for the day. -/
def isPlain (t : Text) : Bool :=
  match ofText? t with
  | none => false
  | some s => s.clock.isSome || t.length == 10

/-- The microseconds that the digits of a fraction stand for; six digits count. -/
def microseconds (fraction : Text) : Nat :=
  let digits := (fraction ++ List.replicate 6 '0').take 6
  Text.valueOf 10 (digits.map fun d => d.toNat - '0'.toNat)

/-- The date or the moment, if there is such a one. -/
def value (s : Timestamp) : Reading Value :=
  let checked := match s.clock with
    | none => s.date.check.map Value.date
    | some c =>
      (Moment.check ⟨s.date, c.hour, c.minute, c.second, microseconds c.fraction, c.offset⟩).map
        Value.moment
  checked.mapError .calendar

end Timestamp

end DocLint.Yaml
