/-
Moments: a time of a day, to the microsecond, with or without its distance from universal
time.
-/
import DocLint.Calendar.Date

namespace DocLint

/-- A span of time as a message shows it: whole days, which may be negative, and seconds. -/
def durationShown (seconds : Int) : Text :=
  let days := seconds / 86400
  let rest := seconds % 86400
  let parts := (if days = 0 then [] else ["days=".toList ++ Text.ofInt days])
    ++ (if rest = 0 then [] else ["seconds=".toList ++ Text.ofInt rest])
  "datetime.timedelta(".toList
    ++ (if parts.isEmpty then ['0'] else Text.join ", ".toList parts) ++ [')']

def CalendarFault.message : CalendarFault → Text
  | .year n => "year ".toList ++ Text.ofNat n ++ " is out of range".toList
  | .month => "month must be in 1..12".toList
  | .day => "day is out of range for month".toList
  | .hour => "hour must be in 0..23".toList
  | .minute => "minute must be in 0..59".toList
  | .second => "second must be in 0..59".toList
  | .offset seconds =>
    "offset must be a timedelta strictly between -timedelta(hours=24) and ".toList
      ++ "timedelta(hours=24), not ".toList ++ durationShown seconds ++ ['.']

structure Moment where
  date : Date
  hour : Nat
  minute : Nat
  second : Nat
  microsecond : Nat := 0
  /-- How many seconds the clock is ahead of universal time. -/
  offset : Option Int := none
  deriving Repr, DecidableEq

namespace Moment

/-- Is the clock less than a day away from universal time? -/
def checkOffset (seconds : Int) : Except CalendarFault Int :=
  if -86400 < seconds ∧ seconds < 86400 then .ok seconds else .error (.offset seconds)

/-- Is there such a moment?  The distance from universal time comes first, then the date. -/
def check (m : Moment) : Except CalendarFault Moment := do
  let _ ← m.offset.mapM checkOffset
  let _ ← m.date.check
  if 23 < m.hour then throw .hour
  else if 59 < m.minute then throw .minute
  else if 59 < m.second then throw .second
  else return m

/-- The microseconds up to the moment, in universal time if the distance from it is known. -/
def instant (m : Moment) : Int :=
  let seconds : Int := ((m.date.ordinal * 24 + m.hour) * 60 + m.minute) * 60 + m.second
  (seconds - m.offset.getD 0) * 1000000 + m.microsecond

/-- Are two moments the same?  One whose distance from universal time is known is never the same
as one of which it is not. -/
def same (a b : Moment) : Bool := a.offset.isSome == b.offset.isSome && a.instant == b.instant

/-- A distance from universal time, in hours and minutes. -/
def offsetText (seconds : Int) : Text :=
  let minutes := seconds.natAbs / 60
  [if seconds < 0 then '-' else '+'] ++ Text.padded 2 (minutes / 60) ++ [':']
    ++ Text.padded 2 (minutes % 60)

/-- The moment as date and time. -/
def text (m : Moment) : Text :=
  m.date.text ++ [' '] ++ Text.join [':'] ([m.hour, m.minute, m.second].map (Text.padded 2))
    ++ (if m.microsecond = 0 then [] else ['.'] ++ Text.padded 6 m.microsecond)
    ++ (m.offset.map offsetText).getD []

/-- The zone of a clock as a message shows it. -/
def zoneShown (seconds : Int) : Text :=
  if seconds = 0 then "datetime.timezone.utc".toList
  else "datetime.timezone(".toList ++ durationShown seconds ++ [')']

/-- The moment as a message shows it: seconds and microseconds only where they are needed. -/
def shown (m : Moment) : Text :=
  let fine := if m.microsecond ≠ 0 then [m.second, m.microsecond]
    else if m.second ≠ 0 then [m.second] else []
  let fields := [m.date.year, m.date.month, m.date.day, m.hour, m.minute] ++ fine
  let zone := (m.offset.map fun s => "tzinfo=".toList ++ zoneShown s).toList
  "datetime.datetime(".toList ++ Text.join ", ".toList (fields.map Text.ofNat ++ zone) ++ [')']

end Moment

end DocLint
