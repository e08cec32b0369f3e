/-!
# Instant

Moments of universal time, as seconds since the beginning of 1970 and nanoseconds.  A leap second
is the second before it with a billion nanoseconds more.

`Instant.text` is the date and time of day to the millisecond.  The calendar is the Gregorian one
extended in both directions, counted in cycles of four hundred years from the first of March, so
that the day a leap year adds is the last of its year (`civil`).
-/

namespace PacketLog

/-- A moment of universal time. -/
structure Instant where
  seconds : Int
  nanos   : Nat
deriving DecidableEq, Repr, Inhabited

namespace Instant

/-- A day of the calendar. -/
structure Date where
  year  : Int
  month : Nat
  day   : Nat
deriving DecidableEq, Repr

/-- The date a number of days after the first of January 1970. -/
def civil (days : Int) : Date :=
  let z := days + 719468
  let era := z.fdiv 146097
  let doe := (z.fmod 146097).toNat
  let yoe := (doe - doe / 1460 + doe / 36524 - doe / 146096) / 365
  let doy := doe - (365 * yoe + yoe / 4 - yoe / 100)
  let mp := (5 * doy + 2) / 153
  let day := doy - (153 * mp + 2) / 5 + 1
  let month := if mp < 10 then mp + 3 else mp - 9
  { year := yoe + era * 400 + (if month ≤ 2 then 1 else 0), month, day }

/-- The first and the last year that have dates. -/
def firstYear : Int := -262143

/-- The last year that has dates. -/
def lastYear : Int := 262142

/-- The moment, when there is one: the year must have dates, and only the last second of a minute
may be a leap second. -/
def ofUnix? (seconds : Int) (nanos : Nat) : Option Instant :=
  let year := (civil (seconds.fdiv 86400)).year
  if year < firstYear || lastYear < year then none
  else if 2000000000 ≤ nanos then none
  else if 1000000000 ≤ nanos && seconds.fmod 60 ≠ 59 then none
  else some { seconds, nanos }

/-- A number in decimal, with zeros in front up to `width` digits. -/
def padded (width n : Nat) : List Char :=
  let ds := Nat.toDigits 10 n
  List.replicate (width - ds.length) '0' ++ ds

/-- A year: four digits, with a sign when it has more or is negative. -/
def yearText (year : Int) : List Char :=
  if 0 ≤ year && year ≤ 9999 then padded 4 year.toNat
  else (if year < 0 then '-' else '+') :: padded 4 year.natAbs

/-- Date and time of day, to the millisecond, the rest cut off. -/
def text (t : Instant) : String :=
  let date := civil (t.seconds.fdiv 86400)
  let ofDay := (t.seconds.fmod 86400).toNat
  let leap := if 1000000000 ≤ t.nanos then 1 else 0
  let millis := (t.nanos - 1000000000 * leap) / 1000000
  String.ofList <|
    yearText date.year ++ '-' :: padded 2 date.month ++ '-' :: padded 2 date.day ++
    'T' :: padded 2 (ofDay / 3600) ++ ':' :: padded 2 (ofDay / 60 % 60) ++
    ':' :: padded 2 (ofDay % 60 + leap) ++ '.' :: padded 3 millis ++ ['Z']

end Instant

end PacketLog
