import DumpMode.Text.Digits

/-!
# Points in time

A point in time is a count of seconds from the start of 1970 with a fraction in nanoseconds. A
fraction of a whole second or more belongs to a leap second, which is shown as second sixty. The
calendar is the Gregorian one throughout; a year outside four digits has its sign written.
-/

namespace DumpMode.Journal

structure Timestamp where
  /-- Whole seconds from the start of 1970. -/
  seconds : Int
  nanoseconds : Nat
deriving DecidableEq, Repr

structure Date where
  /-- The year; the year before 1 is 0. -/
  year : Int
  month : Nat
  day : Nat
deriving DecidableEq, Repr

/-- The date a number of days after 1 January 1970. The days are counted in eras of 400 years from
1 March of year 0, so that a leap day is the last day of its year. -/
def Date.ofDays (days : Int) : Date :=
  let shifted := days + 719468
  let era := shifted.fdiv 146097
  let dayOfEra := (shifted.fmod 146097).toNat
  let yearOfEra := (dayOfEra - dayOfEra / 1460 + dayOfEra / 36524 - dayOfEra / 146096) / 365
  let dayOfYear := dayOfEra - (365 * yearOfEra + yearOfEra / 4 - yearOfEra / 100)
  let monthFromMarch := (5 * dayOfYear + 2) / 153
  let month := if monthFromMarch < 10 then monthFromMarch + 3 else monthFromMarch - 9
  { year := era * 400 + yearOfEra + (if month ≤ 2 then 1 else 0)
    month
    day := dayOfYear - (153 * monthFromMarch + 2) / 5 + 1 }

namespace Timestamp

/-- A year in four digits, or with its sign if it needs more or is below zero. -/
def yearText (year : Int) : List Char :=
  if 0 ≤ year ∧ year ≤ 9999 then Text.decimalPadded 4 year.toNat
  else (if year < 0 then '-' else '+') :: Text.decimalPadded 4 year.natAbs

def clockText (t : Timestamp) : List Char :=
  let date := Date.ofDays (t.seconds.fdiv 86400)
  let ofDay := (t.seconds.fmod 86400).toNat
  let second := ofDay % 60 + t.nanoseconds / 1000000000
  yearText date.year ++ '-' :: Text.decimalPadded 2 date.month ++
    '-' :: Text.decimalPadded 2 date.day ++
    'T' :: Text.decimalPadded 2 (ofDay / 3600) ++ ':' :: Text.decimalPadded 2 (ofDay / 60 % 60) ++
    ':' :: Text.decimalPadded 2 second

/-- The fraction of a second in as few of three, six or nine digits as are exact, or not at all. -/
def fractionText (t : Timestamp) : List Char :=
  let n := t.nanoseconds % 1000000000
  if n = 0 then []
  else if n % 1000000 = 0 then '.' :: Text.decimalPadded 3 (n / 1000000)
  else if n % 1000 = 0 then '.' :: Text.decimalPadded 6 (n / 1000)
  else '.' :: Text.decimalPadded 9 n

/-- The point in time with its exact fraction and offset from universal time. -/
def exactText (t : Timestamp) : List Char := t.clockText ++ t.fractionText ++ "+00:00".toList

/-- The point in time to the millisecond, the rest cut off. -/
def millisecondText (t : Timestamp) : List Char :=
  t.clockText ++ '.' :: Text.decimalPadded 3 (t.nanoseconds % 1000000000 / 1000000) ++ ['Z']

end Timestamp

end DumpMode.Journal
