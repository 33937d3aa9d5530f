/-
# Dates and times

A timestamp, given by nanoseconds since the start of 1970, is shown in the form of RFC 3339: date
and time of day in UTC, with as many digits of the fraction as it needs. The programs leave this to
a library (`TimeLibrary`). Here is one (`TimeLibrary.gregorian`); it counts days in eras of 400
years that start with a March, so that the day which a leap year adds is the last one of its year.
-/
namespace TrafficReplay

namespace Calendar

/-- A day of the proleptic Gregorian calendar. -/
structure Date where
  year : Int
  month : Nat
  day : Nat
  deriving Repr, DecidableEq

def daysPerEra : Int := 146097

/-- The days from the first of March of the year zero to the start of 1970. -/
def daysBefore1970 : Int := 719468

/-- The year of an era, counted from March, that a day of the era lies in. -/
def yearOfEra (day : Nat) : Nat :=
  (day - day / 1460 + day / 36524 - day / 146096) / 365

def firstDayOfYear (year : Nat) : Nat :=
  365 * year + year / 4 - year / 100

/-- The month, counted from March as zero, that a day of a year lies in. -/
def monthOfYear (day : Nat) : Nat :=
  (5 * day + 2) / 153

/-- The first day of a month that is counted from March as zero. -/
def firstDayOfMonth (month : Nat) : Nat :=
  (153 * month + 2) / 5

def Date.ofDays (days : Int) : Date :=
  let shifted := days + daysBefore1970
  let dayOfEra := (shifted % daysPerEra).toNat
  let yearOfEra := yearOfEra dayOfEra
  let dayOfYear := dayOfEra - firstDayOfYear yearOfEra
  let month := monthOfYear dayOfYear
  let fromJanuary := if month < 10 then month + 3 else month - 9
  let year : Int := shifted / daysPerEra * 400 + yearOfEra
  { year := if fromJanuary ≤ 2 then year + 1 else year
    month := fromJanuary
    day := dayOfYear - firstDayOfMonth month + 1 }

/-- A number with zeros in front, up to `width` digits. -/
def padded (width n : Nat) : List Char :=
  let digits := Nat.toDigits 10 n
  List.replicate (width - digits.length) '0' ++ digits

/-- A fraction of a second in nanoseconds, without zeros at its end; nothing at all if it is zero.
-/
def fraction (nanoseconds : Nat) : List Char :=
  if nanoseconds = 0 then []
  else '.' :: ((padded 9 nanoseconds).reverse.dropWhile (· = '0')).reverse

def perSecond : Int := 1000000000

def perDay : Int := 86400

/-- A date with a time of day. -/
structure DateTime where
  date : Date
  hour : Nat
  minute : Nat
  second : Nat
  nanosecond : Nat
  deriving Repr, DecidableEq

namespace DateTime

/-- The date and the time of day in UTC, so many nanoseconds after the start of 1970. -/
def ofNanoseconds (nanoseconds : Int) : DateTime :=
  let seconds := nanoseconds / perSecond
  let secondOfDay := (seconds % perDay).toNat
  { date := Date.ofDays (seconds / perDay)
    hour := secondOfDay / 3600
    minute := secondOfDay / 60 % 60
    second := secondOfDay % 60
    nanosecond := (nanoseconds % perSecond).toNat }

/-- A date with a time of day in UTC; years of other than four digits have no such form. -/
def rfc3339? (moment : DateTime) : Option String :=
  if 0 ≤ moment.date.year ∧ moment.date.year ≤ 9999 then
    some (String.ofList (padded 4 moment.date.year.toNat ++ '-' :: padded 2 moment.date.month ++
      '-' :: padded 2 moment.date.day ++ 'T' :: padded 2 moment.hour ++
      ':' :: padded 2 moment.minute ++
      ':' :: padded 2 moment.second ++ fraction moment.nanosecond ++ ['Z']))
  else none

end DateTime

end Calendar

open Calendar

/-- What a library of times offers. -/
structure TimeLibrary where
  /-- Instants, each with the offset that it is seen from. -/
  Moment : Type
  /-- The moment in UTC so many nanoseconds after the start of 1970, unless it is out of range. -/
  ofNanoseconds : Int → Option Moment
  /-- What calendar and clock show at a moment. -/
  clock : Moment → DateTime
  /-- By how many seconds a moment is seen from UTC. -/
  offset : Moment → Int
  /-- A moment in the form of RFC 3339, unless it has none. -/
  rfc3339 : Moment → Option String

namespace TimeLibrary

/-- A timestamp as the programs show it: in the form of RFC 3339, or else as its nanoseconds. -/
def timeText (library : TimeLibrary) (nanoseconds : Int) : String :=
  ((library.ofNanoseconds nanoseconds).bind library.rfc3339).getD (toString nanoseconds ++ "ns")

/-- Times on the calendar of this module, all of them in UTC. Years have four digits, and may have a
sign. -/
def gregorian : TimeLibrary where
  Moment := Int
  ofNanoseconds nanoseconds :=
    let year := (DateTime.ofNanoseconds nanoseconds).date.year
    if -9999 ≤ year ∧ year ≤ 9999 then some nanoseconds else none
  clock := DateTime.ofNanoseconds
  offset _ := 0
  rfc3339 nanoseconds := (DateTime.ofNanoseconds nanoseconds).rfc3339?

end TimeLibrary

end TrafficReplay
