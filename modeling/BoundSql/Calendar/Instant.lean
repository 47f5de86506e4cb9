import BoundSql.Calendar.Date
import BoundSql.Text.Digits

/-!
# Instants

An instant counts the seconds since 1970-01-01 00:00:00 UTC and the nanoseconds after that second.
From a thousand million nanoseconds on it lies in a leap second. Any second can have one, but only
that of the last second of a minute is written as such; any other is written as the next second.
-/
namespace BoundSql.Calendar

/-- The first second of the year -262143. -/
def minSeconds : Int := -8334601228800

/-- The last second of the year 262142. -/
def maxSeconds : Int := 8210266876799

structure Instant where
  seconds : Int
  nanos : Nat
  inRange : minSeconds ≤ seconds ∧ seconds ≤ maxSeconds
  nanos_lt : nanos < 2000000000
  deriving DecidableEq

namespace Instant

def ofParts? (seconds : Int) (nanos : Nat) : Option Instant :=
  if h : (minSeconds ≤ seconds ∧ seconds ≤ maxSeconds) ∧ nanos < 2000000000 then
    some ⟨seconds, nanos, h.1, h.2⟩
  else none

def epoch : Instant := ⟨0, 0, by decide, by decide⟩

instance : Inhabited Instant := ⟨epoch⟩

/-- The day count of the instant's date. -/
def days (t : Instant) : Int := t.seconds / 86400

end Instant

/-- A date and a time of day as they are written; second 60 is a leap second. -/
structure CivilTime where
  date : Date
  hour : Nat
  minute : Nat
  second : Nat
  nanos : Nat
  deriving DecidableEq

namespace CivilTime

def ofInstant (t : Instant) : CivilTime :=
  let ofDay := (t.seconds % 86400).toNat
  { date := Date.ofDays t.days
    hour := ofDay / 3600
    minute := ofDay / 60 % 60
    second := ofDay % 60 + t.nanos / 1000000000
    nanos := t.nanos % 1000000000 }

/-- The instant of a civil time that is `offset` seconds ahead of UTC. -/
def toInstant? (c : CivilTime) (offset : Int) : Option Instant :=
  if c.date.isValid && -262143 ≤ c.date.year && c.date.year ≤ 262142
      && c.hour < 24 && c.minute < 60 && c.second ≤ 60 then
    let second := min c.second 59
    let nanos := if c.second = 60 then c.nanos + 1000000000 else c.nanos
    let ofDay : Int := (c.hour * 3600 + c.minute * 60 + second : Nat)
    Instant.ofParts? (c.date.toDays * 86400 + ofDay - offset) nanos
  else none

end CivilTime

open Text.Digits (decimal padded)

/-- A year has four digits, and a sign if it is negative or has more. -/
def yearChars (year : Int) : List Char :=
  if 0 ≤ year ∧ year ≤ 9999 then padded 4 year.natAbs
  else (if year < 0 then '-' else '+') :: padded 4 year.natAbs

/-- No fraction, or as many of 3, 6 and 9 digits as are needed. -/
def fractionChars (nanos : Nat) : List Char :=
  if nanos = 0 then []
  else if nanos % 1000000 = 0 then '.' :: padded 3 (nanos / 1000000)
  else if nanos % 1000 = 0 then '.' :: padded 6 (nanos / 1000)
  else '.' :: padded 9 nanos

def dateChars (d : Date) : List Char :=
  yearChars d.year ++ '-' :: padded 2 d.month ++ '-' :: padded 2 d.day

def clockChars (hour minute second nanos : Nat) : List Char :=
  padded 2 hour ++ ':' :: padded 2 minute ++ ':' :: padded 2 second ++ fractionChars nanos

def CivilTime.chars (c : CivilTime) : List Char :=
  dateChars c.date ++ ' ' :: clockChars c.hour c.minute c.second c.nanos

def Instant.chars (t : Instant) : List Char := (CivilTime.ofInstant t).chars

/-- `year-month-day hour:minute:second` with a fraction, in UTC. -/
def Instant.toText (t : Instant) : String := String.ofList t.chars

end BoundSql.Calendar
