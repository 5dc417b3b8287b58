import Tariff.Instant.Basic
import Tariff.Decimal.Printer
/-
  Tariff.Instant.Printer — instants as text.

  An instant is written as RFC 3339 in UTC with a `Z`: in documents with no, three, six or nine
  digits of fraction, as few as are exact; for people without a fraction. Years beyond 9999 have
  a plus sign and negative ones a minus, with at least four digits.
-/

namespace Tariff.Instant

open Tariff.Decimal (digits padLeft)

def twoDigits (n : Nat) : List Char := padLeft 2 (digits n)

def yearText (y : Int) : List Char :=
  let ds := padLeft 4 (digits y.natAbs)
  if y < 0 then '-' :: ds else if 9999 < y then '+' :: ds else ds

def dateText (d : Date) : List Char :=
  yearText d.year ++ '-' :: twoDigits d.month ++ '-' :: twoDigits d.day

def timeText (minute second : Nat) : List Char :=
  twoDigits (minute / 60) ++ ':' :: twoDigits (minute % 60) ++ ':' :: twoDigits second

/-- The fraction of a second in as few groups of three digits as are exact. -/
def fractionText (nano : Nat) : List Char :=
  if nano = 0 then []
  else if nano % 1000000 = 0 then '.' :: padLeft 3 (digits (nano / 1000000))
  else if nano % 1000 = 0 then '.' :: padLeft 6 (digits (nano / 1000))
  else '.' :: padLeft 9 (digits nano)

/-- The instant as documents write it. -/
def text (t : Instant) : String :=
  String.ofList
    (dateText t.date ++ 'T' :: timeText t.minute t.second ++ fractionText t.nano ++ ['Z'])

/-- The instant as people read it: without a fraction. -/
def shown (t : Instant) : String :=
  String.ofList (dateText t.date ++ 'T' :: timeText t.minute t.second ++ ['Z'])

/-- An instant that may be absent, shown as a dash. -/
def shownOr (t : Option Instant) : String := t.elim "-" shown

end Tariff.Instant
