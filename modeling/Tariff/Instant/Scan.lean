import Tariff.Number.Power
import Tariff.Instant.Basic
import Tariff.Text.Blank
/-
  Tariff.Instant.Scan — the parts of which written instants are made.

  A scan takes characters off the front of a text or says why it cannot: the text is too short,
  holds a character that does not belong, or a number is out of range. `Fields.instant?` turns
  the numbers read into an instant.
-/

namespace Tariff.Instant

open Tariff.Text (dropBlanks isBlank)

/-- Why a text is not an instant. -/
inductive ScanError where
  | tooShort
  | invalid
  | outOfRange
  | impossible
  | tooLong
  deriving DecidableEq, Repr

def ScanError.message : ScanError → String
  | .tooShort => "premature end of input"
  | .invalid => "input contains invalid characters"
  | .outOfRange => "input is out of range"
  | .impossible => "no possible date and time matching input"
  | .tooLong => "trailing input"

/-- A value and the text after it. -/
abbrev Scan (α : Type) := List Char → Except ScanError (α × List Char)

/-- The bytes of a text. -/
def byteLength (cs : List Char) : Nat := cs.foldr (fun c n => c.utf8Size + n) 0

def digitValue (c : Char) : Nat := c.toNat - 48

/-- At least `least` digits, and no more than `most` of them are taken. -/
def number (least : Nat) (most : Option Nat) : Scan Nat := fun cs =>
  if byteLength cs < least then .error .tooShort
  else
    let digits := match most with
      | some most => (cs.take most).takeWhile Char.isDigit
      | none => cs.takeWhile Char.isDigit
    if digits.length < least then .error .invalid
    else
      let n := digits.foldl (fun n c => n * 10 + digitValue c) 0
      if n < twoPow 63 then .ok (n, cs.drop digits.length) else .error .outOfRange

/-- The character `c`. -/
def literal (c : Char) : Scan Unit
  | [] => .error .tooShort
  | x :: cs => if x = c then .ok ((), cs) else .error .invalid

/-- A number within bounds. -/
def within (low high : Nat) (n : Nat) : Except ScanError Nat :=
  if low ≤ n ∧ n ≤ high then .ok n else .error .outOfRange

/-- Exactly two digits within bounds. -/
def twoDigit (low high : Nat) : Scan Nat := fun cs => do
  let (n, cs) ← number 2 (some 2) cs
  .ok (← within low high n, cs)

/-- Blanks, then one or two digits within bounds. -/
def shortNumber (low high : Nat) : Scan Nat := fun cs => do
  let (n, cs) ← number 1 (some 2) (dropBlanks cs)
  .ok (← within low high n, cs)

/-- A year that fits 32 bits. -/
def yearWithin (y : Int) : Except ScanError Int :=
  if -(twoPow 31 : Int) ≤ y ∧ y < twoPow 31 then .ok y else .error .outOfRange

/-- Blanks, then up to four digits, or a sign and any number of digits. -/
def signedYear : Scan Int := fun cs =>
  match dropBlanks cs with
  | '-' :: cs => do
    let (n, cs) ← number 1 none cs
    .ok (← yearWithin (-(n : Int)), cs)
  | '+' :: cs => do
    let (n, cs) ← number 1 none cs
    .ok (← yearWithin n, cs)
  | cs => do
    let (n, cs) ← number 1 (some 4) cs
    .ok ((n : Int), cs)

/-- A point and digits: the fraction in nanoseconds, digits beyond the ninth ignored. No point
counts as zero. -/
def fraction : Scan Nat
  | '.' :: cs => do
    let (n, rest) ← number 1 (some 9) cs
    let taken := cs.length - rest.length
    .ok (n * tenPow (9 - taken), rest.dropWhile Char.isDigit)
  | cs => .ok (0, cs)

/-- The first two characters, if the text has two bytes. -/
def pair : Scan (Char × Char) := fun cs =>
  if byteLength cs < 2 then .error .tooShort
  else match cs with
    | a :: b :: cs => .ok ((a, b), cs)
    | _ => .error .invalid

/-- The sign of an offset. -/
def offsetSign : Scan Bool
  | [] => .error .tooShort
  | '+' :: cs => .ok (false, cs)
  | '-' :: cs => .ok (true, cs)
  | '−' :: cs => .ok (true, cs)
  | _ => .error .invalid

/-- An offset from UTC in minutes: `Z`, or a sign, two digits of hours, what `separator` takes,
and two digits of minutes. -/
def offset (separator : List Char → Except ScanError (List Char)) : Scan Int
  | 'Z' :: cs => .ok (0, cs)
  | 'z' :: cs => .ok (0, cs)
  | cs => do
    let (negative, cs) ← offsetSign cs
    let ((a, b), cs) ← pair cs
    if !(a.isDigit && b.isDigit) then throw .invalid
    let cs ← separator cs
    let ((c, d), cs) ← pair cs
    if !(c.isDigit && d.isDigit) then throw .invalid
    if '6' ≤ c then throw .outOfRange
    let minutes : Int :=
      (digitValue a * 10 + digitValue b) * 60 + (digitValue c * 10 + digitValue d)
    .ok (if negative then -minutes else minutes, cs)

/-- The numbers of a written instant. -/
structure Fields where
  date : Date
  hour : Nat
  minute : Nat
  second : Nat
  nano : Nat
  /-- Minutes ahead of UTC. -/
  offset : Int
  deriving Repr, DecidableEq

/-- The instant of these numbers: the date must exist, and so must the day in UTC. -/
def Fields.instant? (f : Fields) : Except ScanError Instant :=
  if !f.date.isValid then .error .outOfRange
  else if 1440 ≤ f.offset.natAbs then .error .outOfRange
  else
    let total : Int := f.date.toDays * 1440 + (f.hour * 60 + f.minute : Nat) - f.offset
    match ofParts? (total / 1440) (total % 1440).toNat f.second f.nano with
    | some t => .ok t
    | none => .error .impossible

end Tariff.Instant
