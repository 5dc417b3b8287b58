import Tariff.Instant.Relaxed
/-
  Tariff.Instant.Typed — the instants that an operator types.

  RFC 3339 is tried first; then a date and time without an offset, taken as UTC, with a `T` and
  optional seconds and fraction or with blanks and seconds; then a bare date, which is midnight.
  In the forms without an offset numbers may be unpadded, have blanks in front, and years signs.
-/

namespace Tariff.Instant

open Tariff.Text (dropBlanks trimChars)

/-- Year, month and day. -/
def plainDate : Scan Date := fun cs => do
  let (year, cs) ← signedYear cs
  let (_, cs) ← literal '-' cs
  let (month, cs) ← shortNumber 1 12 cs
  let (_, cs) ← literal '-' cs
  let (day, cs) ← shortNumber 1 31 cs
  .ok (⟨year, month, day⟩, cs)

/-- Hour and minute. -/
def clock : Scan (Nat × Nat) := fun cs => do
  let (hour, cs) ← shortNumber 0 23 cs
  let (_, cs) ← literal ':' cs
  let (minute, cs) ← shortNumber 0 59 cs
  .ok ((hour, minute), cs)

/-- A colon and seconds. -/
def seconds : Scan Nat := fun cs => do
  let (_, cs) ← literal ':' cs
  shortNumber 0 60 cs

/-- Date, `T`, hour, minute, second and an optional fraction. -/
def withFraction : Scan Fields := fun cs => do
  let (date, cs) ← plainDate cs
  let (_, cs) ← literal 'T' cs
  let ((hour, minute), cs) ← clock cs
  let (second, cs) ← seconds cs
  let (nano, cs) ← fraction cs
  .ok (⟨date, hour, minute, second, nano, 0⟩, cs)

/-- Date, `T`, hour and minute. -/
def withoutSeconds : Scan Fields := fun cs => do
  let (date, cs) ← plainDate cs
  let (_, cs) ← literal 'T' cs
  let ((hour, minute), cs) ← clock cs
  .ok (⟨date, hour, minute, 0, 0, 0⟩, cs)

/-- Date, blanks, hour, minute and second. -/
def spaced : Scan Fields := fun cs => do
  let (date, cs) ← plainDate cs
  let ((hour, minute), cs) ← clock (dropBlanks cs)
  let (second, cs) ← seconds cs
  .ok (⟨date, hour, minute, second, 0, 0⟩, cs)

/-- A date, at midnight. -/
def bareDate : Scan Fields := fun cs => do
  let (date, cs) ← plainDate cs
  .ok (⟨date, 0, 0, 0, 0, 0⟩, cs)

/-- The instant of a form that must take the whole text. -/
def whole? (form : Scan Fields) (cs : List Char) : Option Instant :=
  match form cs with
  | .ok (fields, []) => fields.instant?.toOption
  | _ => none

/-- The forms in the order in which they are tried. -/
def typedForms : List (Scan Fields) :=
  [strictFields, withFraction, withoutSeconds, spaced, bareDate]

/-- The instant that an operator typed, blanks around it ignored. -/
def readTyped? (s : String) : Option Instant :=
  typedForms.findSome? fun form => whole? form (trimChars s.toList)

end Tariff.Instant
