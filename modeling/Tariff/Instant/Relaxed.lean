import Tariff.Instant.Strict
/-
  Tariff.Instant.Relaxed — the instants of documents.

  As RFC 3339, but numbers may be unpadded and have blanks in front, years may be signed and
  longer, blanks may stand before the marks and before the offset, the offset may be `UTC` or
  leave out its colon, and blanks may follow.
-/

namespace Tariff.Instant

open Tariff.Text (dropBlanks isBlank)

/-- Blanks, then a literal. -/
def spacedLiteral (c : Char) : Scan Unit := fun cs => literal c (dropBlanks cs)

/-- Year, month and day with blanks anywhere between them. -/
def relaxedDate : Scan Date := fun cs => do
  let (year, cs) ← signedYear cs
  let (_, cs) ← spacedLiteral '-' cs
  let (month, cs) ← shortNumber 1 12 cs
  let (_, cs) ← spacedLiteral '-' cs
  let (day, cs) ← shortNumber 1 31 cs
  .ok (⟨year, month, day⟩, cs)

/-- The colon of an offset: any run of colons and blanks, or nothing. -/
def looseColon (cs : List Char) : Except ScanError (List Char) :=
  .ok (cs.dropWhile fun c => c == ':' || isBlank c)

/-- Blanks, then `UTC` in either case or an offset. -/
def relaxedOffset : Scan Int := fun cs =>
  match dropBlanks cs with
  | a :: b :: c :: cs =>
    if [a, b, c].map Text.foldAscii = ['u', 't', 'c'] then .ok (0, cs)
    else offset looseColon (a :: b :: c :: cs)
  | cs => offset looseColon cs

/-- The numbers of a document's instant. -/
def relaxedFields : Scan Fields := fun cs => do
  let (date, cs) ← relaxedDate cs
  let (_, cs) ← dateTimeMark cs
  let (hour, cs) ← shortNumber 0 23 cs
  let (_, cs) ← spacedLiteral ':' cs
  let (minute, cs) ← shortNumber 0 59 cs
  let (_, cs) ← spacedLiteral ':' cs
  let (second, cs) ← shortNumber 0 60 cs
  let (nano, cs) ← fraction cs
  let (offset, cs) ← relaxedOffset cs
  .ok (⟨date, hour, minute, second, nano, offset⟩, cs)

/-- The instant that a document writes. -/
def readRelaxed (s : String) : Except ScanError Instant := do
  let (fields, rest) ← relaxedFields s.toList
  if !(dropBlanks rest).isEmpty then throw .tooLong
  fields.instant?

end Tariff.Instant
