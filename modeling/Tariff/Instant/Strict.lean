import Tariff.Instant.Scan
/-
  Tariff.Instant.Strict — RFC 3339, every number padded.

  The date and the time stand apart by a `T` of either case or a space; an offset is required.
-/

namespace Tariff.Instant

/-- The character between date and time. -/
def dateTimeMark : Scan Unit
  | [] => .error .tooShort
  | c :: cs => if c = 'T' ∨ c = 't' ∨ c = ' ' then .ok ((), cs) else .error .invalid

/-- The largest offset, in minutes. -/
def maxStrictOffset : Nat := 23 * 60 + 59

/-- The numbers of an RFC 3339 text. -/
def strictFields : Scan Fields := fun cs => do
  let (year, cs) ← number 4 (some 4) cs
  let (_, cs) ← literal '-' cs
  let (month, cs) ← twoDigit 1 12 cs
  let (_, cs) ← literal '-' cs
  let (day, cs) ← twoDigit 1 31 cs
  let (_, cs) ← dateTimeMark cs
  let (hour, cs) ← twoDigit 0 23 cs
  let (_, cs) ← literal ':' cs
  let (minute, cs) ← twoDigit 0 59 cs
  let (_, cs) ← literal ':' cs
  let (second, cs) ← twoDigit 0 60 cs
  let (nano, cs) ← fraction cs
  let (offset, cs) ← offset (fun cs => (literal ':' cs).map (·.2)) cs
  if maxStrictOffset < offset.natAbs then throw .outOfRange
  .ok (⟨⟨year, month, day⟩, hour, minute, second, nano, offset⟩, cs)

end Tariff.Instant
