import Tariff.Instant.Calendar
/-
  Tariff.Instant.Basic — instants of UTC, leap seconds included.

  An instant is a day, a minute of the day, a second of the minute up to 60 (the leap second)
  and nanoseconds. Instants are ordered by their `stamp`, a single integer in which every
  minute has room for 61 seconds; a time zone offset only moves the day and the minute.
-/

namespace Tariff

/-- The days that can be written. -/
def firstDay : Int := Date.toDays ⟨Date.firstYear, 1, 1⟩
def lastDay : Int := Date.toDays ⟨Date.lastYear, 12, 31⟩

/-- An instant of UTC. -/
structure Instant where
  day : Int
  minute : Nat
  second : Nat
  nano : Nat
  first_le : firstDay ≤ day
  le_last : day ≤ lastDay
  minute_lt : minute < 1440
  second_le : second ≤ 60
  nano_lt : nano < 1000000000
  deriving DecidableEq, Repr

namespace Instant

/-- The instant of these parts, if they are in range. -/
def ofParts? (day : Int) (minute second nano : Nat) : Option Instant :=
  if hd : firstDay ≤ day ∧ day ≤ lastDay then
    if ht : minute < 1440 ∧ second ≤ 60 ∧ nano < 1000000000 then
      some ⟨day, minute, second, nano, hd.1, hd.2, ht.1, ht.2.1, ht.2.2⟩
    else none
  else none

/-- The start of day 0. -/
def epoch : Instant where
  day := 0
  minute := 0
  second := 0
  nano := 0
  first_le := by decide
  le_last := by decide
  minute_lt := by decide
  second_le := by decide
  nano_lt := by decide

/-- The instant so many seconds after the start of day 0, leap seconds not counted. -/
def ofSeconds? (seconds : Int) (nano : Nat) : Option Instant :=
  let ofDay := (seconds % 86400).toNat
  ofParts? (seconds / 86400) (ofDay / 60) (ofDay % 60) nano

/-- The place of an instant on one line. -/
def stamp (t : Instant) : Int :=
  ((t.day * 1440 + t.minute) * 61 + t.second) * 1000000000 + t.nano

instance : LE Instant := ⟨fun a b => a.stamp ≤ b.stamp⟩
instance : LT Instant := ⟨fun a b => a.stamp < b.stamp⟩
instance (a b : Instant) : Decidable (a ≤ b) := inferInstanceAs (Decidable (a.stamp ≤ b.stamp))
instance (a b : Instant) : Decidable (a < b) := inferInstanceAs (Decidable (a.stamp < b.stamp))

/-- The later of two instants. -/
def later (a b : Instant) : Instant := if a ≤ b then b else a

/-- The last instant of a list. -/
def latest? : List Instant → Option Instant
  | [] => none
  | t :: ts => some ((latest? ts).elim t (later t))

/-- The instant without its fraction of a second. -/
def wholeSecond (t : Instant) : Instant := { t with nano := 0, nano_lt := by decide }

/-- The date on which the instant falls. -/
def date (t : Instant) : Date := Date.ofDays t.day

end Instant

end Tariff
