import Tariff.Number.Power
/-
  Tariff.Cache.Basic — values that are kept for some time.

  An entry expires at an instant of the clock, or never. Looking up an entry whose instant has
  come drops it. An instant that the clock cannot show makes putting fail.
-/

namespace Tariff

/-- Milliseconds of a clock that only goes forward. -/
abbrev Ticks := Nat

def ticksPerSecond : Nat := 1000

/-- The first instant that the clock cannot show: 2^63 seconds. -/
def clockEnd : Ticks := twoPow 63 * ticksPerSecond

/-- A value and when it expires. -/
structure CacheEntry (V : Type) where
  value : V
  expiresAt : Option Ticks
  deriving Repr

/-- The entry is no longer good. -/
def CacheEntry.isExpired {V : Type} (e : CacheEntry V) (now : Ticks) : Bool :=
  e.expiresAt.elim false (· ≤ now)

/-- Entries by key; no key occurs twice. -/
structure Cache (K V : Type) where
  entries : List (K × CacheEntry V)

namespace Cache

variable {K V : Type} [DecidableEq K]

def empty : Cache K V := ⟨[]⟩

instance : Inhabited (Cache K V) := ⟨empty⟩

/-- The entry of a key. -/
def entry? (c : Cache K V) (key : K) : Option (CacheEntry V) := c.entries.lookup key

def remove (c : Cache K V) (key : K) : Cache K V := ⟨c.entries.filter fun e => e.1 ≠ key⟩

def clear (_ : Cache K V) : Cache K V := empty

/-- The value of a key that has not expired. -/
def get (c : Cache K V) (now : Ticks) (key : K) : Option V × Cache K V :=
  match c.entry? key with
  | none => (none, c)
  | some e => if e.isExpired now then (none, c.remove key) else (some e.value, c)

/-- When a value put now expires, if the clock can show it. -/
def expiry? (now : Ticks) : Option Ticks → Option (Option Ticks)
  | none => some none
  | some ttl => if now + ttl < clockEnd then some (some (now + ttl)) else none

/-- Keep a value for a time, or for good. -/
def put? (c : Cache K V) (now : Ticks) (key : K) (value : V) (ttl : Option Ticks) :
    Option (Cache K V) :=
  (expiry? now ttl).map fun expiresAt => ⟨(key, ⟨value, expiresAt⟩) :: (c.remove key).entries⟩

end Cache

end Tariff
