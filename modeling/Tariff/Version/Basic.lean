import Tariff.Decimal.Basic
import Tariff.Instant.Basic
import Tariff.Text.Blank
/-
  Tariff.Version.Basic — the versions of a price.

  A version sets the amount of a price in one currency from an instant on. Versions are only
  ever appended to the history of a price. What a version is at an instant follows from where
  it starts and ends.
-/

namespace Tariff

/-- One version of a price's amount in one currency. -/
structure Version where
  id : String
  priceId : Option String
  currency : String
  amount : Decimal
  effectiveFrom : Instant
  effectiveTo : Option Instant
  deriving DecidableEq, Repr

/-- The state of a version at an instant. -/
inductive Status where
  | active
  | scheduled
  | expired
  /-- Started, and to end later. -/
  | unknown
  deriving DecidableEq, Repr

def Status.name : Status → String
  | .active => "Active"
  | .scheduled => "Scheduled"
  | .expired => "Expired"
  | .unknown => "Unknown"

namespace Version

/-- The version is in the currency of this code. -/
def isIn (v : Version) (code : String) : Bool := Text.sameCode v.currency code

/-- The version has ended by an instant. -/
def hasEnded (v : Version) (now : Instant) : Bool := v.effectiveTo.elim false (· ≤ now)

/-- The state of a version at an instant. -/
def statusAt (v : Version) (now : Instant) : Status :=
  if v.hasEnded now then .expired
  else if now < v.effectiveFrom then .scheduled
  else if v.effectiveTo.isNone then .active
  else .unknown

end Version

/-- What is asked for when a version is appended to a price. -/
structure NewVersion where
  currency : String
  amount : Decimal
  effectiveFrom : Instant
  deriving DecidableEq, Repr

end Tariff
