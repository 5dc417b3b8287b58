import Tariff.Fault
import Tariff.Currency.Basic
import Tariff.Version.History
/-
  Tariff.Backend.Basic — where currencies and the histories of prices are kept.

  A backend lists the currencies, lists the versions of a price, and appends a version to a
  price. Nothing else can be done to a history.
-/

namespace Tariff

/-- The reading that is done first, when the history of a price and the currencies are asked for
at once. -/
inductive Lead where
  | history
  | currencies
  deriving DecidableEq, Repr

/-- What keeps currencies and histories. -/
structure Backend (m : Type → Type) where
  currencies : Act m (List Currency)
  /-- The versions of a price. -/
  history (priceId : String) : Act m History
  /-- Append a version to a price; the version as it is kept then. -/
  append (priceId : String) (new : NewVersion) : Act m Version
  /-- Which of two readings at once is done first. -/
  lead : Lead

namespace Backend

variable {m : Type → Type} [Monad m]

/-- A backend used by actions that have a state of their own. -/
def lift {σ : Type} (b : Backend m) : Backend (StateT σ m) where
  currencies := b.currencies.lift
  history priceId := (b.history priceId).lift
  append priceId new := (b.append priceId new).lift
  lead := b.lead

end Backend

end Tariff
