import Mathlib
import Tariff.Command.Price
import Tariff.Proofs.Action.Exec
/-
  Tariff.Proofs.Command.Moves — what can be done with a backend, and runs of it.

  A move is a call of the backend or a command. It comes to an answer and shows pages. In a run
  moves follow each other, each from the state that the one before it left and with no pages
  shown yet.
-/

namespace Tariff

/-- What is done with a backend: one of its calls, or a command. -/
inductive Move where
  | currencies
  | history (priceId : String)
  | append (priceId : String) (new : NewVersion)
  | showCurrencies
  | showHistory (priceId : String) (now : Instant)
  | add (priceId : String) (proposal : Proposal) (confirmed : Bool) (now : Instant)
  deriving DecidableEq, Repr

/-- What a move comes to. -/
inductive Answer where
  | currencies (cs : List Currency)
  | history (h : History)
  | version (v : Version)
  /-- A command is done. -/
  | done
  deriving DecidableEq, Repr

namespace Move

variable {m : Type → Type} [Monad m] {σ : Type} [Stateful m σ]

/-- Make a move. -/
def perform (b : Backend m) (color : Bool) : Move → Console m Answer
  | .currencies => do return .currencies (← Console.perform b.currencies)
  | .history priceId => do return .history (← Console.perform (b.history priceId))
  | .append priceId new => do return .version (← Console.perform (b.append priceId new))
  | .showCurrencies => do
    Command.showCurrencies b color
    return .done
  | .showHistory priceId now => do
    Command.showHistory b color priceId now
    return .done
  | .add priceId proposal confirmed now => do
    Command.addVersion b color priceId proposal confirmed now
    return .done

/-- The move appends nothing that has not been decided on. -/
def Gated : Move → Prop
  | .append .. => False
  | _ => True

/-- What a move comes to from a state: the answer or why it stopped, and the pages it showed. -/
def reply (mv : Move) (b : Backend m) (color : Bool) (s : σ) : Except Stop Answer × List String :=
  (((mv.perform b color).exec ([], s)).1, ((mv.perform b color).exec ([], s)).2.1)

/-- The state that a move leaves. -/
def next (mv : Move) (b : Backend m) (color : Bool) (s : σ) : σ := ((mv.perform b color).exec ([], s)).2.2

end Move

end Tariff
