import Tariff.Fault
import Tariff.Text.Lines
/-
  Tariff.Command.Console — actions that show pages to an operator.

  Pages that were shown stay, also when the action then stops.
-/

namespace Tariff

/-- An action that shows pages and may stop. -/
abbrev Console (m : Type → Type) (α : Type) := Act (StateT (List String) m) α

namespace Console

variable {m : Type → Type} [Monad m] {α : Type}

/-- Show a page. -/
def say (page : String) : Console m Unit := modify (· ++ [page])

/-- Do something that shows nothing. -/
def perform (act : Act m α) : Console m α := act.lift

/-- How the action ended, and the pages that it showed. -/
def run (act : Console m α) : m (Except Stop α × List String) := (ExceptT.run act).run []

/-- Pages as text. -/
def text (pages : List String) : String := String.join (pages.map (· ++ "\n"))

end Console

end Tariff
