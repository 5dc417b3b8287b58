import Tariff.Command.Console
import Tariff.Files.Disk
import Tariff.Proposal.CheckInput
import Tariff.Proposal.Gate
import Tariff.View.Pages
import Tariff.Yaml.Source
/-
  Tariff.Command.Check — deciding on a proposal without asking the service.

  The file holds the currencies, the history and the proposal. The outcome is shown; a rejected
  proposal is also a fault.
-/

namespace Tariff

variable {m : Type → Type} [Monad m]

/-- Load the input in a file. -/
def CheckInput.load (disk : Disk m) (path : String) : Act m CheckInput := do
  let text ← Act.ofExcept (.unreadable .input path) (← (disk.read path : m _))
  Act.ofExcept (.undecodable .input path) (Yaml.decode decode text)

namespace Command

/-- Show the outcome of a proposal, and go on if it is accepted. -/
def decide (color : Bool) (proposal : Proposal) (currencies : List Currency)
    (history : History) (now : Instant) : Console m Acceptance := do
  let outcome := proposal.validate currencies history now
  Console.say
    (← Act.ofOption (View.outcomePage? color outcome proposal currencies history))
  Act.ofExcept (fun reasons => .rejected reasons.length) outcome

/-- Decide on the proposal in a file. -/
def checkFile (disk : Disk m) (color : Bool) (path : String) (now : Instant) : Console m Unit := do
  let input ← Console.perform (CheckInput.load disk path)
  discard (decide color input.proposal input.currencies input.history now)

end Command

end Tariff
