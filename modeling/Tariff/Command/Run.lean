import Tariff.Command.Price
import Tariff.Command.Setup
import Tariff.Config.Load
import Tariff.Backend.Shelf
import Tariff.Billing.Client
/-
  Tariff.Command.Run — commands, and what running one takes.

  The commands that need the service load the configuration first, and what the service answers
  to one reading is used again within the same command.
-/

namespace Tariff

/-- What a command does. Without an instant it acts as of the time at which it runs. -/
inductive Command where
  /-- Write a configuration to start from. -/
  | setup
  | check (path : String) (now : Option Instant)
  | currencies
  | history (priceId : String) (now : Option Instant)
  | add (priceId : String) (proposal : Proposal) (confirmed : Bool) (now : Option Instant)
  deriving DecidableEq, Repr

/-- What commands use of the machine that they run on. -/
structure Host (m : Type → Type) where
  disk : Disk m
  link : Link m
  /-- Wait for so many milliseconds. -/
  sleep : Nat → m Unit
  /-- A clock that only goes forward. -/
  clock : m Ticks
  /-- The time of the day. -/
  today : m Instant
  /-- Which of two requests at once is answered first. -/
  lead : Lead := .history

namespace Command

variable {m : Type → Type} [Monad m]

/-- The service that a configuration names. -/
def connect (host : Host m) (config : Config) : Backend (StateT Shelf m) :=
  let client : Billing.Client m := ⟨config.service, host.link, host.sleep⟩
  Backend.shelved { client.backend with lead := host.lead } host.clock config.cache

/-- Do something with the service that the configuration in a file names. -/
def online {α : Type} (host : Host m) (configPath : String)
    (act : Backend (StateT Shelf m) → Console (StateT Shelf m) α) : Console m α := do
  let config ← Console.perform (Config.load host.disk configPath)
  ExceptT.mk fun pages => do
    let (result, _) ← (StateT.run (ExceptT.run (act (connect host config))) pages).run .empty
    return result

/-- The instant that a command acts as of. -/
def asOf (host : Host m) (now : Option Instant) : Console m Instant :=
  match now with
  | some t => return t
  | none => Console.perform (ExceptT.lift host.today)

/-- Run a command. The default path is that of the configuration unless another is chosen. -/
def run (host : Host m) (color : Bool) (defaultPath : String) (chosen : Option String) :
    Command → Console m Unit
  | .setup => setUp host.disk defaultPath
  | .check path now => do
    checkFile host.disk color path (← asOf host now)
  | .currencies =>
    online host (chosen.getD defaultPath) fun b => showCurrencies b color
  | .history priceId now => do
    let now ← asOf host now
    online host (chosen.getD defaultPath) fun b => showHistory b color priceId now
  | .add priceId proposal confirmed now => do
    let now ← asOf host now
    online host (chosen.getD defaultPath) fun b => addVersion b color priceId proposal confirmed now

end Command

end Tariff
