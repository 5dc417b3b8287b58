import Tariff.Command.Check
import Tariff.Backend.Basic
import Tariff.Text.Blank
/-
  Tariff.Command.Price — showing the currencies and the history of a price, and appending a
  version to it.

  A proposal is decided on with what the backend says at that time. It is appended only if it is
  accepted and the operator has confirmed it, and then the new history is shown. The two readings
  that a decision needs are asked for at once, and either may be done first.
-/

namespace Tariff.Command

variable {m : Type → Type} [Monad m]

/-- Show the currencies. -/
def showCurrencies (b : Backend m) (color : Bool) : Console m Unit := do
  let currencies ← Console.perform b.currencies
  Console.say (View.currenciesPage color currencies)

/-- The history of a price, and the currencies, asked for at once; either may be answered first.
Attempts of the other one that fall between those of the one that leads are taken after them. The
reading that fails first ends both. What the other one may have asked by then, which could only be
more readings, is left out. -/
def survey (b : Backend m) (priceId : String) : Act m (History × List Currency) :=
  match b.lead with
  | .history => do
    let history ← b.history priceId
    let currencies ← b.currencies
    return (history, currencies)
  | .currencies => do
    let currencies ← b.currencies
    let history ← b.history priceId
    return (history, currencies)

/-- Show a history. -/
def sayHistory (color : Bool) (priceId : String) (history : History)
    (currencies : List Currency) (now : Instant) : Console m Unit := do
  Console.say (← Act.ofOption (View.historyPage? color priceId history currencies now))

/-- Show the history of a price. -/
def showHistory (b : Backend m) (color : Bool) (priceId : String) (now : Instant) :
    Console m Unit := do
  let (history, currencies) ← Console.perform (survey b priceId)
  sayHistory color priceId history currencies now

/-- What an operator is told before a version is appended. -/
def versioningNotice : String :=
  "This will create a new price version. Existing invoices and past usage will NOT be affected."

/-- What is said of a version that was appended. -/
def createdLine? (currencies : List Currency) (v : Version) : Option String := do
  let amount ← Currency.showAmount? v.amount (Currency.resolve? currencies v.currency)
  some s!"Created price amount {v.id}: {amount} effective from {v.effectiveFrom.shown}"

/-- Append to a price what is asked for. -/
def append (b : Backend m) (priceId : String) (new : NewVersion) : Act m Version :=
  ExceptT.adapt
    (fun stop => match stop with
      | .fault why => .fault (.notAdded why)
      | .halt => .halt)
    (b.append priceId new)

/-- Append a proposed version to a price. -/
def addVersion (b : Backend m) (color : Bool) (priceId : String) (proposal : Proposal)
    (confirmed : Bool) (now : Instant) : Console m Unit := do
  if (Text.trim priceId).isEmpty then
    throw (.fault .missingPrice)
  let (history, currencies) ← Console.perform (survey b priceId)
  let acceptance ← decide color proposal currencies history now
  Console.say (Tone.subtle.paint color versioningNotice)
  if !confirmed then
    throw (.fault .unconfirmed)
  let version ← Console.perform (append b priceId acceptance.request)
  let line ← Act.ofOption (createdLine? currencies version)
  Console.say (Tone.success.paint color line)
  let renewed ← Console.perform (b.history priceId)
  sayHistory color priceId renewed currencies now

end Tariff.Command
