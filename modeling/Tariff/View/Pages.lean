import Tariff.View.Table
import Tariff.Currency.Basic
import Tariff.Version.History
import Tariff.Proposal.Basic
import Tariff.Instant.Printer
/-
  Tariff.View.Pages — what an operator is shown: currencies, the history of a price, and the
  outcome of a proposal.

  A page with an amount that needs more room than there is cannot be shown; it is `none`.
-/

namespace Tariff.View

/-! ## Currencies -/

/-- The currencies in the order of their codes in upper case. -/
def sortedCurrencies (currencies : List Currency) : List Currency :=
  currencies.mergeSort fun a b => Text.upper a.code ≤ Text.upper b.code

def currencyRow (c : Currency) : List Cell :=
  [.plain (Text.upper c.code), .plain c.name, .plain (c.symbol.getD "-"),
    .number (toString c.places)]

def currenciesTable (currencies : List Currency) : Table where
  header := [.header "Code", .header "Name", .header "Symbol", .header "Decimals"]
  rows := (sortedCurrencies currencies).map currencyRow

/-- The page of all currencies. -/
def currenciesPage (color : Bool) (currencies : List Currency) : String :=
  if currencies.isEmpty then "No currencies configured."
  else Text.joinLines [Tone.title.paint color "Currencies", (currenciesTable currencies).text]

/-! ## History -/

/-- Active versions are green and bold, scheduled ones yellow, expired ones grey, and those of
unknown state red. -/
def statusInk : Status → Ink
  | .active => ⟨10, true⟩
  | .scheduled => ⟨11, false⟩
  | .expired => ⟨8, false⟩
  | .unknown => ⟨9, false⟩

def statusCell (s : Status) : Cell := ⟨s.name, false, some (statusInk s)⟩

def versionRow? (currencies : List Currency) (now : Instant) (v : Version) :
    Option (List Cell) := do
  let amount ← Currency.showAmount? v.amount (Currency.resolve? currencies v.currency)
  some [.plain (Text.upper v.currency), .number amount, .plain v.effectiveFrom.shown,
    .plain (Instant.shownOr v.effectiveTo), statusCell (v.statusAt now)]

/-- The versions, newest first. -/
def historyTable? (history : History) (currencies : List Currency) (now : Instant) :
    Option Table := do
  let rows ← history.newestFirst.mapM (versionRow? currencies now)
  some {
    header := [.header "Currency", .header "Amount", .header "Effective from",
      .header "Effective to", .header "Status"]
    rows := rows }

/-- A line for each currency that says where its latest version starts. -/
def latestLines (history : History) : List String :=
  history.listedCodes.filterMap fun code =>
    (history.latestStart? code).map fun start =>
      s!"{code}: latest version starts on {start.shown}."

/-- The warning about currencies with more than one active version. -/
def conflictLine (codes : List String) : String :=
  "Multiple active amounts detected for " ++ String.intercalate ", " codes ++
    ". Only one active version should exist per currency."

/-- The page of a price. -/
def historyPage? (color : Bool) (priceId : String) (history : History)
    (currencies : List Currency) (now : Instant) : Option String :=
  if history.isEmpty then some s!"No amounts recorded for price {priceId}."
  else do
    let table ← historyTable? history currencies now
    let conflicts := history.multipleActive now
    some (Text.joinLines
      ([Tone.title.paint color s!"Price {priceId}", table.text]
        ++ (latestLines history).map (Tone.subtle.paint color)
        ++ (if conflicts.isEmpty then []
            else [Tone.warning.paint color (conflictLine conflicts)])))

/-! ## Outcomes -/

/-- Where the latest version in the currency of a proposal starts. -/
def hint? (history : History) (proposal : Proposal) : Option Instant :=
  history.latestStart? proposal.currency

def hintLine (start : Instant) : String := s!"Latest version starts on {start.shown}."

/-- What is said of an accepted proposal. -/
def acceptedLine? (currencies : List Currency) (a : Acceptance) : Option String := do
  let amount ← Currency.showAmount? a.amount (Currency.resolve? currencies a.currency)
  some s!"Accepted: {a.currency} {amount} effective from {a.effectiveFrom.shown}"

def scheduledLine (a : Acceptance) : String :=
  s!"This price will activate on {a.effectiveFrom.shown}."

/-- What is said of a reason against a proposal. -/
def rejectionLine (r : Rejection) : String := s!"  {r.field.name} [{r.code}]: {r.message}"

def decisionLines? (color : Bool) (currencies : List Currency) :
    Except (List Rejection) Acceptance → Option (List String)
  | .ok a => do
    let line ← acceptedLine? currencies a
    some (Tone.success.paint color line ::
      if a.scheduled then [Tone.warning.paint color (scheduledLine a)] else [])
  | .error reasons =>
    some (Tone.title.paint color "Rejected:" ::
      reasons.map fun r => Tone.error.paint color (rejectionLine r))

/-- The page of a decision. -/
def outcomePage? (color : Bool) (outcome : Except (List Rejection) Acceptance)
    (proposal : Proposal) (currencies : List Currency) (history : History) : Option String := do
  let lines ← decisionLines? color currencies outcome
  let hint := (hint? history proposal).toList.map fun start =>
    Tone.subtle.paint color (hintLine start)
  some (Text.joinLines (hint ++ lines))

end Tariff.View
