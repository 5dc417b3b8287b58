import Tariff.Proposal.Basic
import Tariff.Currency.Basic
import Tariff.Version.History
import Tariff.Instant.Typed
/-
  Tariff.Proposal.Gate — whether a proposal may be appended to a history.

  The three fields are judged one by one, and each gives at most one reason against it. The
  currency must be in the reference data. The amount must be positive and, where the currency is
  known, must not have more places than the currency. The start must not lie in the past and,
  where the currency is known, must lie after every start of that currency in the history. A
  proposal without a reason against it is accepted.
-/

namespace Tariff.Proposal

/-- The currency of a proposal, or why there is none. -/
def judgeCurrency (currencies : List Currency) (typed : String) : Except Rejection Currency :=
  let code := Text.trim typed
  if code.isEmpty then .error .currencyRequired
  else match Currency.resolve? currencies code with
    | some c => .ok c
    | none => .error (.currencyUnknown (Text.upper code))

/-- The amount of a proposal, or why there is none; `currency` is its currency if it is
known. -/
def judgeAmount (currency : Option Currency) (typed : String) : Except Rejection Decimal :=
  match readAmount? typed with
  | none => .error .amountRequired
  | some amount =>
    if !amount.isPositive then .error .amountNotPositive
    else match currency with
      | none => .ok amount
      | some c =>
        if c.places < amount.normalized.scale then .error (.amountExceedsPrecision c.places)
        else .ok amount

/-- The start of a proposal, or why there is none. -/
def judgeStart (currency : Option Currency) (history : History) (now : Instant)
    (typed : String) : Except Rejection Instant :=
  match Instant.readTyped? typed with
  | none => .error .effectiveFromRequired
  | some start =>
    if start < now then .error .effectiveFromInPast
    else match currency.bind fun c => history.latestStart? c.code with
      | none => .ok start
      | some latest =>
        if start ≤ latest then .error (.effectiveFromOverlaps latest) else .ok start

/-- The reason against a field, if there is one. -/
def reason {α : Type} : Except Rejection α → List Rejection
  | .error r => [r]
  | .ok _ => []

/-- Decide on a proposal: what is accepted, or all reasons against it in the order of the
fields. -/
def validate (p : Proposal) (currencies : List Currency) (history : History) (now : Instant) :
    Except (List Rejection) Acceptance :=
  let currency := judgeCurrency currencies p.currency
  let amount := judgeAmount currency.toOption p.amount
  let start := judgeStart currency.toOption history now p.effectiveFrom
  match currency, amount, start with
  | .ok c, .ok a, .ok t => .ok ⟨Text.upper (Text.trim c.code), a, t, now < t⟩
  | _, _, _ => .error (reason currency ++ reason amount ++ reason start)

end Tariff.Proposal
