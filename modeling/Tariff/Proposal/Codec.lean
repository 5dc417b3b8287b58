import Tariff.Number.Power
import Tariff.Proposal.Basic
import Tariff.Binary64.Printer
import Tariff.Decode.Source
import Tariff.Json.Value
/-
  Tariff.Proposal.Codec — proposals in documents.

  The amount of a proposal may be written as a bare number, which stands for its plain decimal
  text. An integer beyond 63 bits is taken as a floating-point number.
-/

namespace Tariff.Proposal

/-- The text of a value that stands where a typed amount is expected. -/
def typedAmount? : Datum → Option String
  | .text s => some s
  | .integer i =>
    if -(twoPow 63 : Int) ≤ i ∧ i < twoPow 63 then some (toString i) else some (Binary64.ofInt i).positional
  | .float x => some x.positional
  | _ => none

/-- Read a typed amount. -/
def decodeAmount {δ : Type} [Source δ] (d : δ) : Except DecodeError String := do
  match typedAmount? (← Source.wholeDatum d) with
  | some s => .ok s
  | none => .error (.of .noAlternative)

/-- A proposal under construction. -/
structure Partial where
  currency : Option String
  amount : Option String
  effectiveFrom : Option String

/-- The fields in order; each may be left out. -/
def fields {δ : Type} [Source δ] : List (Field δ Partial) :=
  [.defaulted "currency" (·.currency) (fun v s => { s with currency := some v }) Source.string,
   .defaulted "amount" (·.amount) (fun v s => { s with amount := some v }) decodeAmount,
   .defaulted "effective_from" (·.effectiveFrom) (fun v s => { s with effectiveFrom := some v })
     Source.string]

/-- Read a proposal. -/
def decode {δ : Type} [Source δ] (d : δ) : Except DecodeError Proposal := do
  let s ← Field.fill "PriceAmountProposal" fields ⟨none, none, none⟩ d
  .ok ⟨s.currency.getD "", s.amount.getD "", s.effectiveFrom.getD ""⟩

/-- Write a proposal. -/
def toJson (p : Proposal) : Json :=
  .object [("currency", .string p.currency), ("amount", .string p.amount),
    ("effective_from", .string p.effectiveFrom)]

end Tariff.Proposal
