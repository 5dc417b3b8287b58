import Tariff.Proposal.Codec
import Tariff.Currency.Codec
import Tariff.Version.Codec
import Tariff.Version.History
/-
  Tariff.Proposal.CheckInput — a proposal with all that is needed to decide on it offline.
-/

namespace Tariff

structure CheckInput where
  currencies : List Currency
  history : History
  proposal : Proposal

namespace CheckInput

/-- An input under construction. -/
structure Partial where
  currencies : Option (List Currency)
  history : Option (List Version)
  proposal : Option Proposal

def fields {δ : Type} [Source δ] : List (Field δ Partial) :=
  [.defaulted "currencies" (·.currencies) (fun v s => { s with currencies := some v })
     (Source.list Currency.decode),
   .defaulted "history" (·.history) (fun v s => { s with history := some v })
     (Source.list Version.decode),
   .required "proposal" (·.proposal) (fun v s => { s with proposal := some v }) Proposal.decode]

/-- Read an input. -/
def decode {δ : Type} [Source δ] (d : δ) : Except DecodeError CheckInput := do
  let s ← Field.fill "CheckInput" fields ⟨none, none, none⟩ d
  .ok ⟨s.currencies.getD [], s.history.getD [], ← held "proposal" s.proposal⟩

/-- Write an input. -/
def toJson (c : CheckInput) : Json :=
  .object [("currencies", .array (c.currencies.map Currency.toJson)),
    ("history", .array (c.history.map Version.toJson)), ("proposal", c.proposal.toJson)]

end CheckInput

end Tariff
