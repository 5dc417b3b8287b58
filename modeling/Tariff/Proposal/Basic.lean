import Tariff.Decimal.Reader
import Tariff.Instant.Printer
import Tariff.Text.Blank
import Tariff.Version.Basic
/-
  Tariff.Proposal.Basic — what an operator proposes, and why it may be refused.

  A proposal is kept as it was typed. An amount is typed as a plain decimal number; exponents
  and underscores are not taken.
-/

namespace Tariff

/-- A proposed version as typed. -/
structure Proposal where
  currency : String
  amount : String
  effectiveFrom : String
  deriving DecidableEq, Repr

/-- A proposal that may be appended. -/
structure Acceptance where
  currency : String
  amount : Decimal
  effectiveFrom : Instant
  /-- It takes effect only after the instant of the decision. -/
  scheduled : Bool
  deriving DecidableEq, Repr

/-- What is asked for when an accepted proposal is appended. -/
def Acceptance.request (a : Acceptance) : NewVersion := ⟨a.currency, a.amount, a.effectiveFrom⟩

/-- The fields of a proposal. -/
inductive ProposalField where
  | currency
  | amount
  | effectiveFrom
  deriving DecidableEq, Repr

def ProposalField.name : ProposalField → String
  | .currency => "currency"
  | .amount => "amount"
  | .effectiveFrom => "effective_from"

/-- Why a field is refused. -/
inductive Rejection where
  | currencyRequired
  | currencyUnknown (code : String)
  | amountRequired
  | amountNotPositive
  | amountExceedsPrecision (places : Nat)
  | effectiveFromRequired
  | effectiveFromInPast
  | effectiveFromOverlaps (latest : Instant)
  deriving DecidableEq, Repr

namespace Rejection

def message : Rejection → String
  | .currencyRequired => "Currency is required."
  | .currencyUnknown code => s!"Currency {code} is not a supported currency."
  | .amountRequired => "Amount is required."
  | .amountNotPositive => "Amount must be greater than zero."
  | .amountExceedsPrecision places => s!"Amount allows at most {places} decimal places."
  | .effectiveFromRequired => "Effective from is required."
  | .effectiveFromInPast => "Effective from must be now or later."
  | .effectiveFromOverlaps latest =>
    s!"Effective from must be after {latest.shown} to avoid overlap."

/-- The name of a reason. -/
def code : Rejection → String
  | .currencyRequired => "currency-required"
  | .currencyUnknown _ => "currency-unknown"
  | .amountRequired => "amount-required"
  | .amountNotPositive => "amount-not-positive"
  | .amountExceedsPrecision _ => "amount-exceeds-precision"
  | .effectiveFromRequired => "effective-from-required"
  | .effectiveFromInPast => "effective-from-in-past"
  | .effectiveFromOverlaps _ => "effective-from-overlaps-existing"

/-- The field that a reason is about. -/
def field : Rejection → ProposalField
  | .currencyRequired | .currencyUnknown _ => .currency
  | .amountRequired | .amountNotPositive | .amountExceedsPrecision _ => .amount
  | .effectiveFromRequired | .effectiveFromInPast | .effectiveFromOverlaps _ => .effectiveFrom

end Rejection

/-- A character of a plain decimal number. -/
def isAmountChar (c : Char) : Bool := c.isDigit || c == '.' || c == '-' || c == '+'

/-- The amount that an operator typed, blanks around it ignored. -/
def readAmount? (typed : String) : Option Decimal :=
  let cs := Text.trimChars typed.toList
  if !cs.isEmpty && cs.all isAmountChar then Decimal.readChars? cs else none

end Tariff
