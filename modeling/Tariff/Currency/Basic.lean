import Tariff.Decimal.Printer
import Tariff.Text.Blank
import Tariff.Text.Upper
/-
  Tariff.Currency.Basic — the reference data of currencies.

  Codes match up to blanks around them and the case of ASCII letters; where several entries
  match, the first one counts. Amounts of a currency have as many decimal places as its minor
  unit, and are shown with its symbol in front or else its code behind.
-/

namespace Tariff

structure Currency where
  code : String
  name : String
  symbol : Option String
  /-- Decimal places of an amount, if the reference data says. -/
  minorUnit : Option Nat
  deriving DecidableEq, Repr

namespace Currency

/-- The places of a currency that does not say. -/
def defaultPlaces : Nat := 2

/-- The decimal places of an amount in this currency; an amount cannot carry more than 28. -/
def places (c : Currency) : Nat := min (c.minorUnit.getD defaultPlaces) Decimal.maxScale

/-- The smallest amount: 0.01 for two places. -/
def amountStep (c : Currency) : Decimal := Decimal.unit c.places

/-- The currency has this code. -/
def hasCode (c : Currency) (code : String) : Bool := Text.sameCode c.code code

/-- The first currency of a code; a blank code has none. -/
def resolve? (currencies : List Currency) (code : String) : Option Currency :=
  if Text.isBlankText code then none else currencies.find? (·.hasCode code)

/-- Where the first currency of a code stands. -/
def indexOf? (currencies : List Currency) (code : String) : Option Nat :=
  if Text.isBlankText code then none else currencies.findIdx? (·.hasCode code)

/-- The places that an amount is shown with when its currency may be unknown. -/
def placesOr (currency : Option Currency) : Nat := currency.elim defaultPlaces places

/-- A number with the mark of its currency. -/
def marked (currency : Option Currency) (number : String) : String :=
  match currency with
  | none => number
  | some c =>
    match c.symbol.filter (!·.isEmpty) with
    | some symbol => symbol ++ number
    | none => number ++ " " ++ Text.upper c.code

/-- An amount rounded to the places of its currency, with the currency's mark; nothing if the
number needs more room than there is. -/
def showAmount? (amount : Decimal) (currency : Option Currency) : Option String :=
  (amount.fixed? (placesOr currency)).map (marked currency)

end Currency

end Tariff
