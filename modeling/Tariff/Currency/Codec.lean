import Tariff.Currency.Basic
import Tariff.Decode.Source
import Tariff.Json.Value
/-
  Tariff.Currency.Codec — currencies in documents.
-/

namespace Tariff.Currency

/-- A currency under construction. -/
structure Partial where
  code : Option String
  name : Option String
  symbol : Option (Option String)
  minorUnit : Option (Option Nat)

/-- The fields in order; only the code must be there. -/
def fields {δ : Type} [Source δ] : List (Field δ Partial) :=
  [.required "code" (·.code) (fun v s => { s with code := some v }) Source.string,
   .defaulted "name" (·.name) (fun v s => { s with name := some v }) Source.string,
   .defaulted "symbol" (·.symbol) (fun v s => { s with symbol := some v })
     (Source.optional Source.string),
   .defaulted "minor_unit" (·.minorUnit) (fun v s => { s with minorUnit := some v })
     (Source.optional (Source.natural 32))]

/-- Read a currency. -/
def decode {δ : Type} [Source δ] (d : δ) : Except DecodeError Currency := do
  let s ← Field.fill "Currency" fields ⟨none, none, none, none⟩ d
  .ok ⟨← held "code" s.code, s.name.getD "", s.symbol.join, s.minorUnit.join⟩

/-- Write a currency. -/
def toJson (c : Currency) : Json :=
  .object [("code", .string c.code), ("name", .string c.name), ("symbol", .ofText? c.symbol),
    ("minor_unit", c.minorUnit.elim .null .ofNat)]

end Tariff.Currency
