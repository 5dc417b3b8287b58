import Tariff.Version.Basic
import Tariff.Instant.Printer
import Tariff.Instant.Relaxed
import Tariff.Decimal.Reader
import Tariff.Decimal.Printer
import Tariff.Binary64.OfDecimal
import Tariff.Decode.Source
import Tariff.Json.Value
/-
  Tariff.Version.Codec — versions in documents.

  An amount is written as a text that keeps its scale, and read from a text, an integer or a
  floating-point number; of the last its shortest plain decimal text counts. In a request the
  amount is a floating-point number.
-/

namespace Tariff

/-- What is said to be expected of an amount. -/
def amountExpected : String := "a Decimal type representing a fixed-point number"

/-- Read an amount. -/
def Decimal.decode {δ : Type} [Source δ] (d : δ) : Except DecodeError Decimal := do
  let found ← Source.datum d
  let wrong (cause : DecodeCause) : Except DecodeError Decimal := Source.within d (.error (.of cause))
  let read : Option (Option Decimal) := match found with
    | .integer i => some (Decimal.ofInt? i)
    | .float x => some (Decimal.read? x.positional)
    | .text s => some (Decimal.readAny? s)
    | _ => none
  match read with
  | none => wrong (.wrongType found amountExpected)
  | some none => wrong (.wrongValue found amountExpected)
  | some (some amount) => .ok amount

/-- Read an instant. -/
def Instant.decode {δ : Type} [Source δ] (d : δ) : Except DecodeError Instant :=
  Source.within d do
    let s ← Source.text "an RFC 3339 formatted date and time string" d
    (Instant.readRelaxed s).mapError fun why => .of (.badInstant why)

namespace Status

/-- The names of states. -/
def all : List Status := [.active, .scheduled, .expired, .unknown]

/-- Read a state. -/
def decode {δ : Type} [Source δ] (d : δ) : Except DecodeError Status := do
  let name ← Source.variant (all.map name) d
  .ok ((all.find? (·.name == name)).getD .unknown)

end Status

namespace Version

/-- A version under construction. -/
structure Partial where
  id : Option String
  priceId : Option (Option String)
  currency : Option String
  amount : Option Decimal
  effectiveFrom : Option Instant
  effectiveTo : Option (Option Instant)

/-- The fields in order. -/
def fields {δ : Type} [Source δ] : List (Field δ Partial) :=
  [.defaulted "id" (·.id) (fun v s => { s with id := some v }) Source.string,
   .defaulted "price_id" (·.priceId) (fun v s => { s with priceId := some v })
     (Source.optional Source.string),
   .required "currency" (·.currency) (fun v s => { s with currency := some v }) Source.string,
   .required "amount" (·.amount) (fun v s => { s with amount := some v }) Decimal.decode,
   .required "effective_from" (·.effectiveFrom) (fun v s => { s with effectiveFrom := some v })
     Instant.decode,
   .defaulted "effective_to" (·.effectiveTo) (fun v s => { s with effectiveTo := some v })
     (Source.optional Instant.decode)]

/-- Read a version. -/
def decode {δ : Type} [Source δ] (d : δ) : Except DecodeError Version := do
  let s ← Field.fill "PriceAmount" fields ⟨none, none, none, none, none, none⟩ d
  .ok ⟨s.id.getD "", s.priceId.join, ← held "currency" s.currency, ← held "amount" s.amount,
    ← held "effective_from" s.effectiveFrom, s.effectiveTo.join⟩

/-- Write a version. -/
def toJson (v : Version) : Json :=
  .object [("id", .string v.id), ("price_id", .ofText? v.priceId),
    ("currency", .string v.currency), ("amount", .string v.amount.plain),
    ("effective_from", .string v.effectiveFrom.text),
    ("effective_to", .ofText? (v.effectiveTo.map Instant.text))]

end Version

namespace NewVersion

/-- The body of a request. -/
def toJson (v : NewVersion) : Json :=
  .object [("currency", .string v.currency), ("amount", .number (.float (.ofAmount v.amount))),
    ("effective_from", .string v.effectiveFrom.text)]

/-- The body of a request as text. -/
def body (v : NewVersion) : String := v.toJson.text

end NewVersion

end Tariff
