import Tariff.Json.Source
import Tariff.Currency.Codec
import Tariff.Version.Codec
import Tariff.Version.History
/-
  Tariff.Billing.Answer — what the billing service answers.

  Every answer is an object that holds its payload as `data`. The payload of a list may be
  missing. Currencies are a list; whatever else is sent in their place counts as no currencies.
  The versions of a price are a list, or a list below `amounts` or `price_amounts`, of which the
  first that is a list counts; without a list there are no versions.
-/

namespace Tariff.Billing

/-! ## Payload -/

/-- The payload of an answer, null where there is none. -/
def decodePayload (d : JsonNode) : Except DecodeError Json := do
  let fields : List (Field JsonNode (Option Json)) :=
    [.defaulted "data" id (fun v _ => some v) JsonNode.value]
  let data ← Field.fill "LooseEnvelope" fields none d
  .ok (data.getD .null)

/-- The payload in the text of an answer. -/
def readPayload (body : String) : Except DecodeError Json := Json.decode decodePayload body

/-! ## Lists -/

/-- The currencies in a payload. -/
def currenciesOf (data : Json) : Except DecodeError (List Currency) :=
  if data.isArray then Json.decodeValue (Source.list Currency.decode) data else .ok []

/-- The list of versions in a payload, if there is one. -/
def versionRows? (data : Json) : Option Json :=
  if data.isArray then some data
  else ((data.member? "amounts").filter Json.isArray).or
    ((data.member? "price_amounts").filter Json.isArray)

/-- The versions in a payload. -/
def historyOf (data : Json) : Except DecodeError History :=
  match versionRows? data with
  | some rows => Json.decodeValue (Source.list Version.decode) rows
  | none => .ok []

/-! ## Versions that were appended -/

/-- The version that an answer says was appended. -/
def decodeAppended (d : JsonNode) : Except DecodeError Version := do
  let fields : List (Field JsonNode (Option Version)) :=
    [.required "data" id (fun v _ => some v) Version.decode]
  held "data" (← Field.fill "Envelope" fields none d)

/-- The version in the text of an answer. -/
def readAppended (body : String) : Except DecodeError Version := Json.decode decodeAppended body

end Tariff.Billing
