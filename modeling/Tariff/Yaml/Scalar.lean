import Tariff.Number.Power
import Tariff.Yaml.Token
import Tariff.Binary64.Reader
import Tariff.Decode.Error
import Tariff.Text.Hex
/-
  Tariff.Yaml.Scalar — what a scalar means.

  A plain scalar is null, a truth value, an integer, a floating-point number or a text. Digits
  behind a leading zero are a text. Tags of the common kinds ask for one meaning; under any
  other tag, and in quotes, a scalar is a text.
-/

namespace Tariff.Yaml

/-- A scalar as it is written. -/
structure Scalar where
  text : String
  style : ScalarStyle
  tag : Option String
  deriving DecidableEq, Repr

def isNull (s : String) : Bool := s == "null" || s == "Null" || s == "NULL" || s == "~"

def bool? (s : String) : Option Bool :=
  if s == "true" || s == "True" || s == "TRUE" then some true
  else if s == "false" || s == "False" || s == "FALSE" then some false
  else none

/-! ## Numbers -/

/-- Digits behind a leading zero, perhaps with a sign. -/
def isPadded (cs : List Char) : Bool :=
  let ds := match cs with
    | '-' :: ds => ds
    | '+' :: ds => ds
    | ds => ds
  match ds with
  | '0' :: d :: more => (d :: more).all Char.isDigit
  | _ => false

/-- The value of a digit below `base`. -/
def digit? (base : Nat) (c : Char) : Option Nat := (Text.hexValue? c).filter (· < base)

/-- The value of digits. -/
def digitsOf? (base : Nat) (cs : List Char) : Option Nat := do
  if cs.isEmpty then none
  let ds ← cs.mapM (digit? base)
  some (ds.foldl (fun n d => n * base + d) 0)

/-- A number with the mark of a base in front, or a decimal one that is not padded. -/
def magnitude? : List Char → Option Nat
  | '0' :: 'x' :: ds => digitsOf? 16 ds
  | '0' :: 'o' :: ds => digitsOf? 8 ds
  | '0' :: 'b' :: ds => digitsOf? 2 ds
  | ds => if isPadded ds then none else digitsOf? 10 ds

/-- An integer, perhaps with a sign. -/
def integer? : List Char → Option Int
  | '-' :: ds => (magnitude? ds).map fun n => -(n : Int)
  | '+' :: ds => (magnitude? ds).map fun n => (n : Int)
  | ds => (magnitude? ds).map fun n => (n : Int)

/-- A floating-point number. -/
def float? (cs : List Char) : Option Binary64 :=
  let body := match cs with
    | '+' :: ds => ds
    | ds => ds
  let text := String.ofList body
  if text == ".inf" || text == ".Inf" || text == ".INF" then some (.infinite false)
  else if cs == "-.inf".toList || cs == "-.Inf".toList || cs == "-.INF".toList then
    some (.infinite true)
  else if cs == ".nan".toList || cs == ".NaN".toList || cs == ".NAN".toList then some .nan
  else if cs.head? == some '+' && (body.head? == some '+' || body.head? == some '-') then none
  else Binary64.readFloat? body

/-- An integer as a value: one of 64 bits, or of up to 128. -/
def integerDatum? (i : Int) : Option Datum :=
  if -(twoPow 63 : Int) ≤ i ∧ i < twoPow 64 then some (.integer i)
  else if -(twoPow 127 : Int) ≤ i ∧ i < twoPow 128 then some (.wide i)
  else none

/-- An integer of at most 128 bits. -/
def readInteger? (s : String) : Option Datum := (integer? s.toList).bind integerDatum?

/-- What a plain scalar means. -/
def plainDatum (s : String) : Datum :=
  if s.isEmpty || isNull s then .null
  else match bool? s with
    | some b => .bool b
    | none => match readInteger? s with
      | some d => d
      | none =>
        if isPadded s.toList then .text s
        else match float? s.toList with
          | some x => .float x
          | none => .text s

/-! ## Tags -/

/-- The tag of one of the common kinds. -/
def commonTag (kind : String) : String := "tag:yaml.org,2002:" ++ kind

/-- A tag that names a variant begins with an exclamation mark. -/
def isVariantTag (tag : String) : Bool := tag.startsWith "!"

namespace Scalar

/-- A text that is not of the kind that its tag asks for. -/
def refuse (s : Scalar) (expected : String) : DecodeCause := .wrongValue (.text s.text) expected

/-- What a scalar means when its tag is heeded. A tag that names a variant leaves the meaning
of a plain scalar. -/
def datum (s : Scalar) : Except DecodeCause Datum :=
  match s.tag with
  | none => .ok (if s.style = .plain then plainDatum s.text else .text s.text)
  | some tag =>
    if tag == commonTag "bool" then
      (bool? s.text).elim (.error (s.refuse "a boolean")) fun b => .ok (.bool b)
    else if tag == commonTag "int" then
      (readInteger? s.text).elim (.error (s.refuse "an integer")) .ok
    else if tag == commonTag "float" then
      (float? s.text.toList).elim (.error (s.refuse "a float")) fun x => .ok (.float x)
    else if tag == commonTag "null" then
      if isNull s.text then .ok .null else .error (s.refuse "null")
    else if isVariantTag tag && s.style == .plain then .ok (plainDatum s.text)
    else .ok (.text s.text)

/-- What a scalar means under a tag that has been heeded already. -/
def untaggedDatum (s : Scalar) : Datum :=
  if s.style = .plain then plainDatum s.text else .text s.text

/-- An unsigned number of 64 bits: written plainly, or literally under the tag of integers. -/
def natural? (s : Scalar) : Option Nat :=
  if s.style == .plain || (s.style == .literal && s.tag == some (commonTag "int")) then
    match s.text.toList with
    | '-' :: _ => none
    | cs => ((integer? cs).map Int.toNat).filter (· < twoPow 64)
  else none

/-- Whether a scalar says that there is no value. -/
def isAbsent (s : Scalar) : Except DecodeCause Bool :=
  if s.style != .plain then .ok false
  else match s.tag with
    | some tag =>
      if tag == commonTag "null" then
        if isNull s.text then .ok true else .error (s.refuse "null")
      else .ok false
    | none => .ok (s.text.isEmpty || isNull s.text)

end Scalar

end Tariff.Yaml
