import Tariff.Binary64.Printer
import Tariff.Text.Hex
/-
  Tariff.Json.Value — JSON values and their text.

  Integers of 64 bits are kept apart from floating-point numbers. An object is a list of members
  in the order in which they are written; a value read from text has no two members of one name.
-/

namespace Tariff

/-- A JSON number: an integer of 64 bits, with or without sign, or a floating-point number. -/
inductive JsonNumber where
  | integer (value : Int)
  | float (value : Binary64)
  deriving DecidableEq, Repr

/-- A JSON value. -/
inductive Json where
  | null
  | bool (value : Bool)
  | number (value : JsonNumber)
  | string (value : String)
  | array (items : List Json)
  | object (members : List (String × Json))
  deriving Repr

namespace Json

open Text (hexDigit)

instance : Inhabited Json := ⟨.null⟩

/-- The last value of a member in a list of members. -/
def lookupLast (key : String) (members : List (String × Json)) : Option Json :=
  members.reverse.lookup key

/-- The member of an object, if the value is an object that has it. -/
def member? (key : String) : Json → Option Json
  | .object members => lookupLast key members
  | _ => none

def isArray : Json → Bool
  | .array _ => true
  | _ => false

def ofNat (n : Nat) : Json := .number (.integer n)

/-- A text, or null where there is none. -/
def ofText? (s : Option String) : Json := s.elim .null .string

/-! ## Text -/

/-- How a character stands in a JSON string. -/
def escaped (c : Char) : List Char :=
  if c = '\x22' then ['\\', '\x22']
  else if c = '\\' then ['\\', '\\']
  else if c = '\n' then ['\\', 'n']
  else if c = '\r' then ['\\', 'r']
  else if c = '\t' then ['\\', 't']
  else if c = '\x08' then ['\\', 'b']
  else if c = '\x0c' then ['\\', 'f']
  else if c.toNat < 0x20 then
    ['\\', 'u', '0', '0', hexDigit (c.toNat / 16), hexDigit (c.toNat % 16)]
  else [c]

/-- A JSON string. -/
def stringText (s : String) : String :=
  String.ofList ('\x22' :: s.toList.flatMap escaped ++ ['\x22'])

def numberText : JsonNumber → String
  | .integer i => toString i
  | .float x => x.compact

mutual

/-- The value as text without spaces. -/
def text : Json → String
  | .null => "null"
  | .bool b => if b then "true" else "false"
  | .number n => numberText n
  | .string s => stringText s
  | .array items => "[" ++ String.intercalate "," (itemTexts items) ++ "]"
  | .object members => "\x7b" ++ String.intercalate "," (memberTexts members) ++ "\x7d"

def itemTexts : List Json → List String
  | [] => []
  | v :: vs => v.text :: itemTexts vs

def memberTexts : List (String × Json) → List String
  | [] => []
  | (k, v) :: ms => (stringText k ++ ":" ++ v.text) :: memberTexts ms

end

end Json

end Tariff
