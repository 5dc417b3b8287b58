import Tariff.Instant.Scan
import Tariff.Binary64.Printer
import Tariff.Text.Quoted
/-
  Tariff.Decode.Error — why a document does not hold what is asked of it.

  An error is a cause and, in notations that name it, the place where it was found: the path
  from the root of the document, innermost step first. `DecodeError.message` is the text.
-/

namespace Tariff

/-- The notations that documents are written in. -/
inductive Notation where
  | json
  | yaml
  deriving DecidableEq, Repr

/-- A value as a document shows it; of sequences and mappings only that they are there. -/
inductive Datum where
  | null
  | bool (value : Bool)
  | integer (value : Int)
  /-- An integer of more than 64 bits. -/
  | wide (value : Int)
  | float (value : Binary64)
  | text (value : String)
  | sequence
  | mapping
  /-- A value under a tag that names a variant. -/
  | tagged
  deriving DecidableEq, Repr

/-- The name of a value in an error. -/
def Datum.describe (n : Notation) : Datum → String
  | .null => match n with
    | .json => "null"
    | .yaml => "unit value"
  | .bool b => if b then "boolean `true`" else "boolean `false`"
  | .integer i => "integer `" ++ toString i ++ "`"
  | .wide i => "integer `" ++ toString i ++ "` as " ++ (if 0 ≤ i then "u128" else "i128")
  | .float x => match n with
    | .json => "floating point `" ++ x.compact ++ "`"
    | .yaml => "floating point `" ++ x.pointed ++ "`"
  | .text s => "string " ++ Text.quoted s
  | .sequence => "sequence"
  | .mapping => "map"
  | .tagged => "enum"

/-- Why a value is refused. -/
inductive DecodeCause where
  | wrongType (found : Datum) (expected : String)
  | wrongValue (found : Datum) (expected : String)
  | wrongLength (length : Nat) (expected : String)
  | unknownVariant (name : String) (known : List String)
  | missingField (name : String)
  | duplicateField (name : String)
  /-- A field that may be text or a number is neither. -/
  | noAlternative
  /-- A field that may be text or a number has a tag that names a variant. -/
  | taggedAlternative
  | badInstant (why : Instant.ScanError)
  /-- The document is empty. -/
  | endOfText
  /-- The text is not in the notation. -/
  | malformed
  deriving DecidableEq, Repr

/-- Names in backticks, separated by commas. -/
def backticked (names : List String) : String :=
  String.intercalate ", " (names.map fun name => "`" ++ name ++ "`")

def DecodeCause.message (n : Notation) : DecodeCause → String
  | .wrongType found expected => s!"invalid type: {found.describe n}, expected {expected}"
  | .wrongValue found expected => s!"invalid value: {found.describe n}, expected {expected}"
  | .wrongLength length expected => s!"invalid length {length}, expected {expected}"
  | .unknownVariant name known => s!"unknown variant `{name}`, expected one of {backticked known}"
  | .missingField name => s!"missing field `{name}`"
  | .duplicateField name => s!"duplicate field `{name}`"
  | .noAlternative => "data did not match any variant of untagged enum Raw"
  | .taggedAlternative => "untagged and internally tagged enums do not support enum input"
  | .badInstant why => why.message
  | .endOfText => "EOF while parsing a value"
  | .malformed => match n with
    | .json => "<json syntax error>"
    | .yaml => "<yaml syntax error>"

/-- A step from a collection to a value in it. -/
inductive PathStep where
  | item (index : Nat)
  | member (name : String)
  /-- A member whose key is no plain text. -/
  | unnamed
  deriving DecidableEq, Repr

/-- A path as text; the root is a point. -/
def pathText : List PathStep → String
  | [] => "."
  | .item index :: outer => pathText outer ++ "[" ++ toString index ++ "]"
  | .member name :: outer => (if outer.isEmpty then "" else pathText outer ++ ".") ++ name
  | .unnamed :: outer => (if outer.isEmpty then "" else pathText outer ++ ".") ++ "?"

/-- A refused document: the cause and, if it is known, the place. -/
structure DecodeError where
  cause : DecodeCause
  place : Option (List PathStep)
  deriving DecidableEq, Repr

namespace DecodeError

/-- A cause at no place yet. -/
def of (cause : DecodeCause) : DecodeError := ⟨cause, none⟩

/-- The error at a place, if it had none. -/
def placedAt (path : List PathStep) (e : DecodeError) : DecodeError :=
  ⟨e.cause, some (e.place.getD path)⟩

/-- The text of an error: its place, unless that is the root, and its cause. -/
def message (n : Notation) (e : DecodeError) : String :=
  let text := e.cause.message n
  match e.place with
  | none => text
  | some [] => text
  | some path => pathText path ++ ": " ++ text

end DecodeError

end Tariff
