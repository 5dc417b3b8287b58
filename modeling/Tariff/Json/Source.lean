import Tariff.Number.Power
import Tariff.Json.Draft
import Tariff.Decode.Source
/-
  Tariff.Json.Source — typed values from JSON.

  A node is a draft, so a wrong value in front of a mistake in the text is reported first. A
  record may be an object, or an array of its fields in order. Values that are already in hand
  are decoded in the same way; only what is said of surplus items differs.
-/

namespace Tariff

/-- A place in a JSON document. -/
structure JsonNode where
  draft : JsonDraft
  /-- How many more levels of arrays and objects may be entered. -/
  levels : Nat
  /-- The document is a value and not a text. -/
  inHand : Bool

namespace JsonNode

def malformed : DecodeError := .of .malformed

/-- The node of a draft one level below. -/
def inner (d : JsonNode) (draft : JsonDraft) : JsonNode := ⟨draft, d.levels - 1, d.inHand⟩

/-- The value that stands at a node, without looking into arrays and objects. -/
def datum (d : JsonNode) : Except DecodeError Datum :=
  match d.draft with
  | .null => .ok .null
  | .bool b => .ok (.bool b)
  | .number (some (.integer i)) => .ok (.integer i)
  | .number (some (.float x)) => .ok (.float x)
  | .string (some s) => .ok (.text s)
  | .array .. => .ok .sequence
  | .object .. => .ok .mapping
  | .number none => .error malformed
  | .string none => .error malformed
  | .broken => .error malformed

/-- A value of the wrong type, unless it is no value at all. -/
def refuse {α : Type} (expected : String) (d : JsonNode) : Except DecodeError α := do
  .error (.of (.wrongType (← d.datum) expected))

/-- What is wrong behind the last item of a collection. -/
def endingOf (closed : Bool) : Option DecodeError := if closed then none else some malformed

def text (expected : String) (d : JsonNode) : Except DecodeError String :=
  match d.draft with
  | .string (some s) => .ok s
  | _ => d.refuse expected

def natural (bits : Nat) (d : JsonNode) : Except DecodeError Nat :=
  let expected := s!"u{bits}"
  match d.draft with
  | .number (some (.integer i)) =>
    if 0 ≤ i ∧ i < twoPow bits then .ok i.toNat
    else .error (.of (.wrongValue (.integer i) expected))
  | _ => d.refuse expected

/-- The value of a node. -/
def value (d : JsonNode) : Except DecodeError Json :=
  match d.draft.valueWithin? d.levels with
  | some v => .ok v
  | none => .error malformed

def present (d : JsonNode) : Except DecodeError (Option JsonNode) :=
  match d.draft with
  | .null => .ok none
  | _ => .ok (some d)

def items (d : JsonNode) : Except DecodeError (Items JsonNode) :=
  match d.draft with
  | .array items closed => .ok ⟨items.map d.inner, endingOf closed⟩
  | _ => d.refuse "a sequence"

/-- A member as a decoder meets it. -/
def entry (d : JsonNode) (member : Option String × JsonDraft) :
    Except DecodeError String × JsonNode :=
  (match member.1 with
    | some name => .ok name
    | none => .error malformed,
   d.inner member.2)

/-- What is said of items beyond the last field. -/
def surplus (d : JsonNode) (count : Nat) : DecodeError :=
  if d.inHand then .of (.wrongLength count "fewer elements in array") else malformed

def layout (title : String) (d : JsonNode) : Except DecodeError (Layout JsonNode) :=
  match d.draft with
  | .object members closed => .ok (.members (members.map d.entry) (endingOf closed))
  | .array items closed =>
    .ok (.positions ⟨items.map d.inner, endingOf closed⟩ (d.surplus items.length))
  | _ => d.refuse title

/-- One of the known names. -/
def knownName (known : List String) (name : String) : Except DecodeError String :=
  if known.contains name then .ok name else .error (.of (.unknownVariant name known))

/-- A variant is a string, or an object with one member of that name that is null. -/
def variant (known : List String) (d : JsonNode) : Except DecodeError String :=
  match d.draft with
  | .string (some s) => knownName known s
  | .object ((some name, content) :: others) closed => do
    let name ← knownName known name
    match content with
    | .null => if others.isEmpty && closed then .ok name else .error malformed
    | _ => (d.inner content).refuse "unit"
  | _ => .error malformed

def skip (d : JsonNode) : Except DecodeError Unit :=
  if d.draft.wellFormed then .ok () else .error malformed

instance : Source JsonNode where
  text := text
  natural := natural
  datum := datum
  wholeDatum d := do
    discard d.value
    d.datum
  present := present
  items := items
  layout := layout
  variant := variant
  skip := skip
  locate _ e := e

end JsonNode

namespace Json

/-- Decode a text. Nothing but blanks may follow the value. -/
def decode {α : Type} (read : JsonNode → Except DecodeError α) (text : String) :
    Except DecodeError α := do
  let (draft, whole) := JsonDraft.ofText text
  let a ← read ⟨draft, JsonDraft.maxLevels, false⟩
  if whole then .ok a else .error JsonNode.malformed

/-- Decode a value. -/
def decodeValue {α : Type} (read : JsonNode → Except DecodeError α) (v : Json) :
    Except DecodeError α :=
  read ⟨.ofValue v, JsonDraft.maxLevels, true⟩

end Json

end Tariff
