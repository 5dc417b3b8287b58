import Tariff.Decode.Error
/-
  Tariff.Decode.Source — reading typed values from a document.

  A `Source` is a kind of document node that can be asked for text, a number, a list or the
  members of a record. The decoders built on it are the same for every notation. Values are
  asked for in the order in which the document writes them, so the first mistake in the
  document is the one that is reported; what is missing is noticed at the end.
-/

namespace Tariff

/-- The items of a list, and what is wrong behind the last one. -/
structure Items (δ : Type) where
  values : List δ
  ending : Option DecodeError

/-- How a record is written. -/
inductive Layout (δ : Type) where
  /-- Members with their names, and what is wrong behind the last one. -/
  | members (entries : List (Except DecodeError String × δ)) (ending : Option DecodeError)
  /-- The fields in order without names, what is wrong behind the last one, and what is said
  of items beyond the last field. -/
  | positions (items : Items δ) (surplus : DecodeError)

/-- Document nodes that typed values can be read from. -/
class Source (δ : Type) where
  /-- A text. -/
  text (expected : String) : δ → Except DecodeError String
  /-- A natural number of so many bits. -/
  natural (bits : Nat) : δ → Except DecodeError Nat
  /-- The value that stands here. -/
  datum : δ → Except DecodeError Datum
  /-- The value that stands here, all of it read. -/
  wholeDatum : δ → Except DecodeError Datum
  /-- The node itself, unless it says that there is no value. -/
  present : δ → Except DecodeError (Option δ)
  items : δ → Except DecodeError (Items δ)
  /-- The layout of a record of this title. -/
  layout (title : String) : δ → Except DecodeError (Layout δ)
  /-- The name of one of these variants. -/
  variant (known : List String) : δ → Except DecodeError String
  /-- Pass over a value of no interest. -/
  skip : δ → Except DecodeError Unit
  /-- An error that arose at this node. -/
  locate : δ → DecodeError → DecodeError

namespace Source

variable {δ α σ : Type} [Source δ]

/-- A result obtained at a node. -/
def within (d : δ) (r : Except DecodeError α) : Except DecodeError α := r.mapError (locate d)

/-- Fail if something is wrong. -/
def raise (wrong : Option DecodeError) : Except DecodeError Unit :=
  match wrong with
  | some e => .error e
  | none => .ok ()

/-- A text. -/
def string (d : δ) : Except DecodeError String := text "a string" d

/-- A value that may be absent. -/
def optional (read : δ → Except DecodeError α) (d : δ) : Except DecodeError (Option α) := do
  match ← present d with
  | none => .ok none
  | some d => .ok (some (← read d))

/-- A list. -/
def list (read : δ → Except DecodeError α) (d : δ) : Except DecodeError (List α) :=
  within d do
    let items ← items d
    let values ← items.values.mapM read
    raise items.ending
    .ok values

end Source

/-! ## Records -/

/-- A field of a record that is being put together in `σ`. -/
structure Field (δ σ : Type) where
  name : String
  /-- The record is whole without it. -/
  optional : Bool
  isSet : σ → Bool
  read : δ → σ → Except DecodeError σ

namespace Field

variable {δ σ : Type} [Source δ]

/-- Read one member: a field is read once, other members are passed over. -/
def readMember (fields : List (Field δ σ)) (s : σ) (entry : Except DecodeError String × δ) :
    Except DecodeError σ := do
  let name ← entry.1
  match fields.find? (·.name == name) with
  | none => do
    Source.skip entry.2
    .ok s
  | some field =>
    if field.isSet s then .error (.of (.duplicateField name)) else field.read entry.2 s

/-- Read fields by position, the next one being number `index`. -/
def readPositions (tooShort : Nat → DecodeError) (ending : Option DecodeError)
    (surplus : DecodeError) : Nat → σ → List (Field δ σ) → List δ → Except DecodeError σ
  | _, s, [], [] => do
    Source.raise ending
    .ok s
  | _, _, [], _ :: _ => .error surplus
  | index, s, field :: fields, item :: items => do
    let s ← field.read item s
    readPositions tooShort ending surplus (index + 1) s fields items
  | index, s, field :: fields, [] => do
    Source.raise ending
    if field.optional then readPositions tooShort ending surplus (index + 1) s fields []
    else .error (tooShort index)

/-- The number of fields in words. -/
def countText (n : Nat) : String := if n = 1 then "1 element" else s!"{n} elements"

/-- What is left open must be optional. -/
def checkMissing (fields : List (Field δ σ)) (s : σ) : Except DecodeError Unit :=
  match fields.find? fun field => !field.optional && !field.isSet s with
  | some field => .error (.of (.missingField field.name))
  | none => .ok ()

/-- Read a record of this title from a node. -/
def fill (title : String) (fields : List (Field δ σ)) (start : σ) (d : δ) :
    Except DecodeError σ :=
  Source.within d do
    match ← Source.layout s!"struct {title}" d with
    | .members entries ending =>
      let s ← entries.foldlM (readMember fields) start
      Source.raise ending
      checkMissing fields s
      .ok s
    | .positions items surplus =>
      let tooShort (n : Nat) : DecodeError :=
        .of (.wrongLength n s!"struct {title} with {countText fields.length}")
      readPositions tooShort items.ending surplus 0 start fields items.values

/-- A field that must be there, kept in the record under construction as an option. -/
def required {α : Type} (name : String) (get : σ → Option α) (set : α → σ → σ)
    (read : δ → Except DecodeError α) : Field δ σ where
  name := name
  optional := false
  isSet s := (get s).isSome
  read d s := (read d).map fun a => set a s

/-- A field that may be left out. -/
def defaulted {α : Type} (name : String) (get : σ → Option α) (set : α → σ → σ)
    (read : δ → Except DecodeError α) : Field δ σ :=
  { required name get set read with optional := true }

end Field

/-- What a record holds for a field that must be there. -/
def held {α : Type} (name : String) (found : Option α) : Except DecodeError α :=
  match found with
  | some a => .ok a
  | none => .error (.of (.missingField name))

end Tariff
