import Tariff.Number.Power
import Tariff.Yaml.Value
import Tariff.Decode.Source
/-
  Tariff.Yaml.Source — typed values from YAML.

  Any scalar is a text when a text is asked for. A record is a mapping, never a sequence; an
  empty document, or a node that is left out, is a mapping or a sequence without entries. An
  error names the path to the innermost node that was being read.
-/

namespace Tariff.Yaml

/-- A place in a YAML document. -/
structure Node where
  document : Document
  draft : YamlDraft
  /-- The steps from the root, the last one first. -/
  path : List PathStep

namespace Node

/-- The draft of a node, aliases followed. -/
def target (d : Node) : YamlDraft := resolve d.document.anchors d.draft

/-- A node one step below. -/
def inner (d : Node) (step : PathStep) (draft : YamlDraft) : Node :=
  ⟨d.document, draft, step :: d.path⟩

def locate (d : Node) (e : DecodeError) : DecodeError :=
  if e.cause = .malformed ∨ e.cause = .endOfText then e else e.placedAt d.path

def fail {α : Type} (d : Node) (cause : DecodeCause) : Except DecodeError α :=
  .error (d.locate (.of cause))

/-- A value of the wrong type. -/
def refuse {α : Type} (expected : String) (d : Node) : Except DecodeError α :=
  match d.target with
  | .scalar _ text style tag =>
    match Scalar.datum ⟨text, style, tag⟩ with
    | .ok found => d.fail (.wrongType found expected)
    | .error cause => d.fail cause
  | .sequence .. => d.fail (.wrongType .sequence expected)
  | .mapping .. => d.fail (.wrongType .mapping expected)
  | .void => d.fail .endOfText
  | _ => d.fail .malformed

def text (expected : String) (d : Node) : Except DecodeError String :=
  match d.target with
  | .scalar _ text _ _ => .ok text
  | _ => d.refuse expected

def natural (bits : Nat) (d : Node) : Except DecodeError Nat :=
  let expected := s!"u{bits}"
  match d.target with
  | .scalar _ text style tag =>
    match Scalar.natural? ⟨text, style, tag⟩ with
    | some n => if n < twoPow bits then .ok n else d.fail (.wrongValue (.integer n) expected)
    | none => d.refuse expected
  | _ => d.refuse expected

/-- The value that stands here, collections without their contents. -/
def datum (d : Node) : Except DecodeError Datum :=
  let under (tag : Option String) (found : Datum) : Datum :=
    if tag.elim false isVariantTag then .tagged else found
  match d.target with
  | .scalar _ text style tag =>
    if tag.elim false isVariantTag then .ok .tagged
    else match Scalar.datum ⟨text, style, tag⟩ with
      | .ok found => .ok found
      | .error cause => d.fail cause
  | .sequence _ tag _ _ => .ok (under tag .sequence)
  | .mapping _ tag _ _ => .ok (under tag .mapping)
  | .void => .ok .null
  | _ => d.fail .malformed

/-- The value that stands here, all of it read. -/
def wholeDatum (d : Node) : Except DecodeError Datum := do
  discard (passThrough d.document.anchors (maxLevels + 1 - d.path.length)
    (maxAliases d.document.root) d.path d.draft)
  d.datum

/-- A bad tag is found before the node is entered, so its error belongs to the node around it. -/
def present (d : Node) : Except DecodeError (Option Node) :=
  match d.target with
  | .scalar _ text style tag =>
    match Scalar.isAbsent ⟨text, style, tag⟩ with
    | .ok absent => .ok (if absent then none else some d)
    | .error cause => .error (.of cause)
  | .void => .ok none
  | .broken => d.fail .malformed
  | _ => .ok (some d)

/-- The node is left out. -/
def isLeftOut (d : Node) : Bool :=
  match d.target with
  | .scalar _ text style _ => text.isEmpty && style == .plain
  | .void => true
  | _ => false

def endingOf (closed : Bool) : Option DecodeError := if closed then none else some malformed

def items (d : Node) : Except DecodeError (Items Node) :=
  match d.target with
  | .sequence _ _ items closed =>
    .ok ⟨items.zipIdx.map fun (item, i) => d.inner (.item i) item, endingOf closed⟩
  | _ => if d.isLeftOut then .ok ⟨[], none⟩ else d.refuse "a sequence"

/-- A member as a decoder meets it: its key must be a text. -/
def entry (d : Node) (member : YamlDraft × YamlDraft) : Except DecodeError String × Node :=
  (text "field identifier" ⟨d.document, member.1, d.path⟩, d.inner (stepTo member.1) member.2)

def layout (title : String) (d : Node) : Except DecodeError (Layout Node) :=
  match d.target with
  | .mapping _ _ entries closed => .ok (.members (entries.map d.entry) (endingOf closed))
  | _ => if d.isLeftOut then .ok (.members [] none) else d.refuse title

/-- One of the known names. -/
def knownName (known : List String) (name : String) (d : Node) : Except DecodeError String :=
  if known.contains name then .ok name else d.fail (.unknownVariant name known)

/-- The name in a tag: what follows its exclamation mark, if anything does. -/
def variantName (tag : String) : String :=
  if tag == "!" then tag else String.ofList (tag.toList.drop 1)

/-- The tag of a node, if it names a variant. -/
def variantTag? (d : Node) : Option String :=
  match d.target with
  | .scalar _ _ _ tag => tag.filter isVariantTag
  | .sequence _ tag _ _ => tag.filter isVariantTag
  | .mapping _ tag _ _ => tag.filter isVariantTag
  | _ => none

/-- A variant is a scalar, or a tag in front of nothing. -/
def variant (known : List String) (d : Node) : Except DecodeError String :=
  match d.variantTag? with
  | some tag => do
    let name ← knownName known (variantName tag) d
    match d.target with
    | .scalar _ text style _ =>
      if style = .plain ∧ (text.isEmpty ∨ isNull text) then .ok name
      else d.fail (.wrongValue (.text text) "null")
    | _ => d.refuse "unit"
  | none =>
    match d.target with
    | .scalar _ text _ _ => knownName known text d
    | .sequence .. => d.fail (.wrongType .sequence "a YAML tag starting with '!'")
    | .mapping .. => d.fail (.wrongType .mapping "a YAML tag starting with '!'")
    | .void => d.fail .endOfText
    | _ => d.fail .malformed

def skip (d : Node) : Except DecodeError Unit :=
  if d.draft.wellFormed then .ok () else .error malformed

instance : Source Node where
  text := text
  natural := natural
  datum := datum
  wholeDatum := wholeDatum
  present := present
  items := items
  layout := layout
  variant := variant
  skip := skip
  locate := locate

end Node

/-- The cause speaks of a type, a value or a field of the document. -/
def namesProblem : DecodeCause → Bool
  | .wrongType .. | .wrongValue .. | .wrongLength .. | .unknownVariant .. | .missingField _
  | .duplicateField _ => true
  | _ => false

/-- Decode a text. It must hold one document and nothing else. Where it is not even a value,
that is reported instead of an error that does not speak of a type, a value or a field. -/
def decode {α : Type} (read : Node → Except DecodeError α) (text : String) :
    Except DecodeError α :=
  let document := readDocument text
  match read ⟨document, document.root, []⟩ with
  | .ok a => if document.whole then .ok a else .error malformed
  | .error e => .error (if namesProblem e.cause || document.isValue then e else malformed)

end Tariff.Yaml
