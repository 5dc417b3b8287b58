import Tariff.Yaml.Draft
import Tariff.Yaml.Scalar
/-
  Tariff.Yaml.Value — reading a node as a value of any kind.

  Aliases are followed, so a small text can stand for a huge value or for one without end; two
  limits hold: collections nest at most 128 deep, and no more aliases are followed than a
  hundred times the number of events in the document.
-/

namespace Tariff.Yaml

/-- The node of an alias, the last one of its number. -/
def resolve (anchors : List (Nat × YamlDraft)) : YamlDraft → YamlDraft
  | .alias n => (anchors.reverse.lookup n).getD .broken
  | d => d

/-- How many levels of collections may be entered. -/
def maxLevels : Nat := 128

/-- How many aliases may be followed in a document. -/
def maxAliases (root : YamlDraft) : Nat := 100 * root.eventCount

/-- The aliases that may still be followed behind a node. -/
def afterAlias? (d : YamlDraft) (aliases : Nat) : Option Nat :=
  match d with
  | .alias _ => if aliases = 0 then none else some (aliases - 1)
  | _ => some aliases

/-! ## Values -/

/-- A value. -/
inductive Value where
  | leaf (datum : Datum)
  | list (items : List Value)
  | map (entries : List (Value × Value))
  | tagged (tag : String) (value : Value)
  deriving BEq, Repr

/-- The value under a tag that names a variant, or the value itself. -/
def Value.under (tag : Option String) (v : Value) : Value :=
  match tag with
  | some tag => if isVariantTag tag then .tagged tag v else v
  | none => v

/-- What a scalar is as a value; integers of more than 64 bits are none. -/
def Scalar.value? (s : Scalar) : Option Value :=
  let found := if s.tag.elim false isVariantTag then some s.untaggedDatum else s.datum.toOption
  match found with
  | some (.wide _) => none
  | some d => some (Value.under s.tag (.leaf d))
  | none => none

/-- Put an entry at the end, unless there is one of its key. -/
def addEntry? (entries : List (Value × Value)) (key value : Value) :
    Option (List (Value × Value)) :=
  if entries.any (·.1 == key) then none else some (entries ++ [(key, value)])

/-- The value of a node, and how many aliases may still be followed. -/
def valueOf? (anchors : List (Nat × YamlDraft)) :
    Nat → Nat → YamlDraft → Option (Value × Nat)
  | 0, _, _ => none
  | levels + 1, aliases, d => do
    let aliases ← afterAlias? d aliases
    match resolve anchors d with
    | .scalar _ text style tag => (Scalar.value? ⟨text, style, tag⟩).map fun v => (v, aliases)
    | .sequence _ tag items closed =>
      if levels = 0 then none
      let (values, aliases) ← items.foldlM (fun (values, aliases) item => do
        let (v, aliases) ← valueOf? anchors levels aliases item
        some (values ++ [v], aliases)) ([], aliases)
      if closed then some (Value.under tag (.list values), aliases) else none
    | .mapping _ tag entries closed =>
      if levels = 0 then none
      let (read, aliases) ← entries.foldlM (fun (read, aliases) entry => do
        let (k, aliases) ← valueOf? anchors levels aliases entry.1
        let (v, aliases) ← valueOf? anchors levels aliases entry.2
        some (← addEntry? read k v, aliases)) ([], aliases)
      if closed then some (Value.under tag (.map read), aliases) else none
    | .void => some (.leaf .null, aliases)
    | _ => none

/-- The document can be read as a value. -/
def Document.isValue (doc : Document) : Bool :=
  doc.whole && (valueOf? doc.anchors (maxLevels + 1) (maxAliases doc.root) doc.root).isSome

/-! ## Passing through a value -/

/-- The step from a mapping to the value of a key. -/
def stepTo : YamlDraft → PathStep
  | .scalar _ text _ _ => .member text
  | _ => .unnamed

def malformed : DecodeError := .of .malformed

/-- Read all of a node, of which nothing but its mistakes matter, and give the number of
aliases that may still be followed. Integers of more than 64 bits and tags that name variants
are mistakes. -/
def passThrough (anchors : List (Nat × YamlDraft)) :
    Nat → Nat → List PathStep → YamlDraft → Except DecodeError Nat
  | 0, _, _, _ => .error malformed
  | levels + 1, aliases, path, d => do
    let aliases ← (afterAlias? d aliases).elim (.error malformed) .ok
    let refuse (cause : DecodeCause) : Except DecodeError Nat := .error ⟨cause, some path⟩
    match resolve anchors d with
    | .scalar _ text style tag =>
      if tag.elim false isVariantTag then refuse .taggedAlternative
      else match Scalar.datum ⟨text, style, tag⟩ with
        | .ok (.wide i) => refuse (.wrongType (.wide i) "any value")
        | .ok _ => .ok aliases
        | .error cause => refuse cause
    | .sequence _ tag items closed =>
      if tag.elim false isVariantTag then refuse .taggedAlternative
      else if levels = 0 then .error malformed
      else do
        let (_, aliases) ← items.foldlM (fun (i, aliases) item => do
          let aliases ← passThrough anchors levels aliases (.item i :: path) item
          .ok (i + 1, aliases)) (0, aliases)
        if closed then .ok aliases else .error malformed
    | .mapping _ tag entries closed =>
      if tag.elim false isVariantTag then refuse .taggedAlternative
      else if levels = 0 then .error malformed
      else do
        let aliases ← entries.foldlM (fun aliases entry => do
          let aliases ← passThrough anchors levels aliases path entry.1
          passThrough anchors levels aliases (stepTo entry.1 :: path) entry.2) aliases
        if closed then .ok aliases else .error malformed
    | .void => .ok aliases
    | _ => .error malformed

end Tariff.Yaml
