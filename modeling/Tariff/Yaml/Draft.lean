import Tariff.Yaml.Lexer
/-
  Tariff.Yaml.Draft — YAML text as far as it can be read.

  Reading never fails: where the text stops being YAML, the draft holds a `broken` leaf and the
  collections around it stay open, so that a decoder meets a wrong value before a mistake that
  stands behind it. Only the first document of a text is read; `Document.whole` says that
  nothing is wrong with it and nothing follows it.

  Anchors are numbered. A name that is used again gets the number of names known so far, which
  another anchor may have, and of two anchors of one number the later one counts; an alias is
  the number that its name has where the alias stands.
-/

namespace Tariff

open Yaml (Token ScalarStyle)

/-- What has been read of a YAML text. -/
inductive YamlDraft where
  | scalar (anchor : Option Nat) (text : String) (style : ScalarStyle) (tag : Option String)
  | sequence (anchor : Option Nat) (tag : Option String) (items : List YamlDraft) (closed : Bool)
  | mapping (anchor : Option Nat) (tag : Option String) (entries : List (YamlDraft × YamlDraft))
      (closed : Bool)
  | alias (anchor : Nat)
  /-- The document is empty. -/
  | void
  /-- Not YAML from here on. -/
  | broken
  deriving Repr

namespace YamlDraft

/-- A node that is left out. -/
def empty : YamlDraft := .scalar none "" .plain none

/-- The node has been read to its end. -/
def isWhole : YamlDraft → Bool
  | .sequence _ _ _ closed => closed
  | .mapping _ _ _ closed => closed
  | .broken => false
  | _ => true

/-! ## Anchors -/

/-- The names of anchors with their numbers. -/
abbrev Names := List (String × Nat)

/-- Give a name the next number. -/
def Names.add (names : Names) (name : String) : Names :=
  let fresh := (name, names.length)
  if (names.lookup name).isSome then names.map fun n => if n.1 == name then fresh else n
  else names ++ [fresh]

/-! ## Nodes -/

/-- The handles of tags and what they stand for. -/
abbrev Handles := List (String × String)

/-- The handles that are known without a directive. -/
def commonHandles : Handles := [("!", "!"), ("!!", "tag:yaml.org,2002:")]

/-- A tag in full. -/
def tagOf? (handles : Handles) (handle suffix : String) : Option String :=
  if handle.isEmpty then some suffix else (handles.lookup handle).map (· ++ suffix)

/-- Anchor and tag in front of a node. -/
structure Properties where
  anchor : Option String
  tag : Option (String × String)

/-- The properties in front of a node, in either order, and the tokens behind them. -/
def properties : List Token → Properties × List Token
  | .anchor name :: .tag handle suffix :: rest => (⟨some name, some (handle, suffix)⟩, rest)
  | .anchor name :: rest => (⟨some name, none⟩, rest)
  | .tag handle suffix :: .anchor name :: rest => (⟨some name, some (handle, suffix)⟩, rest)
  | .tag handle suffix :: rest => (⟨none, some (handle, suffix)⟩, rest)
  | rest => (⟨none, none⟩, rest)

/-- A node, the names known behind it, and the tokens that are left: none after a mistake. -/
abbrev Parsed (α : Type) := α × Names × List Token

/-- A mistake. -/
def stop (names : Names) : Parsed YamlDraft := (.broken, names, [])

/-- The end of the entries of a collection, and whether it was found. -/
def finish {α : Type} (closed : Bool) (names : Names) (rest : List Token) :
    Parsed (List α × Bool) := (([], closed), names, rest)

/-- The single mark as a tag says nothing about a scalar. -/
def scalarTag (tag : Option String) : Option String := tag.filter (· != "!")

/-- Behind a mark: the node is left out where one of `stops` comes next. -/
def nodeOr (stops : Token → Bool) (node : List Token → Parsed YamlDraft) (names : Names) :
    List Token → Parsed YamlDraft
  | [] => stop names
  | t :: rest => if stops t then (empty, names, t :: rest) else node (t :: rest)

/-- The value of a key: left out where no value mark comes next. -/
def valueOr (stops : Token → Bool) (node : List Token → Parsed YamlDraft) (names : Names) :
    List Token → Parsed YamlDraft
  | [] => stop names
  | .value :: rest => nodeOr stops node names rest
  | rest => (empty, names, rest)

def endsBlockEntry (t : Token) : Bool := t == .blockEntry || t == .blockEnd

def endsBlockMember (t : Token) : Bool := t == .key || t == .value || t == .blockEnd

def endsIndentlessEntry (t : Token) : Bool := t == .blockEntry || endsBlockMember t

def endsFlowItem (t : Token) : Bool := t == .flowEntry || t == .flowSequenceEnd

def endsFlowMember (t : Token) : Bool := t == .flowEntry || t == .flowMappingEnd

mutual

/-- The node at the front of the tokens. In a `block` context block collections may begin; a
sequence whose dashes are no deeper than their key may begin where `indentless`. -/
def node (handles : Handles) (block indentless : Bool) :
    Nat → Names → List Token → Parsed YamlDraft
  | 0, names, _ => stop names
  | fuel + 1, names, tokens =>
    match tokens with
    | .alias name :: rest =>
      match names.lookup name with
      | some anchor => (.alias anchor, names, rest)
      | none => stop names
    | _ =>
      let (props, tokens) := properties tokens
      match props.tag.map fun t => tagOf? handles t.1 t.2 with
      | some none => stop names
      | found =>
        let tag := found.join
        let (anchor, names) := match props.anchor with
          | some name => (some names.length, names.add name)
          | none => (none, names)
        match tokens with
        | [] => stop names
        | .scalar text style :: rest => (.scalar anchor text style (scalarTag tag), names, rest)
        | .flowSequenceStart :: rest =>
          let ((items, closed), names, rest) := flowItems handles fuel true names rest
          (.sequence anchor tag items closed, names, rest)
        | .flowMappingStart :: rest =>
          let ((entries, closed), names, rest) := flowMembers handles fuel true names rest
          (.mapping anchor tag entries closed, names, rest)
        | t :: rest =>
          if indentless && t == .blockEntry then
            let ((items, closed), names, rest) := indentlessItems handles fuel names (t :: rest)
            (.sequence anchor tag items closed, names, rest)
          else if block && t == .blockSequenceStart then
            let ((items, closed), names, rest) := blockItems handles fuel names rest
            (.sequence anchor tag items closed, names, rest)
          else if block && t == .blockMappingStart then
            let ((entries, closed), names, rest) := blockMembers handles fuel names rest
            (.mapping anchor tag entries closed, names, rest)
          else if anchor.isSome || tag.isSome then
            (.scalar anchor "" .plain tag, names, t :: rest)
          else stop names

/-- The items of a block sequence. -/
def blockItems (handles : Handles) :
    Nat → Names → List Token → Parsed (List YamlDraft × Bool)
  | 0, names, _ => finish false names []
  | fuel + 1, names, tokens =>
    match tokens with
    | .blockEntry :: rest =>
      let (item, names, rest) := nodeOr endsBlockEntry (node handles true false fuel names) names rest
      let ((items, closed), names, rest) := blockItems handles fuel names rest
      ((item :: items, closed), names, rest)
    | .blockEnd :: rest => finish true names rest
    | _ => finish false names []

/-- The items of a sequence whose dashes are no deeper than the key in front of it. -/
def indentlessItems (handles : Handles) :
    Nat → Names → List Token → Parsed (List YamlDraft × Bool)
  | 0, names, _ => finish false names []
  | fuel + 1, names, tokens =>
    match tokens with
    | .blockEntry :: rest =>
      let (item, names, rest) :=
        nodeOr endsIndentlessEntry (node handles true false fuel names) names rest
      let ((items, closed), names, rest) := indentlessItems handles fuel names rest
      ((item :: items, closed), names, rest)
    | [] => finish false names []
    | rest => finish true names rest

/-- The entries of a block mapping. -/
def blockMembers (handles : Handles) :
    Nat → Names → List Token → Parsed (List (YamlDraft × YamlDraft) × Bool)
  | 0, names, _ => finish false names []
  | fuel + 1, names, tokens =>
    match tokens with
    | .key :: rest =>
      let (key, names, rest) := nodeOr endsBlockMember (node handles true true fuel names) names rest
      let (value, names, rest) :=
        valueOr endsBlockMember (node handles true true fuel names) names rest
      let ((entries, closed), names, rest) := blockMembers handles fuel names rest
      (((key, value) :: entries, closed), names, rest)
    | .blockEnd :: rest => finish true names rest
    | _ => finish false names []

/-- The items of a flow sequence; all but the first begin with a comma. -/
def flowItems (handles : Handles) :
    Nat → Bool → Names → List Token → Parsed (List YamlDraft × Bool)
  | 0, _, names, _ => finish false names []
  | fuel + 1, first, names, tokens =>
    let tokens := match tokens with
      | .flowEntry :: rest => if first then tokens else rest
      | .flowSequenceEnd :: _ => tokens
      | _ => if first then tokens else []
    match tokens with
    | [] => finish false names []
    | .flowSequenceEnd :: rest => finish true names rest
    | .key :: rest =>
      let (pair, names, rest) := flowPair handles fuel names rest
      let ((items, closed), names, rest) := flowItems handles fuel false names rest
      ((pair :: items, closed), names, rest)
    | rest =>
      let (item, names, rest) := node handles false false fuel names rest
      let ((items, closed), names, rest) := flowItems handles fuel false names rest
      ((item :: items, closed), names, rest)

/-- A mapping of one entry in a flow sequence. A token that stands where its key is left out
is passed. -/
def flowPair (handles : Handles) : Nat → Names → List Token → Parsed YamlDraft
  | 0, names, _ => stop names
  | fuel + 1, names, tokens =>
    let (key, names, rest) := match tokens with
      | [] => stop names
      | t :: rest =>
        if t == .value || endsFlowItem t then (empty, names, rest)
        else node handles false false fuel names (t :: rest)
    let (value, names, rest) := valueOr endsFlowItem (node handles false false fuel names) names rest
    (.mapping none none [(key, value)] value.isWhole, names, rest)

/-- The entries of a flow mapping; all but the first begin with a comma. -/
def flowMembers (handles : Handles) :
    Nat → Bool → Names → List Token → Parsed (List (YamlDraft × YamlDraft) × Bool)
  | 0, _, names, _ => finish false names []
  | fuel + 1, first, names, tokens =>
    let tokens := match tokens with
      | .flowEntry :: rest => if first then tokens else rest
      | .flowMappingEnd :: _ => tokens
      | _ => if first then tokens else []
    match tokens with
    | [] => finish false names []
    | .flowMappingEnd :: rest => finish true names rest
    | .key :: rest =>
      let (key, names, rest) :=
        nodeOr (fun t => t == .value || endsFlowMember t) (node handles false false fuel names) names
          rest
      let (value, names, rest) :=
        valueOr endsFlowMember (node handles false false fuel names) names rest
      let ((entries, closed), names, rest) := flowMembers handles fuel false names rest
      (((key, value) :: entries, closed), names, rest)
    | rest =>
      let (key, names, rest) := node handles false false fuel names rest
      let (value, names, rest) := nodeOr (fun _ => true) (fun _ => stop names) names rest
      let ((entries, closed), names, rest) := flowMembers handles fuel false names rest
      (((key, value) :: entries, closed), names, rest)

end

mutual

/-- The anchored nodes of a draft with their numbers, in the order in which they begin. -/
def anchored : YamlDraft → List (Nat × YamlDraft)
  | .scalar anchor text style tag =>
    anchor.toList.map fun n => (n, .scalar anchor text style tag)
  | .sequence anchor tag items closed =>
    (anchor.toList.map fun n => (n, .sequence anchor tag items closed)) ++ anchoredItems items
  | .mapping anchor tag entries closed =>
    (anchor.toList.map fun n => (n, .mapping anchor tag entries closed)) ++ anchoredEntries entries
  | .alias _ | .void | .broken => []

def anchoredItems : List YamlDraft → List (Nat × YamlDraft)
  | [] => []
  | d :: ds => anchored d ++ anchoredItems ds

def anchoredEntries : List (YamlDraft × YamlDraft) → List (Nat × YamlDraft)
  | [] => []
  | (k, v) :: es => anchored k ++ anchored v ++ anchoredEntries es

/-- Nothing in the draft is broken or open. -/
def wellFormed : YamlDraft → Bool
  | .sequence _ _ items closed => allWellFormed items && closed
  | .mapping _ _ entries closed => allEntriesWellFormed entries && closed
  | .broken => false
  | _ => true

def allWellFormed : List YamlDraft → Bool
  | [] => true
  | d :: ds => wellFormed d && allWellFormed ds

def allEntriesWellFormed : List (YamlDraft × YamlDraft) → Bool
  | [] => true
  | (k, v) :: es => wellFormed k && wellFormed v && allEntriesWellFormed es

end

mutual

/-- How many events a parser reports for a draft. -/
def eventCount : YamlDraft → Nat
  | .sequence _ _ items _ => eventCountItems items + 2
  | .mapping _ _ entries _ => eventCountEntries entries + 2
  | .broken => 0
  | _ => 1

def eventCountItems : List YamlDraft → Nat
  | [] => 0
  | d :: ds => eventCount d + eventCountItems ds

def eventCountEntries : List (YamlDraft × YamlDraft) → Nat
  | [] => 0
  | (k, v) :: es => eventCount k + eventCount v + eventCountEntries es

end

end YamlDraft

/-! ## Documents -/

namespace Yaml

open YamlDraft

/-- The first document of a text. -/
structure Document where
  root : YamlDraft
  /-- The anchored nodes in the order in which they begin. -/
  anchors : List (Nat × YamlDraft)
  /-- Nothing is wrong, and no other document follows. -/
  whole : Bool
  deriving Repr

/-- The directives in front of a document: the handles that they define. A handle may be
defined once, and the version must be one that is known. -/
def directives : Bool → Handles → List Token → Option (Handles × List Token)
  | versioned, handles, .versionDirective major minor :: rest =>
    if versioned || major != 1 || (minor != 1 && minor != 2) then none
    else directives true handles rest
  | versioned, handles, .tagDirective handle start :: rest =>
    if (handles.lookup handle).isSome then none
    else directives versioned (handles ++ [(handle, start)]) rest
  | _, handles, rest => some (handles, rest)

def isDirective : Token → Bool
  | .versionDirective .. | .tagDirective .. => true
  | _ => false

/-- What ends a document that has no content. -/
def endsDocument (t : Token) : Bool :=
  isDirective t || t == .documentStart || t == .documentEnd || t == .streamEnd

/-- The root node of the first document, and the tokens behind it. -/
def rootNode (tokens : List Token) : YamlDraft × List Token :=
  let fuel := 3 * tokens.length + 8
  let root (handles : Handles) (rest : List Token) : YamlDraft × List Token :=
    let (d, _, rest) := nodeOr endsDocument (node handles true false fuel []) [] rest
    (d, rest)
  match tokens with
  | [] => (.broken, [])
  | .streamEnd :: rest => (.void, .streamEnd :: rest)
  | t :: rest =>
    if isDirective t || t == .documentStart then
      match directives false [] (t :: rest) with
      | some (handles, .documentStart :: rest) => root (handles ++ commonHandles) rest
      | _ => (.broken, [])
    else
      let (d, _, rest) := node commonHandles true false fuel [] (t :: rest)
      (d, rest)

/-- The first document of a text. -/
def readDocument (s : String) : Document :=
  let (root, rest) := rootNode (tokens s)
  ⟨root, anchored root, rest.dropWhile (· == .documentEnd) == [.streamEnd]⟩

end Yaml

end Tariff
