import ShaderBuild.Yaml.Scanner

/-!
This module contains the nodes of YAML documents. A node is built from the tokens as far as they are
well formed, so that a reader who needs no more than the front of a document meets a fault only
where it stands.
-/

namespace ShaderBuild
namespace Yaml

/--
A node of a document.
-/
inductive Node
  | scalar (text : String) (style : ScalarStyle) (tag : Option TagText)
  | sequence (items : List Node)
  | mapping (entries : List (Node × Node))
  /-- The node that has the anchor of that number. -/
  | alias (anchor : Nat)
  /-- The document is malformed from here on. -/
  | fault

namespace Node

/--
The scalar for a node that is left out.
-/
def empty : Node := .scalar "" .plain none

mutual

/--
There is no fault inside the node.
-/
def isSound : Node → Bool
  | .scalar _ _ _ | .alias _ => true
  | .sequence items => areSound items
  | .mapping entries => entriesAreSound entries
  | .fault => false

def areSound : List Node → Bool
  | [] => true
  | item :: rest => item.isSound && areSound rest

def entriesAreSound : List (Node × Node) → Bool
  | [] => true
  | (key, value) :: rest => key.isSound && value.isSound && entriesAreSound rest

end

mutual

/--
The number of scalars and aliases of a node, and of the starts and ends of its collections. After a
fault no collection ends.
-/
def weight : Node → Nat
  | .scalar _ _ _ | .alias _ => 1
  | .sequence items => weights items + if areSound items then 2 else 1
  | .mapping entries => entryWeights entries + if entriesAreSound entries then 2 else 1
  | .fault => 0

def weights : List Node → Nat
  | [] => 0
  | item :: rest => item.weight + weights rest

def entryWeights : List (Node × Node) → Nat
  | [] => 0
  | (key, value) :: rest => key.weight + value.weight + entryWeights rest

end

end Node

/--
The state of the building of a document.
-/
structure Builder where
  /-- The tokens that are left. There are none after a fault. -/
  tokens : List Token
  /-- The beginnings that tag handles stand for. -/
  handles : List (String × TagText)
  /-- The names of the anchors so far, with the number that each was last given. -/
  names : List (String × Nat)
  /-- The numbers that were given to anchors, in the order of the anchors. -/
  numbers : List Nat
  /-- The nodes with anchors, each with the place of its anchor in that order. -/
  anchored : List (Nat × Node)

namespace Builder

abbrev Build := StateM Builder

/--
The next token, if the text is well formed up to there.
-/
def peek : Build (Option Token) := do
  return (← get).tokens.head?

def skip : Build Unit :=
  modify fun b => { b with tokens := b.tokens.tail }

/--
Give up at a fault.
-/
def fail : Build Node := do
  modify fun b => { b with tokens := [] }
  return .fault

/--
Give a number to an anchor: that of the names so far. A name that is there keeps the count, so that
the number may be given again later and then stands for the later anchor.
-/
def nameAnchor (name : String) : Build Nat := do
  let b ← get
  let number := b.names.length
  let others := b.names.filter (·.1 ≠ name)
  set { b with names := (name, number) :: others, numbers := b.numbers ++ [number] }
  return b.numbers.length

/--
Note the node that an anchor was put at.
-/
def keepAnchored (place : Option Nat) (node : Node) : Build Node := do
  if let some place := place then
    modify fun b => { b with anchored := (place, node) :: b.anchored }
  return node

/--
The properties in front of a node.
-/
structure Properties where
  anchor : Option String
  tag : Option (String × TagText)

/--
Read the properties in front of a node, an anchor and a tag in either order.
-/
def properties : Build Properties := do
  match ← peek with
  | some (.anchor name) =>
    skip
    match ← peek with
    | some (.tag handle suffix) =>
      skip
      return ⟨some name, some (handle, suffix)⟩
    | _ => return ⟨some name, none⟩
  | some (.tag handle suffix) =>
    skip
    match ← peek with
    | some (.anchor name) =>
      skip
      return ⟨some name, some (handle, suffix)⟩
    | _ => return ⟨none, some (handle, suffix)⟩
  | _ => return ⟨none, none⟩

/--
The tag that a handle and a suffix stand for. A handle has to be declared.
-/
def resolveTag (tag : Option (String × TagText)) : Build (Option (Option TagText)) := do
  match tag with
  | none => return some none
  | some ("", suffix) => return some (some suffix)
  | some (handle, suffix) =>
    match (← get).handles.lookup handle with
    | none => return none
    | some start => return some (some (start ++ suffix))

/--
Where a node stands decides which collections it can be.
-/
inductive Context
  /-- In a flow collection. -/
  | flow
  /-- In a block sequence, or at the start of a document. -/
  | block
  /-- In a block mapping, whose sequences may do without indentation. -/
  | blockMapping
deriving DecidableEq

/--
A step of the building: what comes next in the text, inside a collection of which some parts are
built, the last one first.
-/
inductive Goal
  | node (context : Context)
  | blockSequence (items : List Node)
  | plainSequence (items : List Node)
  | blockMapping (entries : List (Node × Node))
  | flowSequence (isFirst : Bool) (items : List Node)
  | flowMapping (isFirst : Bool) (entries : List (Node × Node))
  /-- A mapping of one entry in a flow sequence. -/
  | flowPair

/--
Build what comes next. The number of steps is bounded.
-/
def build : Nat → Goal → Build Node
  | 0, _ => fail
  | steps + 1, .node context => do
    match ← peek with
    | some (.alias name) =>
      skip
      match (← get).names.lookup name with
      | some number => return .alias number
      | none => fail
    | _ =>
      let given ← properties
      let some tag ← resolveTag given.tag | fail
      let begin : Build (Option Nat) := given.anchor.mapM nameAnchor
      match ← peek, context with
      | some .blockEntry, .blockMapping => do
        keepAnchored (← begin) (← build steps (.plainSequence []))
      | some (.scalar text style), _ => do
        skip
        keepAnchored (← begin) (.scalar text style tag)
      | some .flowSequenceStart, _ => do
        let place ← begin
        skip
        keepAnchored place (← build steps (.flowSequence true []))
      | some .flowMappingStart, _ => do
        let place ← begin
        skip
        keepAnchored place (← build steps (.flowMapping true []))
      | some .blockSequenceStart, .block | some .blockSequenceStart, .blockMapping => do
        let place ← begin
        skip
        keepAnchored place (← build steps (.blockSequence []))
      | some .blockMappingStart, .block | some .blockMappingStart, .blockMapping => do
        let place ← begin
        skip
        keepAnchored place (← build steps (.blockMapping []))
      | some _, _ =>
        if given.anchor.isSome || given.tag.isSome then
          keepAnchored (← begin) (.scalar "" .plain tag)
        else
          fail
      | none, _ => fail
  | steps + 1, .blockSequence items => do
    match ← peek with
    | some .blockEntry =>
      skip
      let item ← match ← peek with
        | some .blockEntry | some .blockEnd => pure .empty
        | _ => build steps (.node .block)
      build steps (.blockSequence (item :: items))
    | some .blockEnd =>
      skip
      return .sequence items.reverse
    | _ => return .sequence ((← fail) :: items).reverse
  | steps + 1, .plainSequence items => do
    match ← peek with
    | some .blockEntry =>
      skip
      let item ← match ← peek with
        | some .blockEntry | some .key | some .value | some .blockEnd => pure .empty
        | _ => build steps (.node .block)
      build steps (.plainSequence (item :: items))
    | some _ => return .sequence items.reverse
    | none => return .sequence ((← fail) :: items).reverse
  | steps + 1, .blockMapping entries => do
    match ← peek with
    | some .key =>
      skip
      let key ← match ← peek with
        | some .key | some .value | some .blockEnd => pure .empty
        | _ => build steps (.node .blockMapping)
      let value ← match ← peek with
        | some .value => do
          skip
          match ← peek with
          | some .key | some .value | some .blockEnd => pure .empty
          | _ => build steps (.node .blockMapping)
        | some _ => pure .empty
        | none => fail
      build steps (.blockMapping ((key, value) :: entries))
    | some .blockEnd =>
      skip
      return .mapping entries.reverse
    | _ =>
      let broken ← fail
      return .mapping ((broken, broken) :: entries).reverse
  | steps + 1, .flowSequence isFirst items => do
    if !isFirst && (← peek) = some .flowEntry then
      skip
    else if !isFirst && (← peek) ≠ some .flowSequenceEnd then
      return .sequence ((← fail) :: items).reverse
    match ← peek with
    | some .flowSequenceEnd =>
      skip
      return .sequence items.reverse
    | some .key =>
      skip
      let item ← build steps .flowPair
      build steps (.flowSequence false (item :: items))
    | none => return .sequence ((← fail) :: items).reverse
    | some _ =>
      let item ← build steps (.node .flow)
      build steps (.flowSequence false (item :: items))
  | steps + 1, .flowPair => do
    let key ← match ← peek with
      | some .value | some .flowEntry | some .flowSequenceEnd => do
        skip
        pure .empty
      | _ => build steps (.node .flow)
    let value ← match ← peek with
      | some .value => do
        skip
        match ← peek with
        | some .flowEntry | some .flowSequenceEnd => pure .empty
        | _ => build steps (.node .flow)
      | some _ => pure .empty
      | none => fail
    return .mapping [(key, value)]
  | steps + 1, .flowMapping isFirst entries => do
    let faulty : Build Node := do
      let broken ← fail
      return .mapping ((broken, broken) :: entries).reverse
    if !isFirst && (← peek) = some .flowEntry then
      skip
    else if !isFirst && (← peek) ≠ some .flowMappingEnd then
      return ← faulty
    match ← peek with
    | some .flowMappingEnd =>
      skip
      return .mapping entries.reverse
    | some .key =>
      skip
      let key ← match ← peek with
        | some .value | some .flowEntry | some .flowMappingEnd => pure .empty
        | _ => build steps (.node .flow)
      let value ← match ← peek with
        | some .value => do
          skip
          match ← peek with
          | some .flowEntry | some .flowMappingEnd => pure .empty
          | _ => build steps (.node .flow)
        | some _ => pure .empty
        | none => fail
      build steps (.flowMapping false ((key, value) :: entries))
    | none => faulty
    | some _ =>
      let key ← build steps (.node .flow)
      let value ← match ← peek with
        | some _ => pure .empty
        | none => fail
      build steps (.flowMapping false ((key, value) :: entries))

end Builder
end Yaml
end ShaderBuild
