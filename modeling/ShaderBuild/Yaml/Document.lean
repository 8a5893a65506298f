import ShaderBuild.Record
import ShaderBuild.Text.Decimal
import ShaderBuild.Yaml.Node

/-!
This module contains YAML documents and the reading of records from them.
-/

namespace ShaderBuild
namespace Yaml

/--
The first document of a text.
-/
structure Document where
  root : Node
  /-- The nodes that aliases stand for. -/
  anchored : List (Nat × Node)
  /-- The text is well formed and has no other document. -/
  isAlone : Bool

namespace Document

/--
The tag handles that need no declaration.
-/
def defaultHandles : List (String × TagText) :=
  [("!", .ofString "!"), ("!!", .ofString "tag:yaml.org,2002:")]

/--
Read the directives in front of a document, and give the tag handles that they declare and the
tokens after them. A directive that is given twice, or another version than 1.1 and 1.2, is a fault.
-/
def directives? (hasVersion : Bool) (handles : List (String × TagText)) :
    List Token → Option (List (String × TagText) × List Token)
  | .versionDirective major minor :: rest =>
    if hasVersion || major ≠ 1 || !(minor = 1 || minor = 2) then
      none
    else
      directives? true handles rest
  | .tagDirective handle start :: rest =>
    if (handles.lookup handle).isSome then
      none
    else
      directives? hasVersion ((handle, start) :: handles) rest
  | tokens => some (handles, tokens)

/--
The tokens of the content of the first document, and the tag handles that are declared for it.
-/
def content? (tokens : List Token) : Option (List (String × TagText) × List Token) :=
  match tokens with
  | [] => none
  | .versionDirective _ _ :: _ | .tagDirective _ _ :: _ | .documentStart :: _ =>
    match directives? false [] tokens with
    | some (handles, .documentStart :: rest) => some (handles ++ defaultHandles, rest)
    | _ => none
  | _ => some (defaultHandles, tokens)

/--
The number that the anchor of each alias was given, with the node at the last anchor of that number.
-/
def resolveAnchors (b : Builder) : List (Nat × Node) :=
  b.anchored.filterMap fun (place, node) => do
    let number ← b.numbers[place]?
    if number ∈ b.numbers.drop (place + 1) then none else some (number, node)

/--
Whether a document without content ends before a token.
-/
def endsBefore : Token → Bool
  | .versionDirective _ _ | .tagDirective _ _ | .documentStart | .documentEnd | .streamEnd => true
  | _ => false

/--
The first document that tokens make up. A document that is not there is empty.
-/
def ofTokens (tokens : List Token) : Document :=
  match content? tokens with
  | none => ⟨.fault, [], false⟩
  | some (handles, rest) =>
    let isMarked := rest.length < tokens.length
    let isEmpty := match rest with
      | [] => false
      | token :: _ => endsBefore token && (isMarked || token = Token.streamEnd)
    let b : Builder := ⟨rest, handles, [], [], []⟩
    let (root, b) :=
      if isEmpty then (Node.empty, b)
      else (Builder.build (4 * rest.length + 4) (.node .block)).run b
    let tokensAfter := b.tokens.dropWhile (· = Token.documentEnd)
    ⟨root, resolveAnchors b, tokensAfter.head? = some .streamEnd⟩

/--
The first document of a text.
-/
def ofText (text : String) : Document :=
  ofTokens (tokens text)

/--
How often aliases may be followed for each part of the document.
-/
def aliasFactor : Nat := 100

/--
The node that is meant by a node, which is another one for an alias.
-/
def follow (d : Document) (node : Node) : Read Node := do
  match node with
  | .alias anchor =>
    modify (· + 1)
    if (← get) > aliasFactor * d.root.weight then
      throw .malformed
    match d.anchored.lookup anchor with
    | some node => return node
    | none => throw .malformed
  | node => return node

/--
The plain scalars that stand for nothing.
-/
def isNull (text : String) : Bool :=
  text = "~" || text = "null" || text = "Null" || text = "NULL"

/--
The tag of a scalar that stands for nothing.
-/
def nullTag : TagText := .ofString "tag:yaml.org,2002:null"

/--
The tag of an integer.
-/
def integerTag : TagText := .ofString "tag:yaml.org,2002:int"

/--
The value of a digit up to base 16.
-/
def digit? (base : Nat) (c : Char) : Option Nat := do
  let n ← Quoted.hexDigit? c
  if n < base then some n else none

/--
The number that is written with digits of a base.
-/
def digitsValue? (base : Nat) (digits : List Char) : Option Nat :=
  if digits.isEmpty then
    none
  else
    digits.foldlM (fun n c => do return base * n + (← digit? base c)) 0

/--
The number that a scalar denotes: decimal without needless zeros in front, or with a lower case sign
for the base. A plus may stand in front.
-/
def number? (cs : List Char) : Option Nat :=
  let unsigned := if cs.head? = some '+' then cs.tail else cs
  match unsigned with
  | '0' :: 'x' :: digits => digitsValue? 16 digits
  | '0' :: 'o' :: digits => digitsValue? 8 digits
  | '0' :: 'b' :: digits => digitsValue? 2 digits
  | '0' :: _ :: _ => none
  | _ => digitsValue? 10 unsigned

/--
Records in YAML. A text is any scalar as it is written, and a number is a plain scalar or a literal
one with the tag of integers. A plain scalar without characters is also an empty list and a record
without fields.
-/
def format (d : Document) : Format Node where
  text node := do
    match ← d.follow node with
    | .scalar text _ _ => return text
    | _ => throw .malformed
  present? node := do
    let node ← d.follow node
    match node with
    | .scalar text .plain none => return if text = "" || isNull text then none else some node
    | .scalar text .plain (some tag) =>
      if tag ≠ nullTag then return some node
      else if isNull text then return none
      else throw .malformed
    | node => return some node
  word node := do
    match ← d.follow node with
    | .scalar text style tag =>
      if style = .plain || (style = .literal && tag = some integerTag) then
        match number? text.toList with
        | some n => if n < Text.wordLimit then return n else throw .malformed
        | none => throw .malformed
      else
        throw .malformed
    | _ => throw .malformed
  items node := do
    match ← d.follow node with
    | .sequence items => return items
    | .scalar "" .plain _ => return []
    | _ => throw .malformed
  fields node := do
    match ← d.follow node with
    | .mapping entries => return .named entries
    | .scalar "" .plain _ => return .named []
    | _ => throw .malformed
  ignore node := if node.isSound then return () else throw .malformed

/--
Read a text that holds one document.
-/
def read {α : Type} (reader : Format Node → Node → Read α) (text : String) :
    Except DecodeError α := do
  let d := ofText text
  let (value, _) ← (reader d.format d.root).run 0
  if d.isAlone then
    return value
  else
    throw .malformed

end Document
end Yaml
end ShaderBuild
