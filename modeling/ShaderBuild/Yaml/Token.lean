import ShaderBuild.Yaml.TagText

/-!
This module contains the tokens of YAML and the reading of those that stand for themselves: names,
tags and directives.
-/

namespace ShaderBuild
namespace Yaml

/--
How a scalar is written.
-/
inductive ScalarStyle
  | plain
  | quoted
  | literal
  | folded
deriving DecidableEq

/--
A token of a YAML text. The start and the end of block collections, which the text shows by its
indentation only, are tokens too.
-/
inductive Token
  | streamEnd
  | versionDirective (major minor : Nat)
  | tagDirective (handle : String) (start : TagText)
  | documentStart
  | documentEnd
  | blockSequenceStart
  | blockMappingStart
  | blockEnd
  | flowSequenceStart
  | flowSequenceEnd
  | flowMappingStart
  | flowMappingEnd
  | blockEntry
  | flowEntry
  | key
  | value
  | alias (name : String)
  | anchor (name : String)
  | tag (handle : String) (suffix : TagText)
  | scalar (text : String) (style : ScalarStyle)
deriving DecidableEq

namespace Token

/--
The name of an anchor, after its mark.
-/
def anchorName? (cs : List Char) : Option (String × List Char) :=
  let name := cs.takeWhile isWordChar
  let rest := cs.dropWhile isWordChar
  let isEnd := atGap rest || match rest with
    | [] => true
    | c :: _ => c ∈ ['?', ':', ',', ']', '\x7d', '%', '@', '\x60']
  if !name.isEmpty && isEnd then some (String.ofList name, rest) else none

/--
The handle of a tag at the start of a text: an exclamation mark, and a name that ends with another
one if there is one.
-/
def tagHandle? (cs : List Char) : Option (String × List Char) :=
  match cs with
  | '!' :: cs =>
    let name := cs.takeWhile isWordChar
    match cs.dropWhile isWordChar with
    | '!' :: rest => some (String.ofList ('!' :: name ++ ['!']), rest)
    | _ => none
  | _ => none

/--
Read a tag from its exclamation mark. In flow collections a comma may follow it.
-/
def tag? (inFlow : Bool) (cs : List Char) : Option (Token × List Char) := do
  let (token, rest) ← match cs with
    | '!' :: '<' :: cs => do
      let (suffix, rest) ← TagText.part? true cs
      match suffix, rest with
      | _ :: _, '>' :: rest => pure (tag "" suffix.beforeZero, rest)
      | _, _ => none
    | '!' :: afterMark =>
      match tagHandle? cs with
      | some (handle, rest) => do
        let (suffix, rest) ← TagText.part? false rest
        if suffix.isEmpty then none else pure (tag handle suffix.beforeZero, rest)
      | none => do
        let (suffix, rest) ← TagText.part? false afterMark
        let suffix := suffix.beforeZero
        pure (if suffix.isEmpty then tag "" (TagText.ofString "!") else tag "!" suffix, rest)
    | _ => none
  if atGap rest || (inFlow && rest.head? = some ',') then
    return (token, rest)
  else
    none

/--
A version number of at most nine digits.
-/
def versionNumber? (cs : List Char) : Option (Nat × List Char) :=
  let digits := cs.takeWhile Char.isDigit
  if digits.isEmpty || digits.length > 9 then
    none
  else
    some (digits.foldl (fun n c => 10 * n + (c.toNat - '0'.toNat)) 0, cs.dropWhile Char.isDigit)

/--
The value of a version directive.
-/
def version? (cs : List Char) : Option (Token × List Char) := do
  let (major, rest) ← versionNumber? (cs.dropWhile isSpace)
  match rest with
  | '.' :: rest => do
    let (minor, rest) ← versionNumber? rest
    return (versionDirective major minor, rest)
  | _ => none

/--
The value of a tag directive: a handle and what it stands for.
-/
def tagAbbreviation? (cs : List Char) : Option (Token × List Char) := do
  let cs := cs.dropWhile isSpace
  let (handle, rest) ← match tagHandle? cs, cs with
    | some found, _ => some found
    | none, '!' :: rest => if rest.head?.any isWordChar then none else some ("!", rest)
    | none, _ => none
  if !rest.head?.any isSpace then
    none
  let (start, rest) ← TagText.part? true (rest.dropWhile isSpace)
  if !start.isEmpty && atGap rest then
    return (tagDirective handle start.beforeZero, rest)
  else
    none

/--
Read a directive after its percent sign, up to the end of its line. Unknown directives are
malformed.
-/
def directive? (cs : List Char) : Option (Token × List Char) := do
  let name := String.ofList (cs.takeWhile isWordChar)
  let rest := cs.dropWhile isWordChar
  if !atGap rest then
    none
  let (token, rest) ←
    if name = "YAML" then version? rest
    else if name = "TAG" then tagAbbreviation? rest
    else none
  let rest := afterComment rest
  if atLineEnd rest then
    return (token, afterBreak rest)
  else
    none

end Token
end Yaml
end ShaderBuild
