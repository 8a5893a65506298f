import ShaderBuild.Yaml.Char

/-!
This module contains the texts of tags. A tag may have characters that are written as bytes, with a
percent sign and two digits for each. The bytes are kept as they are, so that two tags are equal
only if they stand for the same bytes, also where those encode no characters.
-/

namespace ShaderBuild
namespace Yaml

/--
The text of a tag, or of a part of one, as its bytes.
-/
abbrev TagText := List UInt8

namespace TagText

/--
The encoding of a text.
-/
def ofString (text : String) : TagText :=
  text.toList.flatMap String.utf8EncodeChar

/--
The text up to the first zero byte.
-/
def beforeZero (text : TagText) : TagText :=
  text.takeWhile (· ≠ 0)

/--
A character that may stand in a tag. Inside angle brackets there are some more.
-/
def isTagChar (isVerbatim : Bool) (c : Char) : Bool :=
  isWordChar c ||
  c ∈ [';', '/', '?', ':', '@', '&', '=', '+', '$', '.', '%', '!', '~', '*', '\x27', '(', ')'] ||
  (isVerbatim && c ∈ [',', '[', ']'])

/--
A byte that is written with two hexadecimal digits.
-/
def octet? : List Char → Option (UInt8 × List Char)
  | '%' :: a :: b :: cs => do return (UInt8.ofNat (16 * (← digit a) + (← digit b)), cs)
  | _ => none
where
  digit (c : Char) : Option Nat :=
    if c.isDigit then some (c.toNat - '0'.toNat)
    else if 'a' ≤ c.toLower && c.toLower ≤ 'f' then some (c.toLower.toNat - 'a'.toNat + 10)
    else none

/--
So many bytes that continue a character.
-/
def continuation? : Nat → List Char → Option (TagText × List Char)
  | 0, cs => some ([], cs)
  | n + 1, cs => do
    let (octet, rest) ← octet? cs
    if octet / 64 = 2 then
      let (octets, rest) ← continuation? n rest
      return (octet :: octets, rest)
    else
      none

/--
A character that is written as its bytes. The first one tells how many there are. Nothing else is
asked of them: longer encodings than needed and surrogates pass.
-/
def escaped? (cs : List Char) : Option (TagText × List Char) := do
  let (octet, rest) ← octet? cs
  let more ←
    if octet < 128 then some 0
    else if octet / 32 = 6 then some 1
    else if octet / 16 = 14 then some 2
    else if octet / 8 = 30 then some 3
    else none
  let (octets, rest) ← continuation? more rest
  return (octet :: octets, rest)

/--
The bytes that the characters of a tag stand for. The length of the text bounds the number of steps.
-/
def unescape? : Nat → List Char → Option TagText
  | _, [] => some []
  | 0, _ => none
  | steps + 1, c :: cs =>
    if c = '%' then do
      let (octets, rest) ← escaped? (c :: cs)
      return octets ++ (← unescape? steps rest)
    else do
      return String.utf8EncodeChar c ++ (← unescape? steps cs)

/--
The part of a tag at the start of a text, which may be empty.
-/
def part? (isVerbatim : Bool) (cs : List Char) : Option (TagText × List Char) := do
  let part := cs.takeWhile (isTagChar isVerbatim)
  return (← unescape? part.length part, cs.dropWhile (isTagChar isVerbatim))

end TagText
end Yaml
end ShaderBuild
