/-!
This module contains the character classes of YAML.
-/

namespace ShaderBuild
namespace Yaml

/--
The mark that may stand at the start of a text.
-/
def byteOrderMark : Char := '\ufeff'

/--
A character that may occur in a YAML text.
-/
def isPrintable (c : Char) : Bool :=
  let n := c.toNat
  n == 0x09 || n == 0x0A || n == 0x0D || (0x20 ≤ n && n ≤ 0x7E) || n == 0x85 ||
  (0xA0 ≤ n && n ≤ 0xD7FF) || (0xE000 ≤ n && n ≤ 0xFFFD) || 0x10000 ≤ n

/--
A character that ends a line.
-/
def isBreak (c : Char) : Bool :=
  c = '\n' || c = '\r' || c = '\x85' || c = '\u2028' || c = '\u2029'

/--
A line end as it is kept in a scalar. The separators of Unicode stand for themselves.
-/
def normalBreak (c : Char) : Char :=
  if c = '\u2028' || c = '\u2029' then c else '\n'

/--
A character that separates words on a line.
-/
def isSpace (c : Char) : Bool :=
  c = ' ' || c = '\t'

/--
A character of the names of anchors, tag handles and directives.
-/
def isWordChar (c : Char) : Bool :=
  c.isAlphanum || c = '_' || c = '-'

/--
The text ends or goes on with a space or a line end.
-/
def atGap : List Char → Bool
  | [] => true
  | c :: _ => isSpace c || isBreak c

/--
The text goes on with a line end or ends.
-/
def atLineEnd : List Char → Bool
  | [] => true
  | c :: _ => isBreak c

/--
A line that starts like this separates documents.
-/
def atDocumentMark : List Char → Bool
  | '-' :: '-' :: '-' :: cs => atGap cs
  | '.' :: '.' :: '.' :: cs => atGap cs
  | _ => false

/--
The text after one line end, if there is one. A carriage return takes a line feed along.
-/
def afterBreak : List Char → List Char
  | '\r' :: '\n' :: cs => cs
  | c :: cs => if isBreak c then cs else c :: cs
  | [] => []

/--
The text after spaces and a comment.
-/
def afterComment (cs : List Char) : List Char :=
  match cs.dropWhile isSpace with
  | '#' :: rest => rest.dropWhile (fun c => !isBreak c)
  | rest => rest

end Yaml
end ShaderBuild
