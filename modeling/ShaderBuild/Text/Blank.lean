/-!
This module contains white space in the sense of the Unicode property `White_Space`, and the
trimming of texts by it.
-/

namespace ShaderBuild
namespace Text

/--
A character with the Unicode property `White_Space`.
-/
def isBlank (c : Char) : Bool :=
  let n := c.toNat
  (0x09 ≤ n && n ≤ 0x0D) || n == 0x20 || n == 0x85 || n == 0xA0 || n == 0x1680 ||
  (0x2000 ≤ n && n ≤ 0x200A) || n == 0x2028 || n == 0x2029 || n == 0x202F || n == 0x205F ||
  n == 0x3000

/--
The text without its leading white space.
-/
def trimStart (cs : List Char) : List Char :=
  cs.dropWhile isBlank

/--
The text without its trailing white space.
-/
def trimEnd (cs : List Char) : List Char :=
  (cs.reverse.dropWhile isBlank).reverse

/--
The text without white space at either end.
-/
def trim (cs : List Char) : List Char :=
  trimEnd (trimStart cs)

/--
A text that is empty once trimmed.
-/
def isAllBlank (s : String) : Bool :=
  s.toList.all isBlank

end Text
end ShaderBuild
