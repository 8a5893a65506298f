/-!
This module contains the reading of decimal numbers that fit a 32 bit word.
-/

namespace ShaderBuild
namespace Text

/--
The number of values that a 32 bit word can hold.
-/
def wordLimit : Nat := 4294967296

/--
The value of a run of ASCII digits, most significant first.
-/
def digitsValue (digits : List Char) : Nat :=
  digits.foldl (fun value c => 10 * value + (c.toNat - '0'.toNat)) 0

/--
The digits at the front of a text, and what follows them.
-/
def spanDigits (cs : List Char) : List Char × List Char :=
  (cs.takeWhile Char.isDigit, cs.dropWhile Char.isDigit)

/--
The value of a text that consists of ASCII digits, at least one, and fits a 32 bit word.
-/
def word? (cs : List Char) : Option Nat :=
  if cs.isEmpty || !cs.all Char.isDigit then
    none
  else if digitsValue cs < wordLimit then
    some (digitsValue cs)
  else
    none

end Text
end ShaderBuild
