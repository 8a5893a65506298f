import ShaderBuild.Yaml.Char

/-!
This module contains the folding of white space inside scalars. Spaces between words stay. A gap
with one line end is folded into a space, and in a gap with more of them the first is left out.
-/

namespace ShaderBuild
namespace Yaml

/--
The white space between two words of a scalar.
-/
structure Gap where
  /-- The spaces of a gap on one line. -/
  spaces : List Char
  /-- Whether a line ends in the gap. -/
  isFolded : Bool
  /-- The first line end, if it is not to be left out. -/
  firstBreak : Option Char
  otherBreaks : List Char
  /-- The number of spaces since the last line end. -/
  column : Nat

namespace Gap

/--
The gap between two characters of a word.
-/
def empty : Gap where
  spaces := []
  isFolded := false
  firstBreak := none
  otherBreaks := []
  column := 0

/--
The gap after a line end that is left out altogether.
-/
def escapedBreak : Gap where
  spaces := []
  isFolded := true
  firstBreak := none
  otherBreaks := []
  column := 0

def addSpace (g : Gap) (c : Char) : Gap :=
  if g.isFolded then { g with column := g.column + 1 } else { g with spaces := g.spaces ++ [c] }

def addBreak (g : Gap) (c : Char) : Gap :=
  if g.isFolded then
    { g with otherBreaks := g.otherBreaks ++ [normalBreak c], column := 0 }
  else
    { g with spaces := [], isFolded := true, firstBreak := some (normalBreak c), column := 0 }

/--
The gap ends at the start of a line.
-/
def atLineStart (g : Gap) : Bool :=
  g.isFolded && g.column = 0

/--
What is written for the gap.
-/
def text (g : Gap) : List Char :=
  if g.isFolded then
    match g.firstBreak with
    | some '\n' => if g.otherBreaks.isEmpty then [' '] else g.otherBreaks
    | some c => c :: g.otherBreaks
    | none => g.otherBreaks
  else
    g.spaces

end Gap
end Yaml
end ShaderBuild
