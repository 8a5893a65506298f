import ShaderBuild.Text.Pieces

/-!
This module contains the cutting of texts into lines. A line ends at a line feed, which takes one
carriage return directly before it along. What follows the last line feed is a line if it is not
empty, and it keeps a carriage return at its end. A carriage return alone ends no line.
-/

namespace ShaderBuild
namespace Text

/--
The lines of a text, without their ends.
-/
def cutLines : List Char → List (List Char)
  | [] => []
  | '\r' :: '\n' :: cs => [] :: cutLines cs
  | '\n' :: cs => [] :: cutLines cs
  | c :: cs => extendFirst c (cutLines cs)

/--
The lines of a text, without their ends.
-/
def lines (text : String) : List String :=
  (cutLines text.toList).map String.ofList

/--
The lines of a text with their numbers, which start at one. The numbers have no limit. Texts are
taken to have fewer than 2 ^ 32 lines, for which the numbers fit a 32 bit word.
-/
def numberedLines (text : String) : List (Nat × String) :=
  number 1 (lines text)
where
  number (n : Nat) : List String → List (Nat × String)
    | [] => []
    | line :: rest => (n, line) :: number (n + 1) rest

/--
The text that ends each of the given lines with a line feed.
-/
def ofLines (lines : List String) : String :=
  String.join (lines.map (· ++ "\n"))

@[simp]
theorem cutLines_nil : cutLines [] = [] := rfl

theorem numberedLines.number_length (n : Nat) (ls : List String) :
    (number n ls).length = ls.length := by
  induction ls generalizing n with
  | nil => rfl
  | cons l ls ih => simp [number, ih]

@[simp]
theorem numberedLines_length (text : String) :
    (numberedLines text).length = (lines text).length :=
  numberedLines.number_length 1 _

end Text
end ShaderBuild
