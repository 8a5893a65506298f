import ShaderBuild.Text.Blank
import ShaderBuild.Text.Pieces

/-!
This module contains the directives that a template understands, and their recognition. A directive
takes a whole line. White space may stand around `#` and at the end of the line, where a comment
that starts with `//` may follow.
-/

namespace ShaderBuild

/--
A line that a template replaces instead of copying it.
-/
inductive Directive
  /-- The file of that name takes the place of the line. -/
  | includeFile (name : String)
  /-- The file that holds the line is expanded at most once. -/
  | pragmaOnce
deriving DecidableEq

namespace Directive

/--
What follows `#` and the white space around it.
-/
def afterHash? (line : List Char) : Option (List Char) :=
  (Text.after? ['#'] (Text.trimStart line)).map Text.trimStart

/--
What follows the given word and the white space after it, of which there must be some.
-/
def afterWord? (word : String) (cs : List Char) : Option (List Char) :=
  match Text.after? word.toList cs with
  | some (c :: rest) => if Text.isBlank c then some (Text.trimStart rest) else none
  | _ => none

/--
Nothing but white space and perhaps a comment.
-/
def isLineEnd (cs : List Char) : Bool :=
  match Text.trimStart cs with
  | [] => true
  | '/' :: '/' :: _ => true
  | _ => false

/--
The name up to a closing mark, where the line has to end. A name is not empty.
-/
def nameUntil? (close : Char) (cs : List Char) : Option String :=
  match cs.takeWhile (· ≠ close), cs.dropWhile (· ≠ close) with
  | c :: name, _ :: rest => if isLineEnd rest then some (String.ofList (c :: name)) else none
  | _, _ => none

/--
The name that an include directive asks for, between quotes or between angle brackets.
-/
def includeTarget? (line : List Char) : Option String := do
  match ← afterWord? "include" (← afterHash? line) with
  | '\x22' :: rest => nameUntil? '\x22' rest
  | '<' :: rest => nameUntil? '>' rest
  | _ => none

/--
A directive that has its file expanded at most once.
-/
def isPragmaOnce (line : List Char) : Bool :=
  match afterHash? line with
  | none => false
  | some rest =>
    match afterWord? "pragma" rest with
    | none => false
    | some rest =>
      match Text.after? ['o', 'n', 'c', 'e'] rest with
      | none => false
      | some rest => isLineEnd rest

/--
The directive on a line, if there is one.
-/
def parse? (line : String) : Option Directive :=
  if isPragmaOnce line.toList then
    some .pragmaOnce
  else
    (includeTarget? line.toList).map .includeFile

end Directive
end ShaderBuild
