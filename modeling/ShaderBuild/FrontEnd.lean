import ShaderBuild.Interface
import ShaderBuild.Stage
import ShaderBuild.Text.Pieces

/-!
This module contains the interface of the shading language front end, and the logs that are written
from the errors that it reports.
-/

namespace ShaderBuild

/--
The place of a byte in a text. The column counts bytes from the start of the line. The first line
and the first column have number one.
-/
structure Position where
  line : Nat
  column : Nat
deriving DecidableEq

namespace Position

/--
The place of the byte at an offset.
-/
def ofOffset (text : String) (offset : Nat) : Position :=
  go ⟨1, 1⟩ offset text.toList
where
  go (here : Position) (remaining : Nat) : List Char → Position
    | [] => ⟨here.line, here.column + remaining⟩
    | c :: cs =>
      if remaining < c.utf8Size then
        ⟨here.line, here.column + remaining⟩
      else if c = '\n' then
        go ⟨here.line + 1, 1⟩ (remaining - c.utf8Size) cs
      else
        go ⟨here.line, here.column + c.utf8Size⟩ (remaining - c.utf8Size) cs

end Position

/--
The errors that the front end reports in words.
-/
inductive ParseFault
  | semantic (text : String)
  | unknownVariable (name : String)
  | unknownType (name : String)
  | unknownField (name : String)
  | invalidVersion (version : Nat)
  | endOfFile

namespace ParseFault

def message : ParseFault → String
  | semantic text => text
  | unknownVariable name => s!"Unknown variable: {name}"
  | unknownType name => s!"Unknown type: {name}"
  | unknownField name => s!"Unknown field: {name}"
  | invalidVersion version => s!"Invalid version: {version}"
  | endOfFile => "Unexpected end of file"

end ParseFault

/--
An error that the front end reports for the bytes from `start` up to `stop`.
-/
structure ParseError where
  start : Nat
  stop : Nat
  text : String
deriving DecidableEq

namespace ParseError

/--
The empty range at the start of a text stands for an unknown place.
-/
def isLocated (e : ParseError) : Bool :=
  e.start ≠ 0 || e.stop ≠ 0

/--
The log line for an error in the given text.
-/
def logLine (contents : String) (e : ParseError) : String :=
  if e.isLocated then
    let place := Position.ofOffset contents e.start
    s!"0:{place.line}({place.column}): error: {e.text}"
  else
    s!"error: {e.text}"

/--
The log for the errors in the given text, a line for each.
-/
def log (contents : String) (errors : List ParseError) : String :=
  Text.join "\n" (errors.map (logLine contents))

end ParseError

/--
The stages that the front end can parse.
-/
def Stage.isParsable : Stage → Bool
  | .vertex | .fragment | .compute => true
  | .tessControl | .tessEvaluation | .geometry => false

/--
A front end parses the text of a shader for a stage.
-/
abbrev FrontEnd := Stage → String → Except (List ParseError) ShaderModule

end ShaderBuild
