import ShaderBuild.FrontEnd
import ShaderBuild.Text.Blank
import ShaderBuild.Text.Decimal

/-!
This module contains the front end of the command line for sources that it has no record of. It
stands in for a parser and checker of the shading language, which is not part of this library, and
goes by what shows of a shader without parsing it: the language version that it asks for, and
whether it has an entry point. What is proved about drivers and builds holds for every front end and
does not rest on this one.
-/

namespace ShaderBuild
namespace Tool
namespace Outline

/--
The language versions that a shader may ask for.
-/
def versions : List Nat := [440, 450, 460]

/--
The language profiles that a shader may ask for.
-/
def profiles : List String := ["core", "compatibility", ""]

/--
A character of a name.
-/
def isNameChar (c : Char) : Bool :=
  c.isAlphanum || c = '_'

/--
The error for the characters that end where `rest` starts.
-/
def errorBefore (contents rest : List Char) (width : Nat) (text : String) : ParseError :=
  let stop := Text.byteSize contents - Text.byteSize rest
  ⟨stop - width, stop, text⟩

/--
The errors in the version directive at the start of a text. Without one there are none.
-/
def versionErrors (contents : List Char) : List ParseError :=
  match Text.after? "#version ".toList contents with
  | none => []
  | some cs =>
    let (digits, afterVersion) := Text.spanDigits (Text.trimStart cs)
    let version := Text.digitsValue digits
    let profile := (afterVersion.dropWhile (· = ' ')).takeWhile isNameChar
    let afterProfile := (afterVersion.dropWhile (· = ' ')).dropWhile isNameChar
    (if version ∈ versions then []
      else [errorBefore contents afterVersion digits.length
        (ParseFault.invalidVersion version).message]) ++
    (if String.ofList profile ∈ profiles then []
      else [errorBefore contents afterProfile profile.length
        ("Invalid profile: " ++ String.ofList profile)])

/--
A text that starts with the entry point as it is declared.
-/
def isAtEntryPoint (cs : List Char) : Bool :=
  match Text.after? "main".toList cs with
  | some rest => (Text.trimStart rest).head? = some '('
  | none => false

/--
The text declares an entry point, given whether it goes on with a new word.
-/
def hasEntryPoint (atWord : Bool) : List Char → Bool
  | [] => false
  | c :: cs => (atWord && isAtEntryPoint (c :: cs)) || hasEntryPoint (!isNameChar c) cs

/--
The errors that show in the outline of a shader.
-/
def errors (contents : List Char) : List ParseError :=
  versionErrors contents ++
    if hasEntryPoint true contents then [] else [⟨0, 0, "Missing entry point"⟩]

/--
The front end that stands in for one that parses shaders. It takes for granted what does not show in
the outline of a shader: that the shader is well formed otherwise, and that no values cross the
boundary of its entry point.
-/
def frontEnd : FrontEnd := fun _ contents =>
  match errors contents.toList with
  | [] => .ok ⟨[⟨[], none⟩], none⟩
  | error :: rest => .error (error :: rest)

end Outline
end Tool
end ShaderBuild
