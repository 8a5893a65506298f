/-!
This module contains the interface of the places that included files are read from.
-/

namespace ShaderBuild

/--
The reasons why a file cannot be read.
-/
inductive ReadError
  | notFound
  | isDirectory
  | notDirectory
  | nameTooLong
  | invalidUtf8
  | nulByte
  /-- Any other reason, in the words of the place that is read from. -/
  | other (account : String)
deriving DecidableEq

namespace ReadError

def message : ReadError → String
  | notFound => "No such file or directory (os error 2)"
  | isDirectory => "Is a directory (os error 21)"
  | notDirectory => "Not a directory (os error 20)"
  | nameTooLong => "File name too long (os error 36)"
  | invalidUtf8 => "stream did not contain valid UTF-8"
  | nulByte => "file name contained an unexpected NUL byte"
  | other account => account

end ReadError

/--
A tree of files that can be included. Reading a path gives the text of the file, or nothing if the
tree has no such file.
-/
structure IncludeSource where
  read : String → Except ReadError (Option String)

/--
A source whose answers have effects in `m`.
-/
abbrev Reader (m : Type → Type) := String → m (Except ReadError (Option String))

namespace IncludeSource

/--
The source as one whose answers have no effects.
-/
def reader (source : IncludeSource) : Reader Id := source.read

end IncludeSource
end ShaderBuild
