import ShaderBuild.Text.Pieces

/-!
This module contains paths, texts whose components are separated by slashes, and their normal form.
A path in normal form has at least one component, none of its components is empty, `.` or `..`,
and it starts with a slash only if it is given from the root.
-/

namespace ShaderBuild
namespace Path

/--
Walk along components from a stack of open directories, innermost first. A `..` leaves the
innermost directory, and the walk fails if there is none left.
-/
def walk : List (List Char) → List (List Char) → Option (List (List Char))
  | opened, [] => some opened
  | opened, [] :: rest => walk opened rest
  | opened, ['.'] :: rest => walk opened rest
  | opened, ['.', '.'] :: rest =>
    match opened with
    | [] => none
    | _ :: opened => walk opened rest
  | opened, component :: rest => walk (component :: opened) rest

/--
Collapse `.`, `..` and repeated slashes. There is no normal form for a path that denotes its root
or climbs above it.
-/
def normalize? (path : String) : Option String :=
  match walk [] (Text.pieces '/' path.toList) with
  | none => none
  | some [] => none
  | some (inner :: outer) =>
    let relative := ['/'].intercalate (inner :: outer).reverse
    some (String.ofList (if path.toList.head? = some '/' then '/' :: relative else relative))

/--
The path up to its last slash, without that slash.
-/
def directory? (path : String) : Option String :=
  match path.toList.reverse.dropWhile (· ≠ '/') with
  | [] => none
  | _ :: directory => some (String.ofList directory.reverse)

/--
The path of a file below a directory. A slash goes between them, unless there is one already or
there is no directory to name.
-/
def join (directory relative : String) : String :=
  match directory.toList.getLast? with
  | none | some '/' => directory ++ relative
  | some _ => directory ++ "/" ++ relative

/--
The path that an include of `name` in the file `includer` denotes. A name that starts with a slash
is taken from the root, any other from the directory of the includer.
-/
def resolve? (includer name : String) : Option String :=
  if name.toList.head? = some '/' then
    normalize? name
  else
    match directory? includer with
    | none => normalize? name
    | some directory => normalize? (directory ++ "/" ++ name)

end Path
end ShaderBuild
