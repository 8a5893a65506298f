import ShaderBuild.Include
import ShaderBuild.Path
import ShaderBuild.Text.Pieces

/-!
This module contains trees of files and directories, and the reading of files by path. A path is
followed component by component, as a file system does it: empty components and `.` stay where they
are, `..` goes to the parent, and anything below a file is an error.
-/

namespace ShaderBuild

/--
A file with its bytes, or a directory with its named entries.
-/
inductive FileTree
  | file (bytes : ByteArray)
  | directory (entries : List (String × FileTree))

namespace FileTree

/--
The directory without entries.
-/
def empty : FileTree := .directory []

/--
The greatest number of bytes that the name of an entry can have.
-/
def nameLimit : Nat := 255

/--
The number of bytes that a path must stay below.
-/
def pathLimit : Nat := 4096

/--
The entry of that name in a list of entries.
-/
def child? (name : String) : List (String × FileTree) → Option FileTree
  | [] => none
  | (entryName, tree) :: rest => if entryName = name then some tree else child? name rest

/--
Put a tree under a name, in place of the one that was there.
-/
def setChild (name : String) (tree : FileTree) :
    List (String × FileTree) → List (String × FileTree)
  | [] => [(name, tree)]
  | (entryName, old) :: rest =>
    if entryName = name then (name, tree) :: rest else (entryName, old) :: setChild name tree rest

/--
The components of a path that name an entry or lead to the parent.
-/
def steps (path : String) : List String :=
  ((Text.pieces '/' path.toList).map String.ofList).filter fun name => name ≠ "" && name ≠ "."

/--
Change the tree at the end of a list of names, making the directories on the way.
-/
def update (tree : FileTree) (change : FileTree → FileTree) : List String → FileTree
  | [] => change tree
  | name :: rest =>
    let entries := match tree with
      | .directory entries => entries
      | .file _ => []
    let below := (child? name entries).getD empty
    .directory (setChild name (update below change rest) entries)

/--
Walk along steps from an open directory, and make the directories that are not there. The names of
the open directories are listed from the outermost on. The outermost is its own parent.
-/
def enter (tree : FileTree) (opened : List String) : List String → FileTree × List String
  | [] => (tree, opened)
  | step :: rest =>
    if step = ".." then
      enter tree opened.dropLast rest
    else
      enter (tree.update id (opened ++ [step])) (opened ++ [step]) rest

/--
Write a file below a directory. The directories on the way are made.
-/
def writeFile (tree : FileTree) (path : String) (bytes : ByteArray) : FileTree :=
  let (tree, opened) := tree.enter [] (steps path).dropLast
  tree.update (fun _ => .file bytes) (opened ++ (steps path).getLast?.toList)

/--
Make a directory, with its parents, below a directory. One that exists stays as it is.
-/
def makeDirectory (tree : FileTree) (path : String) : FileTree :=
  (tree.enter [] (steps path)).1

end FileTree

/--
A place in a file system: what is there, and the directories around it, innermost first.
-/
structure Place where
  tree : FileTree
  parents : List FileTree

namespace Place

open FileTree

/--
A place in a directory of which nothing else is known.
-/
def inUnknown (tree : FileTree) : Place :=
  ⟨tree, [.empty]⟩

/--
The directory around all others.
-/
def root (place : Place) : Place :=
  ⟨place.parents.getLastD place.tree, []⟩

/--
Follow one component of a path. The outermost directory is its own parent.
-/
def step (place : Place) (name : String) : Except ReadError Place :=
  match place.tree with
  | .file _ => .error .notDirectory
  | .directory entries =>
    if name = "" || name = "." then
      .ok place
    else if name = ".." then
      match place.parents with
      | [] => .ok place
      | parent :: parents => .ok ⟨parent, parents⟩
    else if name.utf8ByteSize > nameLimit then
      .error .nameTooLong
    else
      match child? name entries with
      | none => .error .notFound
      | some tree => .ok ⟨tree, place.tree :: place.parents⟩

/--
Follow a path, from the place itself or, if it starts with a slash, from the outermost directory.
-/
def follow (place : Place) (path : String) : Except ReadError Place :=
  let start := if path.toList.head? = some '/' then place.root else place
  ((Text.pieces '/' path.toList).map String.ofList).foldlM step start

/--
Read the file at a path. A path without characters leads nowhere.
-/
def read (place : Place) (path : String) : Except ReadError String := do
  if path.toList.contains '\x00' then
    throw .nulByte
  if path = "" then
    throw .notFound
  if path.utf8ByteSize ≥ pathLimit then
    throw .nameTooLong
  match (← place.follow path).tree with
  | .directory _ => throw .isDirectory
  | .file bytes =>
    match String.fromUTF8? bytes with
    | none => throw .invalidUtf8
    | some text => return text

/--
The files below a directory as includable files. A path is taken from that directory, with or
without slashes in front, and a file that does not exist is left to other sources.
-/
def source (place : Place) (directory : String) : IncludeSource where
  read path :=
    let relative := String.ofList (path.toList.dropWhile (· = '/'))
    match place.read (Path.join directory relative) with
    | .ok text => .ok (some text)
    | .error .notFound => .ok none
    | .error e => .error e

end Place
end ShaderBuild
