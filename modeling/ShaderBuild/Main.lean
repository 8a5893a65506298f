import ShaderBuild.FrontEndRecord
import ShaderBuild.Tool.CompilePrograms
import ShaderBuild.Tool.Expand

/-!
This module contains the command line: it reads the files that a command asks for, runs the command
on them and prints what it gives. The sources that `compile_programs` compiles are looked up in the
front end record that the environment variable `FRONT_END_RECORD` names.
-/

namespace ShaderBuild
namespace CommandLine

/--
The tree of files at a path.
-/
partial def loadTree (path : String) : IO FileTree := do
  let place ← IO.FS.realPath path
  if ← place.isDir then
    let entries ← (← place.readDir).toList.mapM fun entry => do
      return (entry.fileName, ← loadTree entry.path.toString)
    return .directory entries
  else
    return .file (← IO.FS.readBinFile place)

/--
Put what there is at a path of the file system into a tree of it. Nothing is put where nothing is.
-/
def mount (tree : FileTree) (path : String) : IO FileTree := do
  try
    let place ← IO.FS.realPath path
    let found ← loadTree path
    return tree.update (fun _ => found) (FileTree.steps place.toString)
  catch _ =>
    return tree

/--
The current directory with the files at the given paths.
-/
def currentPlace (paths : List String) : IO Place := do
  let directory := (← IO.currentDir).toString
  let tree ← paths.foldlM mount (FileTree.empty.makeDirectory directory)
  match (Place.mk tree []).follow directory with
  | .ok place => return place
  | .error _ => return .inUnknown .empty

/--
The front end that answers from the record that the environment names.
-/
def environmentFrontEnd : IO FrontEnd := do
  match ← IO.getEnv "FRONT_END_RECORD" with
  | none => return (FrontEndRecord.mk []).frontEnd
  | some path =>
    match FrontEndRecord.ofYaml (← IO.FS.readFile path) with
    | .ok record => return record.frontEnd
    | .error _ => throw (IO.userError s!"{path} is not a front end record")

/--
Run a command with its arguments.
-/
def run : List String → IO Tool.Outcome
  | "expand" :: arguments => do
    let paths := (Tool.Expand.Settings.parse? arguments).elim [] (·.paths)
    return Tool.Expand.run (← currentPlace paths) arguments
  | "compile_programs" :: arguments => do
    let paths := (Tool.CompilePrograms.Settings.parse? arguments).elim [] (·.paths)
    return Tool.CompilePrograms.run (← environmentFrontEnd) (← currentPlace paths) arguments
  | _ => return .usage

end CommandLine
end ShaderBuild

def main (arguments : List String) : IO UInt32 := do
  let outcome ← ShaderBuild.CommandLine.run arguments
  IO.print outcome.output
  return outcome.exitCode.toUInt32
