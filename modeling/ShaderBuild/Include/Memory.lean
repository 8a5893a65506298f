import ShaderBuild.Include
import ShaderBuild.Path
import ShaderBuild.Table

/-!
This module contains includable files that are held in memory.
-/

namespace ShaderBuild

/--
Files held in memory, by normalized path. A path that has no normal form is kept as it is written.
-/
structure MemoryFiles where
  files : Table String String

namespace MemoryFiles

/--
The path that a file is stored under.
-/
def storedPath (path : String) : String :=
  (Path.normalize? path).getD path

def empty : MemoryFiles := ⟨.empty⟩

/--
Add a file, in place of one that has the same normalized path.
-/
def insert (m : MemoryFiles) (path text : String) : MemoryFiles :=
  ⟨m.files.insert (storedPath path) text⟩

/--
The files of a list, inserted in its order.
-/
def ofList (files : List (String × String)) : MemoryFiles :=
  files.foldl (fun m (path, text) => m.insert path text) empty

/--
Files in memory are looked up by the path exactly as it is asked for.
-/
def source (m : MemoryFiles) : IncludeSource where
  read path := .ok (m.files.get? path)

end MemoryFiles
end ShaderBuild
