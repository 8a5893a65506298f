import ShaderBuild.Stage

/-!
This module contains descriptions of the programs to build: which stages they have, and where the
source of each stage comes from.
-/

namespace ShaderBuild

/--
One stage of a program and the identifier of its source.
-/
structure ShaderUnit where
  stage : Stage
  sourceId : String
deriving DecidableEq

/--
The stages of a program in the order in which they are declared. A stage may be declared twice,
which is left for the driver to object to.
-/
structure Descriptor where
  units : List ShaderUnit
deriving DecidableEq

namespace Descriptor

/--
The description of a program without stages.
-/
def empty : Descriptor := ⟨[]⟩

def size (d : Descriptor) : Nat :=
  d.units.length

def isEmpty (d : Descriptor) : Bool :=
  d.units.isEmpty

/--
Declare one more stage.
-/
def push (d : Descriptor) (stage : Stage) (sourceId : String) : Descriptor :=
  ⟨d.units ++ [⟨stage, sourceId⟩]⟩

end Descriptor
end ShaderBuild
