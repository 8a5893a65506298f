import ShaderBuild.Source
import ShaderBuild.Table

/-!
This module contains fixed collections of sources.
-/

namespace ShaderBuild

/--
A source identifier that a collection does not have.
-/
structure MissingSource where
  sourceId : String
deriving DecidableEq

namespace MissingSource

def message (e : MissingSource) : String :=
  s!"no source named '{e.sourceId}'"

end MissingSource

/--
A collection of sources by identifier.
-/
structure SourceLibrary where
  sources : Table String Source

namespace SourceLibrary

def empty : SourceLibrary := ⟨.empty⟩

/--
Add a source, in place of one that has the same identifier.
-/
def insert (l : SourceLibrary) (sourceId : String) (source : Source) : SourceLibrary :=
  ⟨l.sources.insert sourceId source⟩

/--
Add a text whose lines are their own origins.
-/
def insertText (l : SourceLibrary) (sourceId text : String) : SourceLibrary :=
  l.insert sourceId (.identity sourceId text)

def remove (l : SourceLibrary) (sourceId : String) : SourceLibrary :=
  ⟨l.sources.erase sourceId⟩

def resolve (l : SourceLibrary) (sourceId : String) : Except MissingSource Source :=
  match l.sources.get? sourceId with
  | some source => .ok source
  | none => .error ⟨sourceId⟩

end SourceLibrary
end ShaderBuild
