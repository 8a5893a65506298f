import ShaderBuild.Manifest
import ShaderBuild.Table

/-!
This module contains registries of named programs, and the programs that are always there.
-/

namespace ShaderBuild

/--
How the compute program partitions its work across invocations.
-/
inductive WorkPartitioning
  /-- Each invocation processes a contiguous range of faces. -/
  | ordered
  /-- Invocations pick work in no particular order. -/
  | unordered
deriving DecidableEq

namespace WorkPartitioning

/--
The partitioning where none is chosen.
-/
def standard : WorkPartitioning := .ordered

/--
The name of the compute program with that partitioning.
-/
def programName : WorkPartitioning → String
  | ordered => "compute"
  | unordered => "compute_unordered"

end WorkPartitioning

/--
The programs that an application always has.
-/
structure Presets where
  render : Descriptor
  compute : Descriptor
  unorderedCompute : Descriptor
deriving DecidableEq

namespace Presets

/--
The source of the vertex stage.
-/
def vertexSource : String := "/gpu/vert.glsl"

/--
The source of the fragment stage.
-/
def fragmentSource : String := "/gpu/frag.glsl"

/--
The source of the compute stage with ordered partitioning.
-/
def computeSource : String := "/gpu/comp.glsl"

/--
The source of the compute stage with unordered partitioning.
-/
def unorderedComputeSource : String := "/gpu/comp_unordered.glsl"

def standard : Presets where
  render := (Descriptor.empty.push .vertex vertexSource).push .fragment fragmentSource
  compute := Descriptor.empty.push .compute computeSource
  unorderedCompute := Descriptor.empty.push .compute unorderedComputeSource

/--
The compute program with a partitioning.
-/
def computeFor (p : Presets) : WorkPartitioning → Descriptor
  | .ordered => p.compute
  | .unordered => p.unorderedCompute

end Presets

/--
Named programs in the order of their first insertion.
-/
structure Registry where
  programs : Table String Descriptor
deriving DecidableEq

namespace Registry

def empty : Registry := ⟨.empty⟩

def get? (r : Registry) (name : String) : Option Descriptor :=
  r.programs.get? name

/--
Insert a program, or replace the one of that name at its place. The replaced one is given back.
-/
def insert (r : Registry) (name : String) (descriptor : Descriptor) :
    Option Descriptor × Registry :=
  let (replaced, programs) := r.programs.exchange name descriptor
  (replaced, ⟨programs⟩)

def names (r : Registry) : List String :=
  r.programs.keys

def size (r : Registry) : Nat :=
  r.programs.size

/--
Insert programs from first to last.
-/
def insertAll (r : Registry) (programs : List (String × Descriptor)) : Registry :=
  programs.foldl (fun r (name, descriptor) => (r.insert name descriptor).2) r

/--
The registry of the presets.
-/
def ofPresets (p : Presets) : Registry :=
  empty.insertAll
    [("render", p.render),
      (WorkPartitioning.ordered.programName, p.compute),
      (WorkPartitioning.unordered.programName, p.unorderedCompute)]

/--
The registry of the standard presets.
-/
def standard : Registry :=
  ofPresets .standard

/--
The programs of a manifest that keeps the rules.
-/
def ofManifest (m : Manifest) : Except ManifestFault Registry := do
  m.validate
  return empty.insertAll (m.programs.map fun p => (p.name, p.descriptor))

/--
The programs of a manifest in YAML.
-/
def ofYaml (text : String) : Except ManifestError Registry := do
  (ofManifest (← (Manifest.ofYaml text).mapError .undecodable)).mapError .invalid

/--
The programs of a manifest from what was read of a YAML file.
-/
def ofFile (file : Except ReadError String) : Except ManifestError Registry := do
  (ofManifest (← Manifest.ofFile file)).mapError .invalid

end Registry
end ShaderBuild
