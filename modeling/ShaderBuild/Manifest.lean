import ShaderBuild.Descriptor
import ShaderBuild.Include
import ShaderBuild.Json
import ShaderBuild.Yaml.Document

/-!
This module contains manifests, which list named programs and their stages.
-/

namespace ShaderBuild

/--
A stage of a program in a manifest.
-/
structure StageSpec where
  stage : Stage
  source : String
deriving DecidableEq

/--
A named program in a manifest.
-/
structure ProgramSpec where
  name : String
  description : Option String
  stages : List StageSpec
deriving DecidableEq

/--
A list of named programs.
-/
structure Manifest where
  programs : List ProgramSpec
deriving DecidableEq

/--
The rules that a manifest can break.
-/
inductive ManifestFault
  /-- The program at an index has a blank name. -/
  | emptyName (index : Nat)
  | duplicateProgram (name : String)
  | noStages (name : String)
  | emptySource (name : String) (stage : Stage)
deriving DecidableEq

namespace ManifestFault

def message : ManifestFault → String
  | emptyName index => s!"program {index} has an empty name"
  | duplicateProgram name => s!"program '{name}' is declared more than once"
  | noStages name => s!"program '{name}' declares no stages"
  | emptySource name stage => s!"program '{name}' has a {stage.name} stage without a source"

end ManifestFault

namespace ProgramSpec

/--
The description of a program, with its stages in the order of the manifest.
-/
def descriptor (p : ProgramSpec) : Descriptor :=
  ⟨p.stages.map fun stage => ⟨stage.stage, stage.source⟩⟩

/--
The rule that a program at an index breaks, given the names of the programs before it.
-/
def fault? (earlier : List String) (index : Nat) (p : ProgramSpec) : Option ManifestFault :=
  if Text.isAllBlank p.name then
    some (.emptyName index)
  else if p.name ∈ earlier then
    some (.duplicateProgram p.name)
  else if p.stages.isEmpty then
    some (.noStages p.name)
  else
    (p.stages.find? fun stage => Text.isAllBlank stage.source).map fun stage =>
      .emptySource p.name stage.stage

end ProgramSpec

namespace Manifest

/--
Check programs from first to last, given the names of the programs before them.
-/
def validateFrom (earlier : List String) (index : Nat) : List ProgramSpec →
    Except ManifestFault Unit
  | [] => .ok ()
  | p :: rest =>
    match p.fault? earlier index with
    | some fault => .error fault
    | none => validateFrom (p.name :: earlier) (index + 1) rest

/--
Names are not blank and differ from each other, and every program has stages, all with a source.
-/
def validate (m : Manifest) : Except ManifestFault Unit :=
  validateFrom [] 0 m.programs

/--
What is known of a stage while it is read.
-/
structure StageParts where
  stage : Option Stage
  source : Option String

/--
What is known of a program while it is read.
-/
structure ProgramParts where
  name : Option String
  description : Option (Option String)
  stages : Option (List StageSpec)

variable {ν : Type} (f : Format ν)

/--
Read a stage of a program.
-/
def readStage (value : ν) : Read StageSpec := do
  let parts ← f.parts
    [⟨"type", (·.stage.isSome), fun v parts => return { parts with stage := ← f.stage v }⟩,
      ⟨"source", (·.source.isSome), fun v parts =>
        return { parts with source := ← f.text v }⟩]
    (⟨none, none⟩ : StageParts) value
  return ⟨← Format.need parts.stage, ← Format.need parts.source⟩

/--
Read a program. Its description may be missing.
-/
def readProgram (value : ν) : Read ProgramSpec := do
  let parts ← f.parts
    [⟨"name", (·.name.isSome), fun v parts => return { parts with name := ← f.text v }⟩,
      ⟨"description", (·.description.isSome), fun v parts =>
        return { parts with description := ← f.optionalText v }⟩,
      ⟨"stages", (·.stages.isSome), fun v parts =>
        return { parts with stages := ← f.list (readStage f) v }⟩]
    (⟨none, none, none⟩ : ProgramParts) value
  return ⟨← Format.need parts.name, parts.description.join, ← Format.need parts.stages⟩

/--
Read a manifest.
-/
def read (value : ν) : Read Manifest := do
  let programs ← f.parts
    [⟨"programs", Option.isSome, fun v _ => return some (← f.list (readProgram f) v)⟩]
    (none : Option (List ProgramSpec)) value
  return ⟨← Format.need programs⟩

/--
Read a manifest from a JSON value.
-/
def ofJson (value : JsonValue) : Except DecodeError Manifest := do
  return (← (read JsonValue.format value).run 0).1

/--
Read a manifest from a YAML text.
-/
def ofYaml (text : String) : Except DecodeError Manifest :=
  Yaml.Document.read read text

end Manifest

/--
The reasons why a manifest cannot be used.
-/
inductive ManifestError
  | unreadable (cause : ReadError)
  | undecodable (cause : DecodeError)
  | invalid (fault : ManifestFault)
deriving DecidableEq

namespace ManifestError

def message : ManifestError → String
  | unreadable cause => s!"failed to read manifest: {cause.message}"
  | undecodable (.unknownStage e) => s!"failed to parse manifest: {e.message}"
  | undecodable .malformed => "failed to parse manifest"
  | invalid fault => fault.message

end ManifestError

/--
Read a manifest from what was read of a YAML file.
-/
def Manifest.ofFile (file : Except ReadError String) : Except ManifestError Manifest :=
  match file with
  | .error cause => .error (.unreadable cause)
  | .ok text => (ofYaml text).mapError .undecodable

end ShaderBuild
