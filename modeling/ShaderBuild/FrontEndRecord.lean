import ShaderBuild.Tool.Outline
import ShaderBuild.Yaml.Document

/-!
This module contains records of a front end: what it made of given sources. On the command line a
record stands in for the front end where the sources are known beforehand.
-/

namespace ShaderBuild

/--
What a front end made of one source.
-/
structure ShaderRecord where
  stage : Stage
  source : String
  outcome : Except (List ParseError) ShaderModule

/--
What a front end made of some sources.
-/
structure FrontEndRecord where
  shaders : List ShaderRecord

namespace FrontEndRecord

/--
The front end that answers from a record. A source that is not on record is judged by its outline
alone.
-/
def frontEnd (r : FrontEndRecord) : FrontEnd := fun stage source =>
  match r.shaders.find? fun shader => shader.stage = stage && shader.source = source with
  | some shader => shader.outcome
  | none => Tool.Outline.frontEnd stage source

/--
The module of a shader that reads from and writes to the given locations.
-/
def moduleWith (inputs outputs : List Nat) (objection : Option String) : ShaderModule where
  entryPoints :=
    [{ arguments := inputs.map fun n => .mk (some (.location n)) []
       result := some (.mk none (outputs.map fun n => .mk (some (.location n)) [])) }]
  objection := objection

/--
What is known of an error while it is read.
-/
structure ErrorParts where
  start : Nat
  stop : Nat
  text : Option String

/--
What is known of a shader while it is read.
-/
structure ShaderParts where
  stage : Option Stage
  source : Option String
  inputs : Option (List Nat)
  outputs : Option (List Nat)
  objection : Option (Option String)
  errors : Option (List ParseError)

variable {ν : Type} (f : Format ν)

/--
Read an error. Without a range its place is unknown.
-/
def readError (value : ν) : Read ParseError := do
  let parts ← f.parts
    [⟨"start", (·.start ≠ 0), fun v parts => return { parts with start := ← f.word v }⟩,
      ⟨"stop", (·.stop ≠ 0), fun v parts => return { parts with stop := ← f.word v }⟩,
      ⟨"text", (·.text.isSome), fun v parts => return { parts with text := ← f.text v }⟩]
    (⟨0, 0, none⟩ : ErrorParts) value
  return ⟨parts.start, parts.stop, ← Format.need parts.text⟩

/--
Read the record of a shader. It is one of a failure if it has errors.
-/
def readShader (value : ν) : Read ShaderRecord := do
  let parts ← f.parts
    [⟨"stage", (·.stage.isSome), fun v parts => return { parts with stage := ← f.stage v }⟩,
      ⟨"source", (·.source.isSome), fun v parts =>
        return { parts with source := ← f.text v }⟩,
      ⟨"inputs", (·.inputs.isSome), fun v parts =>
        return { parts with inputs := ← f.list f.word v }⟩,
      ⟨"outputs", (·.outputs.isSome), fun v parts =>
        return { parts with outputs := ← f.list f.word v }⟩,
      ⟨"objection", (·.objection.isSome), fun v parts =>
        return { parts with objection := ← f.optionalText v }⟩,
      ⟨"errors", (·.errors.isSome), fun v parts =>
        return { parts with errors := ← f.list (readError f) v }⟩]
    (⟨none, none, none, none, none, none⟩ : ShaderParts) value
  let outcome := match parts.errors with
    | some errors => .error errors
    | none =>
      .ok (moduleWith (parts.inputs.getD []) (parts.outputs.getD []) parts.objection.join)
  return ⟨← Format.need parts.stage, ← Format.need parts.source, outcome⟩

/--
Read a record.
-/
def read (value : ν) : Read FrontEndRecord := do
  let shaders ← f.parts
    [⟨"shaders", Option.isSome, fun v _ => return some (← f.list (readShader f) v)⟩]
    (none : Option (List ShaderRecord)) value
  return ⟨← Format.need shaders⟩

/--
Read a record from a YAML text.
-/
def ofYaml (text : String) : Except DecodeError FrontEndRecord :=
  Yaml.Document.read read text

end FrontEndRecord
end ShaderBuild
