import ShaderBuild.Driver.Call
import ShaderBuild.Interface

/-!
This module contains the conditions under which stages form a program.
-/

namespace ShaderBuild

/--
The reasons why a program does not link. Each is a line of the program log.
-/
inductive LinkError
  | noStages
  | missingStage (handle : StageHandle)
  | notCompiled (stage : Stage) (handle : StageHandle)
  | duplicateStage (stage : Stage)
  | mixedPipeline
  | missingVertexStage
  | unwrittenInput (location : Nat)
deriving DecidableEq

namespace LinkError

def message : LinkError → String
  | noStages => "error: no shaders attached to the program"
  | missingStage handle => s!"error: shader object {handle.text} does not exist"
  | notCompiled stage handle =>
    s!"error: {stage.name} shader {handle.text} has not been compiled successfully"
  | duplicateStage stage => s!"error: more than one {stage.name} shader attached"
  | mixedPipeline => "error: compute shaders cannot be linked with graphics shaders"
  | missingVertexStage => "error: program lacks a vertex shader"
  | unwrittenInput location =>
    s!"error: fragment shader input at location {location} is not written by the vertex shader"

end LinkError

namespace Link

/--
The first stage of a list that occurs before it in the list or in `seen`.
-/
def firstRepeated? (seen : List Stage) : List Stage → Option Stage
  | [] => none
  | stage :: rest => if stage ∈ seen then some stage else firstRepeated? (stage :: seen) rest

/--
A program has stages, none of them twice. It is a compute shader alone, or it has a vertex shader
and no compute shader.
-/
def checkStages (stages : List Stage) : Except LinkError Unit :=
  if stages.isEmpty then
    .error .noStages
  else
    match firstRepeated? [] stages with
    | some stage => .error (.duplicateStage stage)
    | none =>
      if .compute ∈ stages then
        if stages.length > 1 then .error .mixedPipeline else .ok ()
      else if .vertex ∈ stages then
        .ok ()
      else
        .error .missingVertexStage

/--
The inputs of a fragment shader that the vertex shader does not write, in ascending order.
-/
def unwrittenInputs (vertex fragment : ShaderModule) : List Nat :=
  fragment.inputLocations.filter (· ∉ vertex.outputLocations)

/--
Every input of the fragment shader is written by the vertex shader.
-/
def checkInterface (vertex fragment : ShaderModule) : Except (List LinkError) Unit :=
  match unwrittenInputs vertex fragment with
  | [] => .ok ()
  | location :: rest => .error ((location :: rest).map .unwrittenInput)

end Link
end ShaderBuild
