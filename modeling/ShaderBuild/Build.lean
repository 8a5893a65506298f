import ShaderBuild.Descriptor
import ShaderBuild.Driver.Call
import ShaderBuild.Source.Remap

/-!
This module contains the building of programs from their descriptions, over any driver. Whatever
goes wrong, the objects that were created on the way are deleted again. Of a program that is built
only the program object stays.
-/

namespace ShaderBuild

/--
The reasons why a program cannot be built. `ε` are the reasons why a source cannot be loaded.
-/
inductive BuildError (ε : Type)
  | programCreation
  | stageCreation (stage : Stage)
  | stageCompile (stage : Stage) (sourceId : String) (log : String)
  | link (log : String)
  | validation (log : String)
  | template (sourceId : String) (cause : ε)
deriving DecidableEq

namespace BuildError

variable {ε : Type}

/--
The text that is shown to the user, given the text of a cause.
-/
def message (describe : ε → String) : BuildError ε → String
  | programCreation => "Unable to create shader program"
  | stageCreation stage => s!"Unable to create shader of type {stage.name}"
  | stageCompile _ _ log => log
  | link log => log
  | validation log => log
  | template _ cause => describe cause

/--
The stage that the error is about.
-/
def stage? : BuildError ε → Option Stage
  | stageCreation stage => some stage
  | stageCompile stage _ _ => some stage
  | _ => none

/--
The source that the error is about.
-/
def sourceId? : BuildError ε → Option String
  | stageCompile _ sourceId _ => some sourceId
  | template sourceId _ => some sourceId
  | _ => none

end BuildError

/--
A resolver gives the source for an identifier.
-/
abbrev Resolver (ε : Type) := String → Except ε Source

namespace Build

variable {m : Type → Type} [Monad m] {ε : Type}

/--
Create, compile and attach one stage. A stage that does not get attached is deleted.
-/
def addStage (driver : Driver m) (resolve : Resolver ε) (program : ProgramHandle)
    (unit : ShaderUnit) : m (Except (BuildError ε) StageHandle) := do
  let some stage ← driver (.createStage unit.stage) | return .error (.stageCreation unit.stage)
  match resolve unit.sourceId with
  | .error cause =>
    driver (.deleteStage stage)
    return .error (.template unit.sourceId cause)
  | .ok source =>
    driver (.setSource stage source.contents)
    driver (.compileStage stage)
    if ← driver (.compileStatus stage) then
      driver (.attachStage program stage)
      return .ok stage
    else
      let log ← driver (.compileLog stage)
      driver (.deleteStage stage)
      return .error (.stageCompile unit.stage unit.sourceId (source.remapLog log))

/--
Add stages up to the first that fails. The attached ones are given back, the latest first, after
those in `attached`.
-/
def addStages (driver : Driver m) (resolve : Resolver ε) (program : ProgramHandle)
    (attached : List StageHandle) :
    List ShaderUnit → m (List StageHandle × Except (BuildError ε) Unit)
  | [] => return (attached, .ok ())
  | unit :: rest => do
    match ← addStage driver resolve program unit with
    | .error e => return (attached, .error e)
    | .ok stage => addStages driver resolve program (stage :: attached) rest

/--
Link a program and validate it.
-/
def finish (driver : Driver m) (program : ProgramHandle) : m (Except (BuildError ε) Unit) := do
  driver (.linkProgram program)
  if !(← driver (.linkStatus program)) then
    return .error (.link (← driver (.programLog program)))
  driver (.validateProgram program)
  if !(← driver (.validateStatus program)) then
    return .error (.validation (← driver (.programLog program)))
  return .ok ()

/--
Detach stages from a program and delete them.
-/
def release (driver : Driver m) (program : ProgramHandle) : List StageHandle → m Unit
  | [] => return ()
  | stage :: rest => do
    driver (.detachStage program stage)
    driver (.deleteStage stage)
    release driver program rest

/--
Build a program: compile and attach its stages in the order of their declaration, then link and
validate it.
-/
def run (driver : Driver m) (resolve : Resolver ε) (descriptor : Descriptor) :
    m (Except (BuildError ε) ProgramHandle) := do
  let some program ← driver .createProgram | return .error .programCreation
  let (attached, added) ← addStages driver resolve program [] descriptor.units
  let outcome ← match added with
    | .error e => pure (.error e)
    | .ok () => finish driver program
  release driver program attached
  match outcome with
  | .ok () => return .ok program
  | .error e =>
    driver (.deleteProgram program)
    return .error e

end Build
end ShaderBuild
