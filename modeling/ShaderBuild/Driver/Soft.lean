import ShaderBuild.Driver.Call
import ShaderBuild.FrontEnd
import ShaderBuild.Link
import ShaderBuild.Table
import ShaderBuild.Text.Decimal

/-!
This module contains the software driver. It parses stages with a front end, and links and validates
programs on what the front end makes of them. A stage that is deleted while it is attached is only
marked, and it is freed once it is attached to no program. Calls on objects that do not exist have
no effect.
-/

namespace ShaderBuild

/--
A stage object of the software driver.
-/
structure StageObject where
  stage : Stage
  source : String
  /-- What the last compile made of the source, if it succeeded. -/
  module? : Option ShaderModule
  log : String
  /-- The number of programs that the stage is attached to. -/
  attachments : Nat
  deletePending : Bool

namespace StageObject

/--
A stage object as it is created.
-/
def new (stage : Stage) : StageObject where
  stage := stage
  source := ""
  module? := none
  log := ""
  attachments := 0
  deletePending := false

/--
Parse the source. A failure takes away what an earlier compile gave.
-/
def compile (frontEnd : FrontEnd) (o : StageObject) : StageObject :=
  match frontEnd o.stage o.source with
  | .ok parsed => { o with module? := some parsed, log := "" }
  | .error errors => { o with module? := none, log := ParseError.log o.source errors }

/--
A stage object can be freed once it is deleted and attached to no program.
-/
def isUnused (o : StageObject) : Bool :=
  o.deletePending && o.attachments = 0

end StageObject

/--
A program object of the software driver.
-/
structure ProgramObject where
  /-- The attached stages in the order in which they were attached. -/
  attached : List StageHandle
  /-- The stages of the last link, if it succeeded. -/
  linked : List (Stage × ShaderModule)
  linkStatus : Bool
  validateStatus : Bool
  log : String

namespace ProgramObject

/--
A program object as it is created.
-/
def new : ProgramObject where
  attached := []
  linked := []
  linkStatus := false
  validateStatus := false
  log := ""

/--
Take over the outcome of a link. It has to be validated anew.
-/
def setLinked (o : ProgramObject) : Except (List LinkError) (List (Stage × ShaderModule)) →
    ProgramObject
  | .ok linked =>
    { o with linked := linked, linkStatus := true, validateStatus := false, log := "" }
  | .error errors =>
    { o with
      linked := []
      linkStatus := false
      validateStatus := false
      log := Text.join "\n" (errors.map LinkError.message) }

/--
The objections of the validator to the linked stages, as lines of the program log.
-/
def objections (o : ProgramObject) : List String :=
  o.linked.filterMap fun (stage, linked) =>
    linked.objection.map fun objection =>
      s!"error: {stage.name} shader failed validation: {objection}"

/--
Validate the linked stages.
-/
def validate (o : ProgramObject) : ProgramObject :=
  if o.linkStatus then
    { o with validateStatus := o.objections.isEmpty, log := Text.join "\n" o.objections }
  else
    { o with
      validateStatus := false
      log := "error: program has not been linked successfully" }

end ProgramObject

/--
The state of the software driver. Stages and programs are named from one counter.
-/
structure SoftDriver where
  lastName : Nat
  stages : Table StageHandle StageObject
  programs : Table ProgramHandle ProgramObject

namespace SoftDriver

/--
The driver before any call.
-/
def new : SoftDriver where
  lastName := 0
  stages := .empty
  programs := .empty

/--
Whether a name is left. Names fit a 32 bit word.
-/
def hasName (d : SoftDriver) : Bool :=
  d.lastName + 1 < Text.wordLimit

def createProgram (d : SoftDriver) : Option ProgramHandle × SoftDriver :=
  if d.hasName then
    let program : ProgramHandle := ⟨d.lastName + 1, by omega⟩
    (some program,
      { d with lastName := d.lastName + 1, programs := d.programs.insert program .new })
  else
    (none, d)

/--
Create a stage object, for the stages that the front end can parse.
-/
def createStage (d : SoftDriver) (stage : Stage) : Option StageHandle × SoftDriver :=
  if stage.isParsable && d.hasName then
    let handle : StageHandle := ⟨d.lastName + 1, by omega⟩
    (some handle,
      { d with lastName := d.lastName + 1, stages := d.stages.insert handle (.new stage) })
  else
    (none, d)

def setSource (d : SoftDriver) (stage : StageHandle) (text : String) : SoftDriver :=
  { d with stages := d.stages.modify stage fun o => { o with source := text } }

def compileStage (frontEnd : FrontEnd) (d : SoftDriver) (stage : StageHandle) : SoftDriver :=
  { d with stages := d.stages.modify stage (StageObject.compile frontEnd) }

def compileStatus (d : SoftDriver) (stage : StageHandle) : Bool :=
  match d.stages.get? stage with
  | none => false
  | some o => o.module?.isSome

def compileLog (d : SoftDriver) (stage : StageHandle) : String :=
  match d.stages.get? stage with
  | none => ""
  | some o => o.log

/--
Free a stage object that is deleted and attached to no program.
-/
def releaseUnused (d : SoftDriver) (stage : StageHandle) : SoftDriver :=
  match d.stages.get? stage with
  | none => d
  | some o => if o.isUnused then { d with stages := d.stages.erase stage } else d

/--
Count one attachment of a stage less, and free the stage if it was the last one.
-/
def unattach (d : SoftDriver) (stage : StageHandle) : SoftDriver :=
  releaseUnused
    { d with stages := d.stages.modify stage fun o => { o with attachments := o.attachments - 1 } }
    stage

/--
Attach a stage that is not attached yet.
-/
def attachStage (d : SoftDriver) (program : ProgramHandle) (stage : StageHandle) : SoftDriver :=
  match d.programs.get? program, d.stages.get? stage with
  | some o, some _ =>
    if stage ∈ o.attached then
      d
    else
      { d with
        programs := d.programs.modify program fun o => { o with attached := o.attached ++ [stage] }
        stages := d.stages.modify stage fun o => { o with attachments := o.attachments + 1 } }
  | _, _ => d

def detachStage (d : SoftDriver) (program : ProgramHandle) (stage : StageHandle) : SoftDriver :=
  match d.programs.get? program with
  | none => d
  | some o =>
    if stage ∈ o.attached then
      unattach
        { d with
          programs := d.programs.modify program fun o =>
            { o with attached := o.attached.erase stage } }
        stage
    else
      d

/--
Mark a stage for deletion, and free it if it is attached to no program.
-/
def deleteStage (d : SoftDriver) (stage : StageHandle) : SoftDriver :=
  releaseUnused
    { d with stages := d.stages.modify stage fun o => { o with deletePending := true } } stage

/--
The compiled modules of the given stages in their order.
-/
def compiledStages (d : SoftDriver) :
    List StageHandle → Except LinkError (List (Stage × ShaderModule))
  | [] => .ok []
  | handle :: rest =>
    match d.stages.get? handle with
    | none => .error (.missingStage handle)
    | some o =>
      match o.module? with
      | none => .error (.notCompiled o.stage handle)
      | some compiled => do return (o.stage, compiled) :: (← d.compiledStages rest)

/--
The module of the first stage of a kind.
-/
def moduleOf? (stage : Stage) (stages : List (Stage × ShaderModule)) : Option ShaderModule :=
  (stages.find? fun entry => entry.1 = stage).map Prod.snd

/--
The modules that the given stages link to.
-/
def link (d : SoftDriver) (attached : List StageHandle) :
    Except (List LinkError) (List (Stage × ShaderModule)) := do
  let stages ← (d.compiledStages attached).mapError ([·])
  (Link.checkStages (stages.map Prod.fst)).mapError ([·])
  match moduleOf? .vertex stages, moduleOf? .fragment stages with
  | some vertex, some fragment => Link.checkInterface vertex fragment
  | _, _ => pure ()
  return stages

def linkProgram (d : SoftDriver) (program : ProgramHandle) : SoftDriver :=
  { d with programs := d.programs.modify program fun o => o.setLinked (d.link o.attached) }

def linkStatus (d : SoftDriver) (program : ProgramHandle) : Bool :=
  match d.programs.get? program with
  | none => false
  | some o => o.linkStatus

def programLog (d : SoftDriver) (program : ProgramHandle) : String :=
  match d.programs.get? program with
  | none => ""
  | some o => o.log

def validateProgram (d : SoftDriver) (program : ProgramHandle) : SoftDriver :=
  { d with programs := d.programs.modify program ProgramObject.validate }

def validateStatus (d : SoftDriver) (program : ProgramHandle) : Bool :=
  match d.programs.get? program with
  | none => false
  | some o => o.validateStatus

/--
Delete a program, which detaches its stages.
-/
def deleteProgram (d : SoftDriver) (program : ProgramHandle) : SoftDriver :=
  match d.programs.get? program with
  | none => d
  | some o => o.attached.foldl unattach { d with programs := d.programs.erase program }

/--
The stage of a stage object.
-/
def stageType? (d : SoftDriver) (stage : StageHandle) : Option Stage :=
  (d.stages.get? stage).map StageObject.stage

/--
The module that a stage of a program was linked with.
-/
def linkedModule? (d : SoftDriver) (program : ProgramHandle) (stage : Stage) :
    Option ShaderModule := do
  moduleOf? stage (← d.programs.get? program).linked

/--
The software driver over a front end.
-/
def driver (frontEnd : FrontEnd) : Driver (StateM SoftDriver)
  | .createProgram => createProgram
  | .createStage stage => fun d => d.createStage stage
  | .setSource stage text => modify fun d => d.setSource stage text
  | .compileStage stage => modify fun d => d.compileStage frontEnd stage
  | .compileStatus stage => return (← get).compileStatus stage
  | .compileLog stage => return (← get).compileLog stage
  | .attachStage program stage => modify fun d => d.attachStage program stage
  | .detachStage program stage => modify fun d => d.detachStage program stage
  | .deleteStage stage => modify fun d => d.deleteStage stage
  | .linkProgram program => modify fun d => d.linkProgram program
  | .linkStatus program => return (← get).linkStatus program
  | .programLog program => return (← get).programLog program
  | .validateProgram program => modify fun d => d.validateProgram program
  | .validateStatus program => return (← get).validateStatus program
  | .deleteProgram program => modify fun d => d.deleteProgram program

end SoftDriver
end ShaderBuild
