import ShaderBuild.Driver.Call
import ShaderBuild.Table
import ShaderBuild.Text.Blank
import ShaderBuild.Text.Lines

/-!
This module contains the strict driver. It records every call and stops at the first one that a
careful client would not make: a call on an object that does not exist, a second deletion, or a
deletion of what is still in use. Creations, links and validations can be made to fail. Its compiler
only knows `#error` lines.
-/

namespace ShaderBuild

/--
The calls that the strict driver stops at.
-/
inductive Misuse
  /-- A query, or the attachment of a stage, names no object. -/
  | unknownObject
  | deadStage (stage : StageHandle)
  | deadProgram (program : ProgramHandle)
  | attachedUncompiled (stage : StageHandle)
  | attachedTwice (stage : StageHandle)
  | notAttached (program : ProgramHandle) (stage : StageHandle)
  | stageDeletedTwice (stage : StageHandle)
  | stageDeletedWhileAttached (stage : StageHandle)
  | programDeletedTwice (program : ProgramHandle)
  | programDeletedWithStages (program : ProgramHandle)
deriving DecidableEq

namespace Misuse

def message : Misuse → String
  | unknownObject => "no entry found for key"
  | deadStage stage => s!"stage {stage.text} is not alive"
  | deadProgram program => s!"program {program.text} is not alive"
  | attachedUncompiled stage => s!"attaching uncompiled stage {stage.text}"
  | attachedTwice stage => s!"stage {stage.text} attached twice"
  | notAttached program stage => s!"stage {stage.text} is not attached to {program.text}"
  | stageDeletedTwice stage => s!"stage {stage.text} deleted twice"
  | stageDeletedWhileAttached stage => s!"stage {stage.text} deleted while attached"
  | programDeletedTwice program => s!"program {program.text} deleted twice"
  | programDeletedWithStages program => s!"program {program.text} deleted with stages attached"

end Misuse

/--
A stage object of the strict driver.
-/
structure StrictStage where
  source : String
  compiled : Bool
  log : String

/--
A program object of the strict driver.
-/
structure StrictProgram where
  attached : List StageHandle
  linked : Bool
  validated : Bool
  log : String

/--
The state of the strict driver. Stages and programs are named from two counters.
-/
structure StrictDriver where
  lastStage : Nat
  lastProgram : Nat
  stages : Table StageHandle StrictStage
  programs : Table ProgramHandle StrictProgram
  /-- The stages of all stage objects, of those that are deleted too. -/
  stageTypes : Table StageHandle Stage
  /-- The effective calls so far. -/
  events : List Event
  /-- The number of attempts to create a stage. -/
  stageCreations : Nat
  failsProgramCreation : Bool
  /-- The attempt to create a stage that is refused, counted from zero. -/
  failingStageCreation : Option Nat
  linkFailure : Option String
  validationFailure : Option String

namespace StrictDriver

/--
The driver before any call.
-/
def new : StrictDriver where
  lastStage := 0
  lastProgram := 0
  stages := .empty
  programs := .empty
  stageTypes := .empty
  events := []
  stageCreations := 0
  failsProgramCreation := false
  failingStageCreation := none
  linkFailure := none
  validationFailure := none

/--
Refuse to create programs from now on.
-/
def failProgramCreation (d : StrictDriver) : StrictDriver :=
  { d with failsProgramCreation := true }

/--
Refuse one attempt to create a stage, counted from zero.
-/
def failStageCreationAt (d : StrictDriver) (index : Nat) : StrictDriver :=
  { d with failingStageCreation := some index }

/--
Let links fail with a log from now on.
-/
def failLink (d : StrictDriver) (log : String) : StrictDriver :=
  { d with linkFailure := some log }

/--
Let validations fail with a log from now on.
-/
def failValidation (d : StrictDriver) (log : String) : StrictDriver :=
  { d with validationFailure := some log }

/--
Runs of the strict driver. A run that stops at a misuse keeps what it had changed before.
-/
abbrev Run := ExceptT Misuse (StateM StrictDriver)

/--
Put a call on record.
-/
def record (call : Call) (answer : call.Answer) : Run Unit :=
  modify fun d => { d with events := d.events ++ [⟨call, answer⟩] }

/--
The value, or a misuse if there is none.
-/
def require {α : Type} (misuse : Misuse) : Option α → Run α
  | some value => return value
  | none => throw misuse

def createProgram : Run (Option ProgramHandle) := do
  let d ← get
  let program := if d.failsProgramCreation then none else ProgramHandle.ofRaw? (d.lastProgram + 1)
  if let some program := program then
    set { d with
      lastProgram := d.lastProgram + 1
      programs := d.programs.insert program ⟨[], false, false, ""⟩ }
  record .createProgram program
  return program

def createStage (stage : Stage) : Run (Option StageHandle) := do
  let d ← get
  let fails := d.failingStageCreation = some d.stageCreations
  let handle := if fails then none else StageHandle.ofRaw? (d.lastStage + 1)
  modify fun d => { d with stageCreations := d.stageCreations + 1 }
  if let some handle := handle then
    modify fun d => { d with
      lastStage := d.lastStage + 1
      stages := d.stages.insert handle ⟨"", false, ""⟩
      stageTypes := d.stageTypes.insert handle stage }
  record (.createStage stage) handle
  return handle

def setSource (stage : StageHandle) (text : String) : Run Unit := do
  let d ← get
  let o ← require (.deadStage stage) (d.stages.get? stage)
  set { d with stages := d.stages.insert stage { o with source := text } }
  record (.setSource stage text) ()

/--
The errors in a source: each line that starts with `#error`, a space and a message, after white
space, is reported with its number.
-/
def errorLines (source : String) : List String :=
  (Text.numberedLines source).filterMap fun (number, line) =>
    (Text.after? "#error ".toList (Text.trimStart line.toList)).map fun message =>
      s!"0:{number}(1): error: " ++ String.ofList message

def compileStage (stage : StageHandle) : Run Unit := do
  let d ← get
  let o ← require (.deadStage stage) (d.stages.get? stage)
  let errors := errorLines o.source
  let log := if errors.isEmpty then "" else "Shader info log:\n" ++ Text.join "\n" errors
  set { d with
    stages := d.stages.insert stage { o with compiled := errors.isEmpty, log := log } }
  record (.compileStage stage) ()

def compileStatus (stage : StageHandle) : Run Bool := do
  return (← require .unknownObject ((← get).stages.get? stage)).compiled

def compileLog (stage : StageHandle) : Run String := do
  return (← require .unknownObject ((← get).stages.get? stage)).log

def attachStage (program : ProgramHandle) (stage : StageHandle) : Run Unit := do
  let d ← get
  let o ← require .unknownObject (d.stages.get? stage)
  if !o.compiled then
    throw (.attachedUncompiled stage)
  let p ← require (.deadProgram program) (d.programs.get? program)
  if stage ∈ p.attached then
    throw (.attachedTwice stage)
  set { d with
    programs := d.programs.insert program { p with attached := p.attached ++ [stage] } }
  record (.attachStage program stage) ()

def detachStage (program : ProgramHandle) (stage : StageHandle) : Run Unit := do
  let d ← get
  let p ← require (.deadProgram program) (d.programs.get? program)
  if stage ∉ p.attached then
    throw (.notAttached program stage)
  set { d with
    programs := d.programs.insert program { p with attached := p.attached.erase stage } }
  record (.detachStage program stage) ()

/--
Delete a stage. One that is attached is gone nevertheless when the misuse is noticed.
-/
def deleteStage (stage : StageHandle) : Run Unit := do
  let d ← get
  let _ ← require (.stageDeletedTwice stage) (d.stages.get? stage)
  set { d with stages := d.stages.erase stage }
  if d.programs.values.any (stage ∈ ·.attached) then
    throw (.stageDeletedWhileAttached stage)
  record (.deleteStage stage) ()

def linkProgram (program : ProgramHandle) : Run Unit := do
  let d ← get
  let p ← require (.deadProgram program) (d.programs.get? program)
  let linked := d.linkFailure.isNone && !p.attached.isEmpty
  set { d with
    programs := d.programs.insert program
      { p with linked := linked, log := d.linkFailure.getD "" } }
  record (.linkProgram program) ()

def linkStatus (program : ProgramHandle) : Run Bool := do
  return (← require .unknownObject ((← get).programs.get? program)).linked

def programLog (program : ProgramHandle) : Run String := do
  return (← require .unknownObject ((← get).programs.get? program)).log

def validateProgram (program : ProgramHandle) : Run Unit := do
  let d ← get
  let p ← require (.deadProgram program) (d.programs.get? program)
  let validated := p.linked && d.validationFailure.isNone
  set { d with
    programs := d.programs.insert program
      { p with validated := validated, log := d.validationFailure.getD "" } }
  record (.validateProgram program) ()

def validateStatus (program : ProgramHandle) : Run Bool := do
  return (← require .unknownObject ((← get).programs.get? program)).validated

/--
Delete a program. One with stages attached is gone nevertheless when the misuse is noticed.
-/
def deleteProgram (program : ProgramHandle) : Run Unit := do
  let d ← get
  let p ← require (.programDeletedTwice program) (d.programs.get? program)
  set { d with programs := d.programs.erase program }
  if !p.attached.isEmpty then
    throw (.programDeletedWithStages program)
  record (.deleteProgram program) ()

/--
The stage of a stage object, which is known also after its deletion.
-/
def stageType (stage : StageHandle) : Run Stage := do
  require .unknownObject ((← get).stageTypes.get? stage)

/--
The strict driver.
-/
def driver : Driver Run
  | .createProgram => createProgram
  | .createStage stage => createStage stage
  | .setSource stage text => setSource stage text
  | .compileStage stage => compileStage stage
  | .compileStatus stage => compileStatus stage
  | .compileLog stage => compileLog stage
  | .attachStage program stage => attachStage program stage
  | .detachStage program stage => detachStage program stage
  | .deleteStage stage => deleteStage stage
  | .linkProgram program => linkProgram program
  | .linkStatus program => linkStatus program
  | .programLog program => programLog program
  | .validateProgram program => validateProgram program
  | .validateStatus program => validateStatus program
  | .deleteProgram program => deleteProgram program

end StrictDriver
end ShaderBuild
