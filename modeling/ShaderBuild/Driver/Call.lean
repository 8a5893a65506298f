import ShaderBuild.Stage

/-!
This module contains the interface of a driver: the objects that it hands out, the calls that it
takes, and the answers that it gives to them.
-/

namespace ShaderBuild

/--
The name that a driver gives to a stage object. Zero names no object.
-/
structure StageHandle where
  raw : Nat
  raw_pos : 0 < raw
deriving DecidableEq

/--
The name that a driver gives to a program object. Zero names no object.
-/
structure ProgramHandle where
  raw : Nat
  raw_pos : 0 < raw
deriving DecidableEq

namespace StageHandle

def ofRaw? (raw : Nat) : Option StageHandle :=
  if h : 0 < raw then some ⟨raw, h⟩ else none

def text (h : StageHandle) : String :=
  toString h.raw

end StageHandle

namespace ProgramHandle

def ofRaw? (raw : Nat) : Option ProgramHandle :=
  if h : 0 < raw then some ⟨raw, h⟩ else none

def text (h : ProgramHandle) : String :=
  toString h.raw

end ProgramHandle

/--
A call to a driver.
-/
inductive Call
  | createProgram
  | createStage (stage : Stage)
  | setSource (stage : StageHandle) (text : String)
  | compileStage (stage : StageHandle)
  | compileStatus (stage : StageHandle)
  | compileLog (stage : StageHandle)
  | attachStage (program : ProgramHandle) (stage : StageHandle)
  | detachStage (program : ProgramHandle) (stage : StageHandle)
  | deleteStage (stage : StageHandle)
  | linkProgram (program : ProgramHandle)
  | linkStatus (program : ProgramHandle)
  | programLog (program : ProgramHandle)
  | validateProgram (program : ProgramHandle)
  | validateStatus (program : ProgramHandle)
  | deleteProgram (program : ProgramHandle)
deriving DecidableEq

namespace Call

/--
The type of the answers to a call. A creation that is refused gives no handle.
-/
abbrev Answer : Call → Type
  | createProgram => Option ProgramHandle
  | createStage _ => Option StageHandle
  | compileStatus _ | linkStatus _ | validateStatus _ => Bool
  | compileLog _ | programLog _ => String
  | setSource _ _ | compileStage _ | attachStage _ _ | detachStage _ _ | deleteStage _
  | linkProgram _ | validateProgram _ | deleteProgram _ => Unit

end Call

/--
A call together with the answer that was given to it.
-/
structure Event where
  call : Call
  answer : call.Answer

/--
A driver answers every call, with effects in `m`.
-/
abbrev Driver (m : Type → Type) := (call : Call) → m call.Answer

end ShaderBuild
