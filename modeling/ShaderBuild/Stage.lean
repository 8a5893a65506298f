import ShaderBuild.Text.Blank

/-!
This module contains the stages of a shader pipeline, their names and their GL enumeration values.
-/

namespace ShaderBuild

/--
A stage of a shader pipeline. The constructors are in pipeline order.
-/
inductive Stage
  | vertex
  | tessControl
  | tessEvaluation
  | geometry
  | fragment
  | compute
deriving DecidableEq

/--
A name or a number that denotes no stage, as it is shown to the user.
-/
structure UnknownStage where
  value : String
deriving DecidableEq

namespace UnknownStage

def message (e : UnknownStage) : String :=
  s!"unknown shader stage type '{e.value}'"

end UnknownStage

namespace Stage

/--
All stages in pipeline order.
-/
def all : List Stage :=
  [.vertex, .tessControl, .tessEvaluation, .geometry, .fragment, .compute]

/--
The name that is printed and written.
-/
def name : Stage → String
  | vertex => "vertex"
  | tessControl => "tess_control"
  | tessEvaluation => "tess_evaluation"
  | geometry => "geometry"
  | fragment => "fragment"
  | compute => "compute"

/--
The file name extension that is accepted in place of the name.
-/
def shortName : Stage → String
  | vertex => "vert"
  | tessControl => "tesc"
  | tessEvaluation => "tese"
  | geometry => "geom"
  | fragment => "frag"
  | compute => "comp"

/--
The value of the stage in the GL enumeration of shader types.
-/
def glEnum : Stage → Nat
  | vertex => 0x8B31
  | tessControl => 0x8E88
  | tessEvaluation => 0x8E87
  | geometry => 0x8DD9
  | fragment => 0x8B30
  | compute => 0x91B9

theorem glEnum_injective {a b : Stage} (h : a.glEnum = b.glEnum) : a = b := by
  cases a <;> cases b <;> simp_all [glEnum]

/--
The stages of the graphics pipeline are all but compute.
-/
def isGraphics (stage : Stage) : Bool :=
  stage ≠ compute

/--
The spelling of a stage name that is compared: no white space around it, ASCII letters in lower
case, and an underscore for each hyphen.
-/
def canonicalSpelling (text : String) : String :=
  String.ofList ((Text.trim text.toList).map fun c => if c = '-' then '_' else c.toLower)

/--
Read a stage from its name or its short name.
-/
def ofName (text : String) : Except UnknownStage Stage :=
  let spelling := canonicalSpelling text
  match all.find? fun stage => stage.name = spelling || stage.shortName = spelling with
  | some stage => .ok stage
  | none => .error ⟨text⟩

/--
A number in upper case hexadecimal with at least four digits.
-/
def hexadecimal (n : Nat) : String :=
  let digits := (Nat.toDigits 16 n).map Char.toUpper
  String.ofList ('0' :: 'x' :: (List.replicate (4 - digits.length) '0' ++ digits))

/--
Read a stage from its value in the GL enumeration.
-/
def ofGlEnum (value : Nat) : Except UnknownStage Stage :=
  match all.find? fun stage => stage.glEnum = value with
  | some stage => .ok stage
  | none => .error ⟨hexadecimal value⟩

end Stage
end ShaderBuild
