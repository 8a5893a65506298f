import ShaderBuild.Stage

/-!
This module contains the reading of records, whatever the notation that they are written in. A value
is read from front to back, and the first fault that is met decides how the reading fails.
-/

namespace ShaderBuild

/--
The reasons why a value cannot be read.
-/
inductive DecodeError
  | malformed
  | unknownStage (e : UnknownStage)
deriving DecidableEq

/--
Readers keep count of the references that they have followed.
-/
abbrev Read := StateT Nat (Except DecodeError)

/--
The fields of a record as they are written: under keys, or in the order of their declaration.
-/
inductive Fields (ν : Type)
  | named (entries : List (ν × ν))
  | ordered (values : List ν)

/--
A notation: how each kind of value is read from the terms `ν` that it is written with.
-/
structure Format (ν : Type) where
  text : ν → Read String
  /-- The value, unless it stands for nothing. -/
  present? : ν → Read (Option ν)
  /-- A number that fits a 32 bit word. -/
  word : ν → Read Nat
  items : ν → Read (List ν)
  fields : ν → Read (Fields ν)
  /-- Pass over a value that is not needed. -/
  ignore : ν → Read Unit

/--
A field of a record whose parts, as far as they are known, make up `σ`.
-/
structure Field (ν σ : Type) where
  name : String
  isKnown : σ → Bool
  read : ν → σ → Read σ

namespace Format

variable {ν σ : Type}

/--
Read a text, or nothing.
-/
def optionalText (f : Format ν) (value : ν) : Read (Option String) := do
  match ← f.present? value with
  | none => return none
  | some value => return some (← f.text value)

/--
Read the name of a stage.
-/
def stage (f : Format ν) (value : ν) : Read Stage := do
  match Stage.ofName (← f.text value) with
  | .ok stage => return stage
  | .error e => throw (.unknownStage e)

/--
Read fields under their keys. A field that the record does not have is passed over, and a field of
the record cannot be given twice.
-/
def namedFields (f : Format ν) (fields : List (Field ν σ)) : List (ν × ν) → σ → Read σ
  | [], parts => return parts
  | (key, value) :: rest, parts => do
    let name ← f.text key
    match fields.find? (·.name = name) with
    | none =>
      f.ignore value
      f.namedFields fields rest parts
    | some field =>
      if field.isKnown parts then
        throw .malformed
      else
        f.namedFields fields rest (← field.read value parts)

/--
Read fields in the order of their declaration. The last ones may be left out.
-/
def orderedFields : List (Field ν σ) → List ν → σ → Read σ
  | _, [], parts => return parts
  | [], _ :: _, _ => throw .malformed
  | field :: fields, value :: values, parts => do
    orderedFields fields values (← field.read value parts)

/--
Read the parts of a record, of which those in `blank` are known beforehand.
-/
def parts (f : Format ν) (fields : List (Field ν σ)) (blank : σ) (value : ν) : Read σ := do
  match ← f.fields value with
  | .named entries => f.namedFields fields entries blank
  | .ordered values => orderedFields fields values blank

/--
Read the values of a list.
-/
def list (f : Format ν) (item : ν → Read σ) (value : ν) : Read (List σ) := do
  (← f.items value).mapM item

/--
A part that a record cannot do without.
-/
def need : Option σ → Read σ
  | some part => return part
  | none => throw .malformed

end Format
end ShaderBuild
