import ShaderBuild.Text.Decimal
import ShaderBuild.Text.Pieces

/-!
This module contains the reading of command lines.
-/

namespace ShaderBuild
namespace Tool

/--
An option of a command line. One without a value is a flag.
-/
structure OptionSpec where
  name : String
  letter : Option Char
  takesValue : Bool

/--
The options that a command understands, and the number of other arguments that it takes.
-/
structure CommandLine where
  options : List OptionSpec
  operands : Nat

/--
The arguments of a command: options with their values, those of flags empty, and operands.
-/
structure Arguments where
  options : List (String × String)
  operands : List String

namespace Arguments

/--
The value of an option, if it is given.
-/
def option? (a : Arguments) (name : String) : Option String :=
  a.options.lookup name

def hasFlag (a : Arguments) (name : String) : Bool :=
  (a.option? name).isSome

/--
Note an option, which cannot be given twice.
-/
def addOption (a : Arguments) (name value : String) : Option Arguments :=
  if a.hasFlag name then none else some { a with options := a.options ++ [(name, value)] }

end Arguments

namespace CommandLine

/--
An argument that is an option. A hyphen alone is an operand.
-/
def isOption (argument : String) : Bool :=
  match argument.toList with
  | '-' :: _ :: _ => true
  | _ => false

/--
The name and the value of a long option, whose hyphens are left out. A value follows the first
equals sign.
-/
def splitLong (cs : List Char) : String × Option String :=
  match cs.dropWhile (· ≠ '=') with
  | _ :: value => (String.ofList (cs.takeWhile (· ≠ '=')), some (String.ofList value))
  | [] => (String.ofList cs, none)

/--
Read a group of one letter options, whose hyphen is left out. Flags come first, and the last one may
take the rest of the group as its value, with or without an equals sign. The name of an option that
still waits for its value is given back.
-/
def readLetters (c : CommandLine) (a : Arguments) :
    List Char → Option (Arguments × Option String)
  | [] => some (a, none)
  | letter :: rest =>
    match c.options.find? (·.letter = some letter) with
    | none => none
    | some spec =>
      if spec.takesValue then
        match rest with
        | [] => some (a, some spec.name)
        | '=' :: value => do return (← a.addOption spec.name (String.ofList value), none)
        | value => do return (← a.addOption spec.name (String.ofList value), none)
      else do
        c.readLetters (← a.addOption spec.name "") rest

/--
Read a long option. The name of an option that still waits for its value is given back.
-/
def readLong (c : CommandLine) (a : Arguments) (cs : List Char) :
    Option (Arguments × Option String) := do
  let (name, value?) := splitLong cs
  let spec ← c.options.find? (·.name = name)
  match value?, spec.takesValue with
  | some value, true => return (← a.addOption name value, none)
  | none, true => return (a, some name)
  | none, false => return (← a.addOption name "", none)
  | some _, false => none

/--
Note an operand, if the command takes one more.
-/
def addOperand (c : CommandLine) (a : Arguments) (operand : String) : Option Arguments :=
  if a.operands.length < c.operands then
    some { a with operands := a.operands ++ [operand] }
  else
    none

/--
Read arguments. The option that waits for a value takes the next argument, which must not look like
an option. After two hyphens there are only operands. Nothing is given if an argument is not
understood.
-/
def read (c : CommandLine) (waiting : Option String) (a : Arguments) :
    List String → Option Arguments
  | [] => if waiting.isSome then none else some a
  | argument :: rest =>
    match waiting with
    | some name =>
      if isOption argument then
        none
      else do
        c.read none (← a.addOption name argument) rest
    | none =>
      match argument.toList with
      | ['-', '-'] => rest.foldlM c.addOperand a
      | '-' :: '-' :: cs => do
        let (a, waiting) ← c.readLong a cs
        c.read waiting a rest
      | '-' :: letter :: cs => do
        let (a, waiting) ← c.readLetters a (letter :: cs)
        c.read waiting a rest
      | _ => do
        c.read none (← c.addOperand a argument) rest

/--
Read the arguments of a command. No operand can be missing.
-/
def parse? (c : CommandLine) (arguments : List String) : Option Arguments := do
  let a ← c.read none ⟨[], []⟩ arguments
  if a.operands.length = c.operands then some a else none

end CommandLine

/--
A path on a command line, which is not empty.
-/
def path? (argument : String) : Option String :=
  if argument = "" then none else some argument

/--
A number on a command line, with or without a sign. It has to fit a 32 bit word.
-/
def number? (argument : String) : Option Nat :=
  match argument.toList with
  | '+' :: digits => Text.word? digits
  | '-' :: digits => do
    let n ← Text.word? digits
    if n = 0 then some 0 else none
  | digits => Text.word? digits

/--
Read the value of an option, if it is given. The value must be readable.
-/
def Arguments.optionWith {α : Type} (a : Arguments) (name : String)
    (read : String → Option α) : Option (Option α) :=
  match a.option? name with
  | none => some none
  | some value => (read value).map some

/--
What a command leaves behind: its exit code and what it prints.
-/
structure Outcome where
  exitCode : Nat
  output : String
deriving DecidableEq

namespace Outcome

/--
The outcome for arguments that are not understood.
-/
def usage : Outcome := ⟨2, ""⟩

/--
The outcome of a command that cannot do its work.
-/
def failure : Outcome := ⟨1, ""⟩

end Outcome
end Tool
end ShaderBuild
