import ShaderBuild.Include.FileTree
import ShaderBuild.Template.ConfigFile
import ShaderBuild.Template.Expansion
import ShaderBuild.Tool.Arguments

/-!
This module contains the command that prints a source with its includes expanded.
-/

namespace ShaderBuild
namespace Tool
namespace Expand

/--
The arguments of the command.
-/
structure Settings where
  /-- The directory that the files are below. -/
  root : String
  /-- The source to expand. -/
  name : String
  /-- The configuration file, whose values the others override. -/
  config : Option String
  versionHeader : Option String
  threadCount : Option Nat
  facesPerThread : Option Nat
  /-- Print where each line comes from. -/
  withOrigins : Bool

def commandLine : CommandLine where
  options :=
    [⟨"config", some 'c', true⟩,
      ⟨"version-header", none, true⟩,
      ⟨"thread-count", none, true⟩,
      ⟨"faces-per-thread", none, true⟩,
      ⟨"map", some 'm', false⟩]
  operands := 2

/--
Read the arguments of the command.
-/
def Settings.parse? (arguments : List String) : Option Settings := do
  let a ← commandLine.parse? arguments
  match a.operands with
  | [root, name] =>
    return {
      root := ← path? root
      name := name
      config := ← a.optionWith "config" path?
      versionHeader := a.option? "version-header"
      threadCount := ← a.optionWith "thread-count" number?
      facesPerThread := ← a.optionWith "faces-per-thread" number?
      withOrigins := a.hasFlag "map" }
  | _ => none

/--
The number of bytes of the longest origin.
-/
def originWidth (source : Source) : Nat :=
  (source.origins.map fun origin => origin.text.utf8ByteSize).foldl max 0

/--
A text with spaces after it, up to a number of characters.
-/
def padTo (width : Nat) (text : String) : String :=
  text ++ String.ofList (List.replicate (width - text.length) ' ')

/--
The lines of a source, each behind its origin.
-/
def listing (source : Source) : String :=
  Text.ofLines (((Text.lines source.contents).zip source.origins).map fun (line, origin) =>
    padTo (originWidth source) origin.text ++ " | " ++ line)

/--
The paths that the command reads from.
-/
def Settings.paths (s : Settings) : List String :=
  s.root :: s.config.toList

/--
The configuration that the arguments ask for.
-/
def config? (here : Place) (s : Settings) : Option TemplateConfig := do
  let config ← match s.config with
    | none => some {}
    | some path => (TemplateConfig.ofFile (here.read path)).toOption
  let config : TemplateConfig := {
    versionHeader := s.versionHeader.getD config.versionHeader
    threadCount := s.threadCount.getD config.threadCount
    facesPerThread := s.facesPerThread.getD config.facesPerThread }
  config.validate.toOption
  return config

/--
What the command prints for its arguments.
-/
def print? (here : Place) (s : Settings) : Option String := do
  let template := Template.standard (← config? here s) (here.source s.root)
  let source ← (template.load s.name).toOption
  return if s.withOrigins then listing source else source.contents

/--
Run the command in a directory.
-/
def run (here : Place) (arguments : List String) : Outcome :=
  match Settings.parse? arguments with
  | none => .usage
  | some s =>
    match print? here s with
    | none => .failure
    | some output => ⟨0, output⟩

end Expand
end Tool
end ShaderBuild
