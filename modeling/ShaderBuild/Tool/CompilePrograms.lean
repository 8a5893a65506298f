import ShaderBuild.Build
import ShaderBuild.Driver.Soft
import ShaderBuild.Include.FileTree
import ShaderBuild.Registry
import ShaderBuild.Template.ConfigFile
import ShaderBuild.Template.Expansion
import ShaderBuild.Tool.Arguments

/-!
This module contains the command that compiles every program of a registry on the software driver
and reports what is wrong with them.
-/

namespace ShaderBuild
namespace Tool
namespace CompilePrograms

/--
The arguments of the command.
-/
structure Settings where
  /-- The directory that the shader files are below. -/
  root : String
  /-- The manifest file. The standard programs are compiled where there is none. -/
  manifest : Option String
  config : Option String
  versionHeader : Option String
  /-- Print the reports as JSON. -/
  asJson : Bool

def commandLine : CommandLine where
  options :=
    [⟨"root", some 'r', true⟩,
      ⟨"manifest", some 'm', true⟩,
      ⟨"config", some 'c', true⟩,
      ⟨"version-header", none, true⟩,
      ⟨"json", none, false⟩]
  operands := 0

/--
Read the arguments of the command.
-/
def Settings.parse? (arguments : List String) : Option Settings := do
  let a ← commandLine.parse? arguments
  return {
    root := ← path? (← a.option? "root")
    manifest := ← a.optionWith "manifest" path?
    config := ← a.optionWith "config" path?
    versionHeader := a.option? "version-header"
    asJson := a.hasFlag "json" }

/--
The outcome of compiling one program.
-/
structure Report where
  name : String
  /-- Nothing, if the program compiles. -/
  error : Option (BuildError TemplateError)
deriving DecidableEq

namespace Report

def succeeds (r : Report) : Bool :=
  r.error.isNone

/--
The report as a JSON object.
-/
def json (r : Report) : JsonValue :=
  let field (name : String) (value : Option String) : List (String × JsonValue) :=
    value.toList.map fun value => (name, .text value)
  .object ([("name", .text r.name), ("success", .boolean r.succeeds)] ++
    field "stage" ((r.error.bind BuildError.stage?).map Stage.name) ++
    field "source" (r.error.bind BuildError.sourceId?) ++
    field "error" (r.error.map (BuildError.message TemplateError.message)))

/--
The lines for a program that does not compile: what fails, and why.
-/
def diagnostics (r : Report) : List String :=
  match r.error with
  | none => []
  | some e =>
    let heading := match e.stage?, e.sourceId? with
      | some stage, some source => s!"{r.name} ({stage.name} stage, {source}):"
      | _, _ => s!"{r.name}:"
    [heading, e.message TemplateError.message]

end Report

/--
Compile one program, and delete it again.
-/
def compile (frontEnd : FrontEnd) (resolve : Resolver TemplateError) (name : String)
    (descriptor : Descriptor) : StateM SoftDriver Report := do
  let driver := SoftDriver.driver frontEnd
  match ← Build.run driver resolve descriptor with
  | .ok program =>
    driver (.deleteProgram program)
    return ⟨name, none⟩
  | .error e => return ⟨name, some e⟩

/--
Compile programs one after the other on one driver.
-/
def compileAll (frontEnd : FrontEnd) (resolve : Resolver TemplateError) :
    List (String × Descriptor) → StateM SoftDriver (List Report)
  | [] => return []
  | (name, descriptor) :: rest => do
    let report ← compile frontEnd resolve name descriptor
    return report :: (← compileAll frontEnd resolve rest)

/--
The reports on the programs of a registry.
-/
def reports (frontEnd : FrontEnd) (resolve : Resolver TemplateError) (registry : Registry) :
    List Report :=
  ((compileAll frontEnd resolve registry.programs.entries).run .new).1

/--
What is printed for reports.
-/
def print (asJson : Bool) (reports : List Report) : String :=
  if asJson then
    (JsonValue.list (reports.map Report.json)).pretty 0 ++ "\n"
  else
    let succeeding := reports.filter Report.succeeds
    Text.ofLines (reports.flatMap Report.diagnostics ++
      [s!"{succeeding.length} of {reports.length} programs compiled"])

/--
The paths that the command reads from.
-/
def Settings.paths (s : Settings) : List String :=
  s.root :: (s.manifest.toList ++ s.config.toList)

/--
The configuration that the arguments ask for.
-/
def config? (here : Place) (s : Settings) : Option TemplateConfig := do
  let config ← match s.config with
    | none => some TemplateConfig.forSoftDriver
    | some path => (TemplateConfig.ofFile (here.read path)).toOption
  match s.versionHeader with
  | none => return config
  | some versionHeader =>
    let config := { config with versionHeader := versionHeader }
    config.validate.toOption
    return config

/--
The programs that the arguments ask for.
-/
def registry? (here : Place) (s : Settings) : Option Registry :=
  match s.manifest with
  | none => some .standard
  | some path => (Registry.ofFile (here.read path)).toOption

/--
Run the command in a directory.
-/
def run (frontEnd : FrontEnd) (here : Place) (arguments : List String) : Outcome :=
  match Settings.parse? arguments with
  | none => .usage
  | some s =>
    match registry? here s, config? here s with
    | some registry, some config =>
      let template := Template.standard config (here.source s.root)
      let reports := reports frontEnd template.load registry
      ⟨if reports.all Report.succeeds then 0 else 1, print s.asJson reports⟩
    | _, _ => .failure

end CompilePrograms
end Tool
end ShaderBuild
