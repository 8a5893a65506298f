import ShaderBuild.Json
import ShaderBuild.Template.Config
import ShaderBuild.Yaml.Document

/-!
This module contains the reading of template configurations. Values that are not given have their
defaults.
-/

namespace ShaderBuild

/--
The reasons why a configuration cannot be used.
-/
inductive ConfigError
  | unreadable (cause : ReadError)
  | undecodable (cause : DecodeError)
  | invalid (fault : ConfigFault)
deriving DecidableEq

namespace ConfigError

def message : ConfigError → String
  | unreadable cause => s!"failed to read template config: {cause.message}"
  | undecodable _ => "failed to parse template config"
  | invalid fault => fault.message

end ConfigError

namespace TemplateConfig

/--
What is known of a configuration while it is read.
-/
structure Parts where
  versionHeader : Option String
  threadCount : Option Nat
  facesPerThread : Option Nat

/--
Read a configuration.
-/
def read {ν : Type} (f : Format ν) (value : ν) : Read TemplateConfig := do
  let parts ← f.parts
    [⟨"version_header", (·.versionHeader.isSome), fun v parts =>
        return { parts with versionHeader := ← f.text v }⟩,
      ⟨"thread_count", (·.threadCount.isSome), fun v parts =>
        return { parts with threadCount := ← f.word v }⟩,
      ⟨"faces_per_thread", (·.facesPerThread.isSome), fun v parts =>
        return { parts with facesPerThread := ← f.word v }⟩]
    (⟨none, none, none⟩ : Parts) value
  let default : TemplateConfig := {}
  return {
    versionHeader := parts.versionHeader.getD default.versionHeader
    threadCount := parts.threadCount.getD default.threadCount
    facesPerThread := parts.facesPerThread.getD default.facesPerThread }

/--
Read a configuration from a JSON value.
-/
def ofJson (value : JsonValue) : Except DecodeError TemplateConfig := do
  return (← (read JsonValue.format value).run 0).1

/--
Read a configuration from a YAML text, and check its values.
-/
def ofYaml (text : String) : Except ConfigError TemplateConfig := do
  let config ← (Yaml.Document.read read text).mapError .undecodable
  config.validate.mapError .invalid
  return config

/--
Read a configuration from what was read of a YAML file, and check its values.
-/
def ofFile (file : Except ReadError String) : Except ConfigError TemplateConfig :=
  match file with
  | .error cause => .error (.unreadable cause)
  | .ok text => ofYaml text

end TemplateConfig
end ShaderBuild
