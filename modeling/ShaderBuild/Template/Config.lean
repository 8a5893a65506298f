import ShaderBuild.Template
import ShaderBuild.Text.Blank

/-!
This module contains the values that the standard template generates snippets from.
-/

namespace ShaderBuild

/--
The values of the generated snippets.
-/
structure TemplateConfig where
  /-- The version directive that sources start with. -/
  versionHeader : String := "#version 430"
  /-- The number of invocations in a compute work group. -/
  threadCount : Nat := 64
  /-- The number of faces that each invocation processes. -/
  facesPerThread : Nat := 1
deriving DecidableEq

/--
The reasons why the values of a configuration are refused.
-/
inductive ConfigFault
  | invalidVersionHeader (header : String)
  | zeroValue (field : String)
deriving DecidableEq

namespace ConfigFault

def message : ConfigFault → String
  | invalidVersionHeader header => s!"version header '{header}' is not a #version directive"
  | zeroValue field => s!"{field} must be greater than zero"

end ConfigFault

namespace TemplateConfig

/--
The configuration for the software driver, whose front end refuses older language versions.
-/
def forSoftDriver : TemplateConfig where
  versionHeader := "#version 450"

/--
The version header is a version directive, and both numbers are positive. The first value that is
not in order is reported.
-/
def validate (c : TemplateConfig) : Except ConfigFault Unit := do
  if (Text.after? "#version".toList (Text.trimStart c.versionHeader.toList)).isNone then
    throw (.invalidVersionHeader c.versionHeader)
  if c.threadCount = 0 then
    throw (.zeroValue "thread_count")
  if c.facesPerThread = 0 then
    throw (.zeroValue "faces_per_thread")

/--
The name of the snippet with the version directive.
-/
def versionHeaderKey : String := "version_header"

/--
The name of the snippet with the compute work group constants.
-/
def threadConfigKey : String := "thread_config"

def versionHeaderSnippet (c : TemplateConfig) : String :=
  String.ofList (Text.trimEnd c.versionHeader.toList ++ ['\n'])

def threadConfigSnippet (c : TemplateConfig) : String :=
  s!"#define THREAD_COUNT {c.threadCount}\n#define FACES_PER_THREAD {c.facesPerThread}\n"

end TemplateConfig

namespace Template

/--
The template that generates the snippets of a configuration and takes all else from `source`.
-/
def standard (config : TemplateConfig) (source : IncludeSource) : Template :=
  (((empty.addSnippet TemplateConfig.versionHeaderKey config.versionHeaderSnippet).addSnippet
    TemplateConfig.threadConfigKey config.threadConfigSnippet).addSource source)

end Template
end ShaderBuild
