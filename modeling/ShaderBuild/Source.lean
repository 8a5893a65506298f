import ShaderBuild.Text.Lines

/-!
This module contains sources as they are handed to a driver, together with the place that each of
their lines was written at.
-/

namespace ShaderBuild

/--
A line of an authored file. The first line has number one.
-/
structure LineOrigin where
  file : String
  /-- A number without a limit. It fits a 32 bit word if the file has fewer than 2 ^ 32 lines. -/
  line : Nat
deriving DecidableEq

namespace LineOrigin

/--
The origin in the form `file:line`.
-/
def text (origin : LineOrigin) : String :=
  s!"{origin.file}:{origin.line}"

end LineOrigin

/--
A text and the origins of its lines, from the first line on.
-/
structure Source where
  contents : String
  origins : List LineOrigin
deriving DecidableEq

namespace Source

/--
A source that is an authored file as it stands.
-/
def identity (file contents : String) : Source where
  contents := contents
  origins := (Text.numberedLines contents).map fun (line, _) => ⟨file, line⟩

/--
The origin of a line, which is counted from one.
-/
def lineOrigin? (source : Source) : Nat → Option LineOrigin
  | 0 => none
  | line + 1 => source.origins[line]?

@[simp]
theorem lineOrigin?_zero (source : Source) : source.lineOrigin? 0 = none := rfl

@[simp]
theorem lineOrigin?_succ (source : Source) (line : Nat) :
    source.lineOrigin? (line + 1) = source.origins[line]? := rfl

@[simp]
theorem identity_origins_length (file contents : String) :
    (identity file contents).origins.length = (Text.lines contents).length := by
  simp [identity]

end Source
end ShaderBuild
