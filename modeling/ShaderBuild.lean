import ShaderBuild.Build
import ShaderBuild.Driver.Soft
import ShaderBuild.Driver.Strict
import ShaderBuild.Include.Memory
import ShaderBuild.Main
import ShaderBuild.Proofs.Build.Isolation
import ShaderBuild.Proofs.Source.Attribution
import ShaderBuild.Source.Library
import ShaderBuild.Proofs.Driver.Consistent
import ShaderBuild.Proofs.Driver.Teardown
import ShaderBuild.Proofs.Driver.Link
import ShaderBuild.Proofs.Driver.Lifetime
import ShaderBuild.Proofs.Driver.Change
import ShaderBuild.Proofs.Driver.Status
import ShaderBuild.Proofs.Build.Check
import ShaderBuild.Proofs.Driver.Names
import ShaderBuild.Proofs.Driver.Snapshot
import ShaderBuild.Proofs.Strict.Calls
import ShaderBuild.Proofs.Strict.Consistent
import ShaderBuild.Proofs.Build.Misuse
import ShaderBuild.Proofs.Lockstep
import ShaderBuild.Proofs.Path
import ShaderBuild.Proofs.Template.Lookup
import ShaderBuild.Proofs.Template.Substitution
import ShaderBuild.Proofs.Template.Reads
import ShaderBuild.Proofs.Manifest
import ShaderBuild.Proofs.Tool.CompilePrograms
import ShaderBuild.Proofs.Template.Once
import ShaderBuild.Proofs.Template.Authored
import ShaderBuild.Proofs.Source.Rewrites
import ShaderBuild.Proofs.Template.Faults
import ShaderBuild.Proofs.Template.Cycle
import ShaderBuild.Proofs.Template.Settles
import ShaderBuild.Proofs.Template.Depth
import ShaderBuild.Proofs.Template.Directive
import ShaderBuild.Proofs.Template.Sources
import ShaderBuild.Proofs.Template.FixedPoint
import ShaderBuild.Proofs.Template.Progress
import ShaderBuild.Proofs.Template.Reentry
import ShaderBuild.Proofs.Template.LineEnds
import ShaderBuild.Proofs.Link.Stages
import ShaderBuild.Proofs.Driver.LinkProgram
import ShaderBuild.Proofs.Manifest.Faults
import ShaderBuild.Proofs.Registry
import ShaderBuild.Proofs.Tool.Expand
import ShaderBuild.Proofs.Path.Cancellation
import ShaderBuild.Proofs.Template.Spellings
