import ShaderBuild.Proofs.Driver.Reachable
import ShaderBuild.Proofs.Table

/-!
This module contains what the calls to the software driver do with objects under fresh names: every
call works on the object alone, and deleting it brings back the state before its creation.
-/

namespace ShaderBuild

namespace ProgramObject

@[simp]
theorem setLinked_attached (o : ProgramObject)
    (outcome : Except (List LinkError) (List (Stage × ShaderModule))) :
    (o.setLinked outcome).attached = o.attached := by
  cases outcome with
  | error errors => rfl
  | ok linked => rfl

@[simp]
theorem validate_attached (o : ProgramObject) : o.validate.attached = o.attached := by
  unfold validate
  split
  . rfl
  . rfl

theorem setLinked_of_linkStatus {o : ProgramObject}
    {outcome : Except (List LinkError) (List (Stage × ShaderModule))}
    (h : (o.setLinked outcome).linkStatus = true) :
    ∃ linked, outcome = .ok linked ∧
      o.setLinked outcome = ⟨o.attached, linked, true, false, ""⟩ := by
  cases outcome with
  | error errors => cases h
  | ok linked => exact ⟨linked, rfl, rfl⟩

theorem validate_of_validateStatus {o : ProgramObject} (h : o.validate.validateStatus = true) :
    o.linkStatus = true ∧ o.validate = ⟨o.attached, o.linked, true, true, ""⟩ := by
  unfold validate at h ⊢
  split at h
  . next hlinked =>
    rw [if_pos hlinked]
    dsimp at h ⊢
    rw [List.isEmpty_iff] at h
    rw [h, hlinked]
    exact ⟨rfl, rfl⟩
  . cases h

end ProgramObject

namespace SoftDriver

variable {d d' : SoftDriver}

/--
The state with one more stage object.
-/
def withStage (d : SoftDriver) (stage : StageHandle) (o : StageObject) : SoftDriver :=
  { d with stages := d.stages.insert stage o }

/--
The state with one more program object.
-/
def withProgram (d : SoftDriver) (program : ProgramHandle) (o : ProgramObject) : SoftDriver :=
  { d with programs := d.programs.insert program o }

theorem createProgram_eq_none (h : d.createProgram = (none, d')) : d' = d := by
  unfold createProgram at h
  split at h
  . cases h
  . cases h
    rfl

theorem createProgram_ne_none (hname : d.lastName + 1 < Text.wordLimit) :
    d.createProgram ≠ (none, d') := by
  unfold createProgram hasName
  rw [if_pos (decide_eq_true hname)]
  simp

theorem createProgram_eq_some {program : ProgramHandle}
    (h : d.createProgram = (some program, d')) :
    program.raw = d.lastName + 1 ∧
      d' = { d with lastName := d.lastName + 1 }.withProgram program .new := by
  unfold createProgram at h
  split at h
  . cases h
    exact ⟨rfl, rfl⟩
  . cases h

theorem createStage_eq_none {stage : Stage} (h : d.createStage stage = (none, d')) : d' = d := by
  unfold createStage at h
  split at h
  . cases h
  . cases h
    rfl

theorem createStage_eq_some {stage : Stage} {handle : StageHandle}
    (h : d.createStage stage = (some handle, d')) :
    handle.raw = d.lastName + 1 ∧
      d' = { d with lastName := d.lastName + 1 }.withStage handle (.new stage) := by
  unfold createStage at h
  split at h
  . cases h
    exact ⟨rfl, rfl⟩
  . cases h

theorem isParsable_of_createStage {stage : Stage} {handle : StageHandle}
    (h : d.createStage stage = (some handle, d')) : stage.isParsable = true := by
  unfold createStage at h
  split at h
  . next hallowed =>
    rw [Bool.and_eq_true] at hallowed
    exact hallowed.1
  . cases h

theorem isParsable_of_refused {stage : Stage} (hname : d.lastName + 1 < Text.wordLimit)
    (h : d.createStage stage = (none, d')) : stage.isParsable = false := by
  unfold createStage hasName at h
  split at h
  . cases h
  . next hrefused => simpa [hname] using hrefused

theorem Named.createStage_fresh (hnamed : d.Named) {stage : Stage} {handle : StageHandle}
    (h : d.createStage stage = (some handle, d')) :
    ∃ d₀ : SoftDriver, d₀.stages.get? handle = none ∧ d' = d₀.withStage handle (.new stage) := by
  rcases createStage_eq_some h with ⟨hraw, hstate⟩
  refine ⟨_, ?_, hstate⟩
  apply hnamed.stage_fresh
  omega

section Stage

variable {stage : StageHandle} (hfresh : d.stages.get? stage = none) (o : StageObject)

include hfresh

theorem modify_withStage (f : StageObject → StageObject) :
    { d.withStage stage o with stages := (d.withStage stage o).stages.modify stage f }
      =
    d.withStage stage (f o) := by
  unfold withStage
  rw [Table.modify_insert hfresh]

theorem setSource_withStage (text : String) :
    (d.withStage stage o).setSource stage text = d.withStage stage { o with source := text } :=
  modify_withStage hfresh o _

theorem compileStage_withStage (frontEnd : FrontEnd) :
    (d.withStage stage o).compileStage frontEnd stage = d.withStage stage (o.compile frontEnd) :=
  modify_withStage hfresh o _

theorem releaseUnused_withStage :
    (d.withStage stage o).releaseUnused stage = if o.isUnused then d else d.withStage stage o := by
  unfold releaseUnused withStage
  rw [Table.get?_insert_self]
  dsimp
  rw [Table.erase_insert hfresh]

theorem unattach_withStage (hpending : o.deletePending = false) :
    (d.withStage stage o).unattach stage
      =
    d.withStage stage { o with attachments := o.attachments - 1 } := by
  unfold unattach
  rw [modify_withStage hfresh, releaseUnused_withStage hfresh]
  simp [StageObject.isUnused, hpending]

theorem deleteStage_withStage (hunattached : o.attachments = 0) :
    (d.withStage stage o).deleteStage stage = d := by
  unfold deleteStage
  rw [modify_withStage hfresh, releaseUnused_withStage hfresh]
  simp [StageObject.isUnused, hunattached]

end Stage

theorem compileStatus_withStage (stage : StageHandle) (o : StageObject) :
    (d.withStage stage o).compileStatus stage = o.module?.isSome := by
  unfold compileStatus withStage
  rw [Table.get?_insert_self]

theorem compileLog_withStage (stage : StageHandle) (o : StageObject) :
    (d.withStage stage o).compileLog stage = o.log := by
  unfold compileLog withStage
  rw [Table.get?_insert_self]

section Compile

variable {stage : StageHandle} {kind : Stage} {contents : String} {frontEnd : FrontEnd}
variable (hfresh : d.stages.get? stage = none)

include hfresh

theorem accepted_withStage
    (hstatus : (((d.withStage stage (.new kind)).setSource stage contents).compileStage frontEnd
      stage).compileStatus stage = true) :
    ∃ parsed, frontEnd kind contents = .ok parsed ∧
      ((d.withStage stage (.new kind)).setSource stage contents).compileStage frontEnd stage
        =
      d.withStage stage ⟨kind, contents, some parsed, "", 0, false⟩ := by
  rw [setSource_withStage hfresh, compileStage_withStage hfresh] at hstatus ⊢
  rw [compileStatus_withStage] at hstatus
  unfold StageObject.compile StageObject.new at hstatus ⊢
  dsimp at hstatus ⊢
  cases hparse : frontEnd kind contents with
  | ok parsed => exact ⟨parsed, rfl, rfl⟩
  | error errors =>
    rw [hparse] at hstatus
    cases hstatus

theorem rejected_withStage
    (hstatus : (((d.withStage stage (.new kind)).setSource stage contents).compileStage frontEnd
      stage).compileStatus stage = false) :
    ∃ errors, frontEnd kind contents = .error errors ∧
      ((d.withStage stage (.new kind)).setSource stage contents).compileStage frontEnd stage
        =
      d.withStage stage ⟨kind, contents, none, ParseError.log contents errors, 0, false⟩ := by
  rw [setSource_withStage hfresh, compileStage_withStage hfresh] at hstatus ⊢
  rw [compileStatus_withStage] at hstatus
  unfold StageObject.compile StageObject.new at hstatus ⊢
  dsimp at hstatus ⊢
  cases hparse : frontEnd kind contents with
  | ok parsed =>
    rw [hparse] at hstatus
    cases hstatus
  | error errors => exact ⟨errors, rfl, rfl⟩

end Compile

theorem linkStatus_withProgram (program : ProgramHandle) (o : ProgramObject) :
    (d.withProgram program o).linkStatus program = o.linkStatus := by
  unfold linkStatus withProgram
  rw [Table.get?_insert_self]

theorem programLog_withProgram (program : ProgramHandle) (o : ProgramObject) :
    (d.withProgram program o).programLog program = o.log := by
  unfold programLog withProgram
  rw [Table.get?_insert_self]

theorem validateStatus_withProgram (program : ProgramHandle) (o : ProgramObject) :
    (d.withProgram program o).validateStatus program = o.validateStatus := by
  unfold validateStatus withProgram
  rw [Table.get?_insert_self]

theorem compiledStages_withProgram (program : ProgramHandle) (o : ProgramObject)
    (stages : List StageHandle) :
    (d.withProgram program o).compiledStages stages = d.compiledStages stages := by
  induction stages with
  | nil => rfl
  | cons stage rest ih =>
    unfold compiledStages
    rw [ih]
    rfl

theorem link_withProgram (program : ProgramHandle) (o : ProgramObject)
    (stages : List StageHandle) : (d.withProgram program o).link stages = d.link stages := by
  unfold link
  rw [compiledStages_withProgram]

section Program

variable {program : ProgramHandle} (hfresh : d.programs.get? program = none) (o : ProgramObject)

include hfresh

theorem modify_withProgram (f : ProgramObject → ProgramObject) :
    { d.withProgram program o with
      programs := (d.withProgram program o).programs.modify program f }
      =
    d.withProgram program (f o) := by
  unfold withProgram
  rw [Table.modify_insert hfresh]

theorem linkProgram_withProgram :
    (d.withProgram program o).linkProgram program
      =
    d.withProgram program (o.setLinked (d.link o.attached)) := by
  rw [← link_withProgram]
  exact modify_withProgram hfresh o _

theorem validateProgram_withProgram :
    (d.withProgram program o).validateProgram program = d.withProgram program o.validate :=
  modify_withProgram hfresh o _

theorem deleteProgram_withProgram (hattached : o.attached = []) :
    (d.withProgram program o).deleteProgram program = d := by
  unfold deleteProgram withProgram
  rw [Table.get?_insert_self]
  dsimp
  rw [Table.erase_insert hfresh, hattached]
  rfl

end Program

section Attachment

variable {program : ProgramHandle} {stage : StageHandle}
variable (hprogram : d.programs.get? program = none) (hstage : d.stages.get? stage = none)
variable (o : ProgramObject) (s : StageObject)

include hprogram hstage

theorem attachStage_withStage (hattached : stage ∉ o.attached) :
    ((d.withProgram program o).withStage stage s).attachStage program stage
      =
    (d.withProgram program { o with attached := o.attached ++ [stage] }).withStage stage
      { s with attachments := s.attachments + 1 } := by
  unfold attachStage withStage withProgram
  rw [Table.get?_insert_self, Table.get?_insert_self]
  dsimp
  rw [if_neg hattached, Table.modify_insert hprogram, Table.modify_insert hstage]

theorem detachStage_withStage (hattached : stage ∈ o.attached)
    (hpending : s.deletePending = false) :
    ((d.withProgram program o).withStage stage s).detachStage program stage
      =
    (d.withProgram program { o with attached := o.attached.erase stage }).withStage stage
      { s with attachments := s.attachments - 1 } := by
  unfold detachStage
  have hget : ((d.withProgram program o).withStage stage s).programs.get? program = some o := by
    apply Table.get?_insert_self
  rw [hget]
  dsimp
  rw [if_pos hattached]
  unfold withStage withProgram
  dsimp
  rw [Table.modify_insert hprogram]
  apply unattach_withStage (d := d.withProgram program _) hstage s hpending

end Attachment

end SoftDriver
end ShaderBuild
