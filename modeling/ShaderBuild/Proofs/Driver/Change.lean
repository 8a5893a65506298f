import ShaderBuild.Proofs.Driver.Teardown

/-!
This module contains what a call makes of a single object. Whatever an invariant says about every
object, it only has to be shown for these few changes.
-/

namespace ShaderBuild
namespace SoftDriver

variable {d : SoftDriver} {program : ProgramHandle} {stage : StageHandle} {frontEnd : FrontEnd}
variable {call : Call}

/--
What a program object was before a call.
-/
inductive ProgramOrigin (d : SoftDriver) (program : ProgramHandle) (call : Call) :
    ProgramObject → Prop
  | created (hcall : call = .createProgram) (hfresh : d.programs.get? program = none) :
    ProgramOrigin d program call .new
  | kept {o : ProgramObject} (ho : d.programs.get? program = some o) (attached : List StageHandle) :
    ProgramOrigin d program call { o with attached := attached }
  | linked {o : ProgramObject} (hcall : call = .linkProgram program)
    (ho : d.programs.get? program = some o) :
    ProgramOrigin d program call (o.setLinked (d.link o.attached))
  | validated {o : ProgramObject} (hcall : call = .validateProgram program)
    (ho : d.programs.get? program = some o) : ProgramOrigin d program call o.validate

/--
What a stage object was before a call.
-/
inductive StageOrigin (frontEnd : FrontEnd) (d : SoftDriver) (stage : StageHandle) (call : Call) :
    StageObject → Prop
  | created {kind : Stage} (hcall : call = .createStage kind) (hparsable : kind.isParsable = true)
    (hfresh : d.stages.get? stage = none) : StageOrigin frontEnd d stage call (.new kind)
  | kept {s : StageObject} (hs : d.stages.get? stage = some s) (attachments : Nat)
    (deletePending : Bool) :
    StageOrigin frontEnd d stage call
      { s with attachments := attachments, deletePending := deletePending }
  | sourced {s : StageObject} {text : String} (hcall : call = .setSource stage text)
    (hs : d.stages.get? stage = some s) :
    StageOrigin frontEnd d stage call { s with source := text }
  | compiled {s : StageObject} (hcall : call = .compileStage stage)
    (hs : d.stages.get? stage = some s) :
    StageOrigin frontEnd d stage call (s.compile frontEnd)

theorem ProgramOrigin.of_get? {o : ProgramObject} (ho : d.programs.get? program = some o) :
    ProgramOrigin d program call o :=
  .kept ho o.attached

theorem StageOrigin.of_get? {s : StageObject} (hs : d.stages.get? stage = some s) :
    StageOrigin frontEnd d stage call s :=
  .kept hs s.attachments s.deletePending

namespace Consistent

variable {o' : ProgramObject} {s' : StageObject} (h : d.Consistent)

include h

theorem programOrigin_of_isTeardown (hcall : call.isTeardown = true)
    (ho' : ((driver frontEnd call).run d).2.programs.get? program = some o') :
    ProgramOrigin d program call o' := by
  rw [h.call_of_isTeardown frontEnd hcall] at ho'
  rcases h.program_of_tornDown ho' with ⟨o, ho, _, rfl⟩
  exact .kept ho _

theorem stageOrigin_of_isTeardown (hcall : call.isTeardown = true)
    (hs' : ((driver frontEnd call).run d).2.stages.get? stage = some s') :
    StageOrigin frontEnd d stage call s' := by
  rw [h.call_of_isTeardown frontEnd hcall] at hs'
  rcases h.stage_of_tornDown hs' with ⟨s, hs, _, rfl⟩
  exact .kept hs _ _

theorem programOrigin (ho' : ((driver frontEnd call).run d).2.programs.get? program = some o') :
    ProgramOrigin d program call o' := by
  cases call with
  | detachStage | deleteStage | deleteProgram => exact h.programOrigin_of_isTeardown rfl ho'
  | createProgram =>
    change d.createProgram.2.programs.get? program = some o' at ho'
    unfold SoftDriver.createProgram at ho'
    split at ho'
    . rcases Table.get?_insert_eq_some ho' with ⟨rfl, rfl⟩ | ho
      . exact .created rfl (h.program_fresh (Nat.lt_succ_self _))
      . exact .of_get? ho
    . exact .of_get? ho'
  | createStage kind =>
    change (d.createStage kind).2.programs.get? program = some o' at ho'
    unfold SoftDriver.createStage at ho'
    split at ho'
    . exact .of_get? ho'
    . exact .of_get? ho'
  | attachStage other stage =>
    change (d.attachStage other stage).programs.get? program = some o' at ho'
    unfold SoftDriver.attachStage at ho'
    split at ho'
    . split at ho'
      . exact .of_get? ho'
      . rcases Table.get?_modify_eq_some ho' with ⟨o, ho, rfl⟩
        split
        . exact .kept ho _
        . exact .of_get? ho
    . exact .of_get? ho'
  | linkProgram other =>
    rcases Table.get?_modify_eq_some ho' with ⟨o, ho, rfl⟩
    split
    . next heq =>
      subst heq
      exact .linked rfl ho
    . exact .of_get? ho
  | validateProgram other =>
    rcases Table.get?_modify_eq_some ho' with ⟨o, ho, rfl⟩
    split
    . next heq =>
      subst heq
      exact .validated rfl ho
    . exact .of_get? ho
  | _ => exact .of_get? ho'

theorem stageOrigin (hs' : ((driver frontEnd call).run d).2.stages.get? stage = some s') :
    StageOrigin frontEnd d stage call s' := by
  cases call with
  | detachStage | deleteStage | deleteProgram => exact h.stageOrigin_of_isTeardown rfl hs'
  | createProgram =>
    change d.createProgram.2.stages.get? stage = some s' at hs'
    unfold SoftDriver.createProgram at hs'
    split at hs'
    . exact .of_get? hs'
    . exact .of_get? hs'
  | createStage kind =>
    change (d.createStage kind).2.stages.get? stage = some s' at hs'
    unfold SoftDriver.createStage at hs'
    split at hs'
    . next hallowed =>
      rw [Bool.and_eq_true] at hallowed
      rcases Table.get?_insert_eq_some hs' with ⟨rfl, rfl⟩ | hs
      . exact .created rfl hallowed.1 (h.stage_fresh (Nat.lt_succ_self _))
      . exact .of_get? hs
    . exact .of_get? hs'
  | setSource other text =>
    rcases Table.get?_modify_eq_some hs' with ⟨s, hs, rfl⟩
    split
    . next heq =>
      subst heq
      exact .sourced rfl hs
    . exact .of_get? hs
  | compileStage other =>
    rcases Table.get?_modify_eq_some hs' with ⟨s, hs, rfl⟩
    split
    . next heq =>
      subst heq
      exact .compiled rfl hs
    . exact .of_get? hs
  | attachStage program other =>
    change (d.attachStage program other).stages.get? stage = some s' at hs'
    unfold SoftDriver.attachStage at hs'
    split at hs'
    . split at hs'
      . exact .of_get? hs'
      . rcases Table.get?_modify_eq_some hs' with ⟨s, hs, rfl⟩
        split
        . exact .kept hs _ _
        . exact .of_get? hs
    . exact .of_get? hs'
  | _ => exact .of_get? hs'

end Consistent
end SoftDriver
end ShaderBuild
