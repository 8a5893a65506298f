import ShaderBuild.Driver.Soft
import ShaderBuild.Proofs.Driver.Trace
import ShaderBuild.Proofs.Table

/-!
This module contains the states that calls lead the software driver to, and what holds of the names
of the objects in all of them.
-/

namespace ShaderBuild

/--
The call asks for a new object.
-/
def Call.isCreation : Call → Bool
  | .createProgram | .createStage _ => true
  | _ => false

namespace SoftDriver

/--
The states that the software driver gets into by calls, with any arguments and in any order.
-/
inductive Reachable (frontEnd : FrontEnd) : SoftDriver → Prop
  | new : Reachable frontEnd new
  | call {d : SoftDriver} (call : Call) :
    Reachable frontEnd d → Reachable frontEnd ((driver frontEnd call).run d).2

theorem Reachable.of_run {frontEnd : FrontEnd} {d d' : SoftDriver} {call : Call}
    {answer : call.Answer} (h : Reachable frontEnd d)
    (hrun : (driver frontEnd call).run d = (answer, d')) : Reachable frontEnd d' := by
  have hcall := h.call call
  rw [hrun] at hcall
  exact hcall

theorem Reachable.replays {frontEnd : FrontEnd} {d d' : SoftDriver} {trace : List Event}
    (h : Reachable frontEnd d) (htrace : Replays (driver frontEnd) d trace d') :
    Reachable frontEnd d' := by
  induction htrace with
  | nil => exact h
  | cons hcall _ ih => exact ih (h.of_run hcall)

/--
The state after calls that are made one after the other.
-/
def after (frontEnd : FrontEnd) (d : SoftDriver) : List Call → SoftDriver
  | [] => d
  | call :: rest => after frontEnd ((driver frontEnd call).run d).2 rest

theorem Reachable.after {frontEnd : FrontEnd} {d : SoftDriver} (h : Reachable frontEnd d)
    (calls : List Call) : Reachable frontEnd (d.after frontEnd calls) := by
  induction calls generalizing d with
  | nil => exact h
  | cons call rest ih => exact ih (h.call call)

/--
Every object has a name that was given out.
-/
structure Named (d : SoftDriver) : Prop where
  stage_le {stage : StageHandle} {o : StageObject} :
    d.stages.get? stage = some o → stage.raw ≤ d.lastName
  program_le {program : ProgramHandle} {o : ProgramObject} :
    d.programs.get? program = some o → program.raw ≤ d.lastName

theorem Named.stage_fresh {d : SoftDriver} (h : d.Named) {stage : StageHandle}
    (hlt : d.lastName < stage.raw) : d.stages.get? stage = none := by
  cases hget : d.stages.get? stage with
  | none => rfl
  | some o =>
    have := h.stage_le hget
    omega

theorem Named.program_fresh {d : SoftDriver} (h : d.Named) {program : ProgramHandle}
    (hlt : d.lastName < program.raw) : d.programs.get? program = none := by
  cases hget : d.programs.get? program with
  | none => rfl
  | some o =>
    have := h.program_le hget
    omega

/--
The second state has no objects and no names that the first has not.
-/
structure NothingNew (d d' : SoftDriver) : Prop where
  lastName_eq : d'.lastName = d.lastName
  stage_gone {stage : StageHandle} :
    d.stages.get? stage = none → d'.stages.get? stage = none
  program_gone {program : ProgramHandle} :
    d.programs.get? program = none → d'.programs.get? program = none

namespace NothingNew

variable {d d' d'' : SoftDriver}

theorem refl (d : SoftDriver) : NothingNew d d where
  lastName_eq := rfl
  stage_gone h := h
  program_gone h := h

theorem trans (h : NothingNew d d') (h' : NothingNew d' d'') : NothingNew d d'' where
  lastName_eq := by rw [h'.lastName_eq, h.lastName_eq]
  stage_gone hget := h'.stage_gone (h.stage_gone hget)
  program_gone hget := h'.program_gone (h.program_gone hget)

theorem named (h : NothingNew d d') (hnamed : d.Named) : d'.Named where
  stage_le {stage o} hget := by
    rw [h.lastName_eq]
    cases hbefore : d.stages.get? stage with
    | none =>
      rw [h.stage_gone hbefore] at hget
      cases hget
    | some _ => exact hnamed.stage_le hbefore
  program_le {program o} hget := by
    rw [h.lastName_eq]
    cases hbefore : d.programs.get? program with
    | none =>
      rw [h.program_gone hbefore] at hget
      cases hget
    | some _ => exact hnamed.program_le hbefore

theorem of_modify_stage (d : SoftDriver) (stage : StageHandle)
    (f : StageObject → StageObject) :
    NothingNew d { d with stages := d.stages.modify stage f } where
  lastName_eq := rfl
  stage_gone hget := Table.get?_modify_eq_none hget _ _
  program_gone hget := hget

theorem of_modify_program (d : SoftDriver) (program : ProgramHandle)
    (f : ProgramObject → ProgramObject) :
    NothingNew d { d with programs := d.programs.modify program f } where
  lastName_eq := rfl
  stage_gone hget := hget
  program_gone hget := Table.get?_modify_eq_none hget _ _

theorem of_erase_stage (d : SoftDriver) (stage : StageHandle) :
    NothingNew d { d with stages := d.stages.erase stage } where
  lastName_eq := rfl
  stage_gone hget := Table.get?_erase_eq_none hget _
  program_gone hget := hget

theorem of_erase_program (d : SoftDriver) (program : ProgramHandle) :
    NothingNew d { d with programs := d.programs.erase program } where
  lastName_eq := rfl
  stage_gone hget := hget
  program_gone hget := Table.get?_erase_eq_none hget _

theorem releaseUnused (d : SoftDriver) (stage : StageHandle) :
    NothingNew d (d.releaseUnused stage) := by
  unfold SoftDriver.releaseUnused
  split
  . apply refl
  . split
    . apply of_erase_stage
    . apply refl

theorem unattach (d : SoftDriver) (stage : StageHandle) : NothingNew d (d.unattach stage) :=
  (of_modify_stage d stage _).trans (releaseUnused _ stage)

theorem unattachAll (stages : List StageHandle) (d : SoftDriver) :
    NothingNew d (stages.foldl SoftDriver.unattach d) := by
  induction stages generalizing d with
  | nil => apply refl
  | cons stage rest ih =>
    rw [List.foldl_cons]
    exact (unattach d stage).trans (ih _)

theorem attachStage (d : SoftDriver) (program : ProgramHandle) (stage : StageHandle) :
    NothingNew d (d.attachStage program stage) := by
  unfold SoftDriver.attachStage
  split
  . split
    . apply refl
    . constructor
      . rfl
      . intro _ hget
        exact Table.get?_modify_eq_none hget _ _
      . intro _ hget
        exact Table.get?_modify_eq_none hget _ _
  . apply refl

theorem detachStage (d : SoftDriver) (program : ProgramHandle) (stage : StageHandle) :
    NothingNew d (d.detachStage program stage) := by
  unfold SoftDriver.detachStage
  split
  . apply refl
  . split
    . exact (of_modify_program d program _).trans (unattach _ stage)
    . apply refl

theorem deleteStage (d : SoftDriver) (stage : StageHandle) :
    NothingNew d (d.deleteStage stage) :=
  (of_modify_stage d stage _).trans (releaseUnused _ stage)

theorem deleteProgram (d : SoftDriver) (program : ProgramHandle) :
    NothingNew d (d.deleteProgram program) := by
  unfold SoftDriver.deleteProgram
  split
  . apply refl
  . exact (of_erase_program d program).trans (unattachAll _ _)

theorem call (d : SoftDriver) (frontEnd : FrontEnd) {call : Call}
    (hcall : call.isCreation = false) : NothingNew d ((driver frontEnd call).run d).2 := by
  cases call with
  | createProgram => cases hcall
  | createStage => cases hcall
  | setSource stage text => exact of_modify_stage d stage _
  | compileStage stage => exact of_modify_stage d stage _
  | attachStage program stage => exact attachStage d program stage
  | detachStage program stage => exact detachStage d program stage
  | deleteStage stage => exact deleteStage d stage
  | linkProgram program => exact of_modify_program d program _
  | validateProgram program => exact of_modify_program d program _
  | deleteProgram program => exact deleteProgram d program
  | _ => exact refl d

end NothingNew

theorem Named.createProgram {d : SoftDriver} (h : d.Named) : d.createProgram.2.Named := by
  unfold SoftDriver.createProgram
  split
  . constructor
    . intro stage o hget
      have := h.stage_le hget
      dsimp
      omega
    . intro program o hget
      dsimp at hget ⊢
      rw [Table.get?_insert] at hget
      split at hget
      . next heq =>
        apply Nat.le_of_eq
        rw [← heq]
      . have := h.program_le hget
        omega
  . exact h

theorem Named.createStage {d : SoftDriver} (h : d.Named) (stage : Stage) :
    (d.createStage stage).2.Named := by
  unfold SoftDriver.createStage
  split
  . constructor
    . intro stage o hget
      dsimp at hget ⊢
      rw [Table.get?_insert] at hget
      split at hget
      . next heq =>
        apply Nat.le_of_eq
        rw [← heq]
      . have := h.stage_le hget
        omega
    . intro program o hget
      have := h.program_le hget
      dsimp
      omega
  . exact h

theorem Named.call {frontEnd : FrontEnd} {d : SoftDriver} (h : d.Named) (call : Call) :
    ((driver frontEnd call).run d).2.Named := by
  cases call with
  | createProgram => exact h.createProgram
  | createStage stage => exact h.createStage stage
  | _ => exact (NothingNew.call d frontEnd rfl).named h

theorem Reachable.named {frontEnd : FrontEnd} {d : SoftDriver} (h : Reachable frontEnd d) :
    d.Named := by
  induction h with
  | new =>
    constructor
    . intro stage o hget
      rw [SoftDriver.new, Table.get?_empty] at hget
      cases hget
    . intro program o hget
      rw [SoftDriver.new, Table.get?_empty] at hget
      cases hget
  | call call _ ih => exact ih.call call

end SoftDriver
end ShaderBuild
