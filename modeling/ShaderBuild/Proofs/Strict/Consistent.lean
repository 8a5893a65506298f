import ShaderBuild.Proofs.Driver.Consistent
import ShaderBuild.Proofs.Strict.Calls

/-!
This module contains the states of the strict driver that can be reached without a misuse, and what
holds of the objects in all of them.
-/

namespace ShaderBuild
namespace StrictDriver

/--
The states that the strict driver gets into by calls that are no misuse, and by being made to fail.
-/
inductive Reachable : StrictDriver → Prop
  | new : Reachable new
  | call {d d' : StrictDriver} {call : Call} {answer : call.Answer} :
    Reachable d → Completes (driver call) d answer d' → Reachable d'
  | failProgramCreation {d : StrictDriver} : Reachable d → Reachable d.failProgramCreation
  | failStageCreationAt {d : StrictDriver} (index : Nat) :
    Reachable d → Reachable (d.failStageCreationAt index)
  | failLink {d : StrictDriver} (log : String) : Reachable d → Reachable (d.failLink log)
  | failValidation {d : StrictDriver} (log : String) :
    Reachable d → Reachable (d.failValidation log)

/--
Every object has a name that was given out, and programs have only stages attached that exist.
-/
structure Consistent (d : StrictDriver) : Prop where
  stage_le {stage : StageHandle} : stage ∈ d.stages.keys → stage.raw ≤ d.lastStage
  program_le {program : ProgramHandle} : program ∈ d.programs.keys → program.raw ≤ d.lastProgram
  attached_live {p : StrictProgram} {stage : StageHandle} :
    p ∈ d.programs.values → stage ∈ p.attached → stage ∈ d.stages.keys

variable {d d' : StrictDriver} {program : ProgramHandle} {stage : StageHandle}
variable {o : StrictStage} {p : StrictProgram}

namespace Consistent

theorem stage_fresh (h : d.Consistent) (hlt : d.lastStage < stage.raw) :
    d.stages.get? stage = none := by
  rw [Table.get?_eq_none_iff_notMem_keys]
  intro hmem
  have := h.stage_le hmem
  omega

theorem program_fresh (h : d.Consistent) (hlt : d.lastProgram < program.raw) :
    d.programs.get? program = none := by
  rw [Table.get?_eq_none_iff_notMem_keys]
  intro hmem
  have := h.program_le hmem
  omega

theorem notMem_attached (h : d.Consistent) (hfresh : d.stages.get? stage = none) :
    ∀ p ∈ d.programs.values, stage ∉ p.attached := by
  intro p hp hattached
  rw [Table.get?_eq_none_iff_notMem_keys] at hfresh
  exact hfresh (h.attached_live hp hattached)

end Consistent

/--
The second state has the objects of the first, with the same stages attached to the programs, and
creations fail in it as they do in the first.
-/
structure SameShape (d d' : StrictDriver) : Prop where
  lastStage_eq : d'.lastStage = d.lastStage
  lastProgram_eq : d'.lastProgram = d.lastProgram
  failsProgramCreation_eq : d'.failsProgramCreation = d.failsProgramCreation
  failingStageCreation_eq : d'.failingStageCreation = d.failingStageCreation
  keys_stages : d'.stages.keys = d.stages.keys
  keys_programs : d'.programs.keys = d.programs.keys
  program_of_mem {p' : StrictProgram} : p' ∈ d'.programs.values →
    ∃ p ∈ d.programs.values, p'.attached = p.attached
  program_of_get? {program : ProgramHandle} {p' : StrictProgram} :
    d'.programs.get? program = some p' →
      ∃ p, d.programs.get? program = some p ∧ p'.attached = p.attached

namespace SameShape

theorem refl (d : StrictDriver) : SameShape d d where
  lastStage_eq := rfl
  lastProgram_eq := rfl
  failsProgramCreation_eq := rfl
  failingStageCreation_eq := rfl
  keys_stages := rfl
  keys_programs := rfl
  program_of_mem hp := ⟨_, hp, rfl⟩
  program_of_get? hp := ⟨_, hp, rfl⟩

theorem withStage (ho : d.stages.get? stage = some o) (o' : StrictStage) (event : Event) :
    SameShape d ((d.withStage stage o').recorded event) where
  lastStage_eq := rfl
  lastProgram_eq := rfl
  failsProgramCreation_eq := rfl
  failingStageCreation_eq := rfl
  keys_stages := Table.keys_insert_of_mem (Table.mem_keys_of_get? ho) _
  keys_programs := rfl
  program_of_mem hp := ⟨_, hp, rfl⟩
  program_of_get? hp := ⟨_, hp, rfl⟩

theorem withProgram (hp : d.programs.get? program = some p) {p' : StrictProgram}
    (hattached : p'.attached = p.attached) (event : Event) :
    SameShape d ((d.withProgram program p').recorded event) where
  lastStage_eq := rfl
  lastProgram_eq := rfl
  failsProgramCreation_eq := rfl
  failingStageCreation_eq := rfl
  keys_stages := rfl
  keys_programs := Table.keys_insert_of_mem (Table.mem_keys_of_get? hp) _
  program_of_mem {p₁} hp₁ := by
    rcases Table.mem_values_insert hp₁ with rfl | hp₁
    . exact ⟨p, Table.mem_values_of_get? hp, hattached⟩
    . exact ⟨p₁, hp₁, rfl⟩
  program_of_get? {other p₁} hp₁ := by
    rcases Table.get?_insert_eq_some hp₁ with ⟨rfl, rfl⟩ | hp₁
    . exact ⟨p, hp, hattached⟩
    . exact ⟨p₁, hp₁, rfl⟩

theorem call {call : Call} {answer : call.Answer} (hcall : call.keepsShape = true)
    (h : Completes (driver call) d answer d') : SameShape d d' := by
  cases call with
  | setSource stage text =>
    rcases completes_setSource_iff.mp h with ⟨o, ho, rfl⟩
    exact withStage ho _ _
  | compileStage stage =>
    rcases completes_compileStage_iff.mp h with ⟨o, ho, rfl⟩
    exact withStage ho _ _
  | compileStatus stage =>
    rcases completes_compileStatus_iff.mp h with ⟨_, _, _, rfl⟩
    exact refl d
  | compileLog stage =>
    rcases completes_compileLog_iff.mp h with ⟨_, _, _, rfl⟩
    exact refl d
  | linkProgram program =>
    rcases completes_linkProgram_iff.mp h with ⟨p, hp, rfl⟩
    apply withProgram hp
    rfl
  | linkStatus program =>
    rcases completes_linkStatus_iff.mp h with ⟨_, _, _, rfl⟩
    exact refl d
  | programLog program =>
    rcases completes_programLog_iff.mp h with ⟨_, _, _, rfl⟩
    exact refl d
  | validateProgram program =>
    rcases completes_validateProgram_iff.mp h with ⟨p, hp, rfl⟩
    apply withProgram hp
    rfl
  | validateStatus program =>
    rcases completes_validateStatus_iff.mp h with ⟨_, _, _, rfl⟩
    exact refl d
  | _ => cases hcall

theorem consistent (hshape : SameShape d d') (h : d.Consistent) : d'.Consistent where
  stage_le hmem := by
    rw [hshape.keys_stages] at hmem
    rw [hshape.lastStage_eq]
    exact h.stage_le hmem
  program_le hmem := by
    rw [hshape.keys_programs] at hmem
    rw [hshape.lastProgram_eq]
    exact h.program_le hmem
  attached_live hp hattached := by
    rcases hshape.program_of_mem hp with ⟨p, hp, heq⟩
    rw [heq] at hattached
    rw [hshape.keys_stages]
    exact h.attached_live hp hattached

end SameShape

namespace Consistent

theorem withNewProgram (h : d.Consistent) (hraw : program.raw = d.lastProgram + 1)
    (event : Event) : ((d.withNewProgram program).recorded event).Consistent where
  stage_le := h.stage_le
  program_le hmem := by
    rcases Table.mem_keys_insert_iff.mp hmem with rfl | hmem
    . exact Nat.le_of_eq hraw
    . exact Nat.le_succ_of_le (h.program_le hmem)
  attached_live hp hattached := by
    rcases Table.mem_values_insert hp with rfl | hp
    . cases hattached
    . exact h.attached_live hp hattached

theorem withNewStage (h : d.Consistent) (hraw : stage.raw = d.lastStage + 1) (kind : Stage)
    (event : Event) : ((d.withNewStage stage kind).recorded event).Consistent where
  stage_le hmem := by
    rcases Table.mem_keys_insert_iff.mp hmem with rfl | hmem
    . exact Nat.le_of_eq hraw
    . exact Nat.le_succ_of_le (h.stage_le hmem)
  program_le := h.program_le
  attached_live hp hattached := by
    apply Table.mem_keys_insert_iff.mpr
    exact .inr (h.attached_live hp hattached)

theorem withProgram (h : d.Consistent) (hp : d.programs.get? program = some p) {p' : StrictProgram}
    (hattached : ∀ stage ∈ p'.attached, stage ∈ d.stages.keys) (event : Event) :
    ((d.withProgram program p').recorded event).Consistent where
  stage_le := h.stage_le
  program_le hmem := by
    rcases Table.mem_keys_insert_iff.mp hmem with rfl | hmem
    . exact h.program_le (Table.mem_keys_of_get? hp)
    . exact h.program_le hmem
  attached_live hp₁ hmem := by
    rcases Table.mem_values_insert hp₁ with rfl | hp₁
    . exact hattached _ hmem
    . exact h.attached_live hp₁ hmem

/--
A stage can be deleted only once no program has it attached.
-/
theorem eraseStage (h : d.Consistent)
    (hunattached : ∀ p ∈ d.programs.values, stage ∉ p.attached) (event : Event) :
    ({ d with stages := d.stages.erase stage }.recorded event).Consistent where
  stage_le {other} hmem := by
    apply h.stage_le
    change other ∈ (d.stages.erase stage).keys at hmem
    rw [Table.keys_erase] at hmem
    exact List.mem_of_mem_filter hmem
  program_le := h.program_le
  attached_live {p₁ other} hp₁ hmem := by
    show other ∈ (d.stages.erase stage).keys
    rw [Table.keys_erase, List.mem_filter]
    refine ⟨h.attached_live hp₁ hmem, decide_eq_true ?_⟩
    rintro rfl
    exact hunattached p₁ hp₁ hmem

theorem eraseProgram (h : d.Consistent) (program : ProgramHandle) (event : Event) :
    ({ d with programs := d.programs.erase program }.recorded event).Consistent where
  stage_le := h.stage_le
  program_le {other} hmem := by
    apply h.program_le
    change other ∈ (d.programs.erase program).keys at hmem
    rw [Table.keys_erase] at hmem
    exact List.mem_of_mem_filter hmem
  attached_live hp₁ hmem := h.attached_live (Table.mem_values_erase hp₁) hmem

theorem call (h : d.Consistent) {call : Call} {answer : call.Answer}
    (hcall : Completes (driver call) d answer d') : d'.Consistent := by
  cases call with
  | createProgram =>
    rcases completes_createProgram_iff.mp hcall with ⟨_, _, rfl⟩ | ⟨_, program, hraw, _, rfl⟩
    . exact ⟨h.stage_le, h.program_le, h.attached_live⟩
    . exact h.withNewProgram hraw _
  | createStage kind =>
    rcases completes_createStage_iff.mp hcall with ⟨_, _, rfl⟩ | ⟨_, stage, hraw, _, rfl⟩
    . exact ⟨h.stage_le, h.program_le, h.attached_live⟩
    . exact h.withNewStage hraw kind _
  | attachStage program stage =>
    rcases completes_attachStage_iff.mp hcall with ⟨o, p, ho, _, hp, _, rfl⟩
    apply h.withProgram hp
    intro other hmem
    rw [List.mem_append, List.mem_singleton] at hmem
    rcases hmem with hmem | rfl
    . exact h.attached_live (Table.mem_values_of_get? hp) hmem
    . exact Table.mem_keys_of_get? ho
  | detachStage program stage =>
    rcases completes_detachStage_iff.mp hcall with ⟨p, hp, _, rfl⟩
    apply h.withProgram hp
    intro other hmem
    exact h.attached_live (Table.mem_values_of_get? hp) (List.mem_of_mem_erase hmem)
  | deleteStage stage =>
    rcases completes_deleteStage_iff.mp hcall with ⟨o, _, hunattached, rfl⟩
    exact h.eraseStage hunattached _
  | deleteProgram program =>
    rcases completes_deleteProgram_iff.mp hcall with ⟨p, _, _, rfl⟩
    exact h.eraseProgram program _
  | _ => exact (SameShape.call rfl hcall).consistent h

theorem new : StrictDriver.new.Consistent where
  stage_le hmem := by cases hmem
  program_le hmem := by cases hmem
  attached_live hp := by cases hp

end Consistent

theorem Reachable.consistent (h : Reachable d) : d.Consistent := by
  induction h with
  | new => exact .new
  | call _ hcall ih => exact ih.call hcall
  | failProgramCreation _ ih => exact ⟨ih.stage_le, ih.program_le, ih.attached_live⟩
  | failStageCreationAt _ _ ih => exact ⟨ih.stage_le, ih.program_le, ih.attached_live⟩
  | failLink _ _ ih => exact ⟨ih.stage_le, ih.program_le, ih.attached_live⟩
  | failValidation _ _ ih => exact ⟨ih.stage_le, ih.program_le, ih.attached_live⟩

/--
Calls do not change at what creations the driver is made to fail.
-/
theorem failures_of_completes {call : Call} {answer : call.Answer}
    (h : Completes (driver call) d answer d') :
    d'.failsProgramCreation = d.failsProgramCreation ∧
      d'.failingStageCreation = d.failingStageCreation := by
  cases call with
  | createProgram =>
    rcases completes_createProgram_iff.mp h with ⟨_, _, rfl⟩ | ⟨_, _, _, _, rfl⟩
    . exact ⟨rfl, rfl⟩
    . exact ⟨rfl, rfl⟩
  | createStage kind =>
    rcases completes_createStage_iff.mp h with ⟨_, _, rfl⟩ | ⟨_, _, _, _, rfl⟩
    . exact ⟨rfl, rfl⟩
    . exact ⟨rfl, rfl⟩
  | attachStage program stage =>
    rcases completes_attachStage_iff.mp h with ⟨_, _, _, _, _, _, rfl⟩
    exact ⟨rfl, rfl⟩
  | detachStage program stage =>
    rcases completes_detachStage_iff.mp h with ⟨_, _, _, rfl⟩
    exact ⟨rfl, rfl⟩
  | deleteStage stage =>
    rcases completes_deleteStage_iff.mp h with ⟨_, _, _, rfl⟩
    exact ⟨rfl, rfl⟩
  | deleteProgram program =>
    rcases completes_deleteProgram_iff.mp h with ⟨_, _, _, rfl⟩
    exact ⟨rfl, rfl⟩
  | _ =>
    have hshape := SameShape.call rfl h
    exact ⟨hshape.failsProgramCreation_eq, hshape.failingStageCreation_eq⟩

/--
The driver takes the calls of a trace one after the other without a misuse, gives the answers of the
trace to them, and is in the second state afterwards.
-/
inductive Performs : StrictDriver → List Event → StrictDriver → Prop
  | nil (d : StrictDriver) : Performs d [] d
  | cons {d₁ d₂ d₃ : StrictDriver} {event : Event} {trace : List Event} :
    Completes (driver event.call) d₁ event.answer d₂ → Performs d₂ trace d₃ →
      Performs d₁ (event :: trace) d₃

theorem Performs.exists_of_append {d₁ d₃ : StrictDriver} {first second : List Event}
    (h : Performs d₁ (first ++ second) d₃) :
    ∃ d₂, Performs d₁ first d₂ ∧ Performs d₂ second d₃ := by
  induction first generalizing d₁ with
  | nil => exact ⟨d₁, .nil d₁, h⟩
  | cons event rest ih =>
    cases h with
    | cons hcall htrace =>
      rcases ih htrace with ⟨d₂, hrest, hsecond⟩
      exact ⟨d₂, .cons hcall hrest, hsecond⟩

end StrictDriver
end ShaderBuild
