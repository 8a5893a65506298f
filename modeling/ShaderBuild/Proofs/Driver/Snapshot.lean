import ShaderBuild.Proofs.Driver.Change

/-!
This module contains what a program object keeps while calls are made that are about other objects.
A link takes copies of the compiled stages, so that whatever happens to the stages afterwards does
not show in the program.
-/

namespace ShaderBuild

namespace ProgramObject

/--
The second object is linked as the first one is.
-/
structure SameLink (o o' : ProgramObject) : Prop where
  linkStatus_eq : o'.linkStatus = o.linkStatus
  linked_eq : o'.linked = o.linked

/--
The second object is linked as the first one is, and what is reported about the two is the same.
-/
structure SameReport (o o' : ProgramObject) : Prop extends SameLink o o' where
  validateStatus_eq : o'.validateStatus = o.validateStatus
  log_eq : o'.log = o.log

variable {o o' o'' : ProgramObject}

theorem SameReport.refl (o : ProgramObject) : o.SameReport o :=
  ⟨⟨rfl, rfl⟩, rfl, rfl⟩

theorem SameReport.withAttached (o : ProgramObject) (attached : List StageHandle) :
    o.SameReport { o with attached := attached } :=
  ⟨⟨rfl, rfl⟩, rfl, rfl⟩

theorem SameLink.trans (h : o.SameLink o') (h' : o'.SameLink o'') : o.SameLink o'' where
  linkStatus_eq := by rw [h'.linkStatus_eq, h.linkStatus_eq]
  linked_eq := by rw [h'.linked_eq, h.linked_eq]

theorem SameReport.trans (h : o.SameReport o') (h' : o'.SameReport o'') : o.SameReport o'' where
  toSameLink := h.toSameLink.trans h'.toSameLink
  validateStatus_eq := by rw [h'.validateStatus_eq, h.validateStatus_eq]
  log_eq := by rw [h'.log_eq, h.log_eq]

theorem sameLink_validate (o : ProgramObject) : o.SameLink o.validate := by
  unfold validate
  split
  . exact ⟨rfl, rfl⟩
  . exact ⟨rfl, rfl⟩

/--
What a validation reports depends on nothing but the link.
-/
theorem SameLink.validate (h : o.SameLink o') : o.validate.SameReport o'.validate := by
  have hobjections : o'.objections = o.objections := by
    unfold objections
    rw [h.linked_eq]
  unfold ProgramObject.validate
  rw [h.linkStatus_eq, hobjections]
  split
  . exact ⟨⟨rfl, h.linked_eq⟩, rfl, rfl⟩
  . exact ⟨⟨rfl, h.linked_eq⟩, rfl, rfl⟩

end ProgramObject

namespace SoftDriver

variable {d : SoftDriver} {frontEnd : FrontEnd} {program : ProgramHandle} {o : ProgramObject}
variable {call : Call} {calls : List Call}

namespace SameShape

theorem exists_program {d' : SoftDriver} (hshape : SameShape d d')
    (ho : d.programs.get? program = some o) : ∃ o', d'.programs.get? program = some o' := by
  rw [← Option.ne_none_iff_exists', ne_eq, Table.get?_eq_none_iff_notMem_keys,
    hshape.keys_programs, not_not]
  exact Table.mem_keys_of_get? ho

end SameShape

namespace Consistent

theorem exists_program_of_isTeardown (h : d.Consistent) (frontEnd : FrontEnd)
    (hcall : call.isTeardown = true) (ho : d.programs.get? program = some o)
    (hkept : call ≠ .deleteProgram program) :
    ∃ o', ((driver frontEnd call).run d).2.programs.get? program = some o' := by
  rw [h.call_of_isTeardown frontEnd hcall, h.get?_programs_tornDown, ho, Option.bind_some]
  unfold programLeft
  rw [if_neg]
  . exact ⟨_, rfl⟩
  . rw [List.mem_singleton]
    exact hkept.symm

theorem exists_program_createProgram (h : d.Consistent) (ho : d.programs.get? program = some o) :
    d.createProgram.2.programs.get? program = some o := by
  unfold SoftDriver.createProgram
  split
  . rw [Table.get?_insert, if_neg]
    . exact ho
    . rintro rfl
      have := h.program_le ho
      dsimp only at this
      omega
  . exact ho

/--
A program is there until it is deleted.
-/
theorem exists_program_of_call (h : d.Consistent) (frontEnd : FrontEnd)
    (ho : d.programs.get? program = some o) (hkept : call ≠ .deleteProgram program) :
    ∃ o', ((driver frontEnd call).run d).2.programs.get? program = some o' := by
  cases call with
  | detachStage | deleteStage | deleteProgram =>
    exact h.exists_program_of_isTeardown frontEnd rfl ho hkept
  | createProgram => exact ⟨o, h.exists_program_createProgram ho⟩
  | createStage kind =>
    refine ⟨o, ?_⟩
    show (d.createStage kind).2.programs.get? program = some o
    unfold SoftDriver.createStage
    split
    . exact ho
    . exact ho
  | attachStage other stage =>
    show ∃ o', (d.attachStage other stage).programs.get? program = some o'
    unfold SoftDriver.attachStage
    split
    . split
      . exact ⟨o, ho⟩
      . rw [Table.exists_get?_modify_iff]
        exact ⟨o, ho⟩
    . exact ⟨o, ho⟩
  | _ => exact (SameShape.call d frontEnd rfl).exists_program ho

/--
What a call leaves of a program that it neither links nor deletes.
-/
theorem sameLink_of_call (h : d.Consistent) (frontEnd : FrontEnd)
    (ho : d.programs.get? program = some o) (hlink : call ≠ .linkProgram program)
    (hkept : call ≠ .deleteProgram program) :
    ∃ o', ((driver frontEnd call).run d).2.programs.get? program = some o' ∧ o.SameLink o' ∧
      (call ≠ .validateProgram program → o.SameReport o') := by
  rcases h.exists_program_of_call frontEnd ho hkept with ⟨o', ho'⟩
  refine ⟨o', ho', ?_⟩
  cases h.programOrigin ho' with
  | created _ hfresh =>
    rw [hfresh] at ho
    cases ho
  | kept hbefore attached =>
    rw [ho] at hbefore
    cases hbefore
    have hreport := ProgramObject.SameReport.withAttached o attached
    exact ⟨hreport.toSameLink, fun _ => hreport⟩
  | linked hcall _ => exact absurd hcall hlink
  | validated hcall hbefore =>
    rw [ho] at hbefore
    cases hbefore
    exact ⟨o.sameLink_validate, fun hne => absurd hcall hne⟩

theorem sameLink_of_after (h : d.Consistent) (frontEnd : FrontEnd)
    (ho : d.programs.get? program = some o) (hlink : .linkProgram program ∉ calls)
    (hkept : .deleteProgram program ∉ calls) :
    ∃ o', (d.after frontEnd calls).programs.get? program = some o' ∧ o.SameLink o' ∧
      (.validateProgram program ∉ calls → o.SameReport o') := by
  induction calls generalizing d o with
  | nil =>
    have hreport := ProgramObject.SameReport.refl o
    exact ⟨o, ho, hreport.toSameLink, fun _ => hreport⟩
  | cons call rest ih =>
    rw [List.mem_cons, not_or] at hlink hkept
    rcases h.sameLink_of_call frontEnd ho (Ne.symm hlink.1) (Ne.symm hkept.1) with
      ⟨o₁, ho₁, hlinked, hreport⟩
    rcases ih (h.call frontEnd call) ho₁ hlink.2 hkept.2 with ⟨o', ho', hlinked', hreport'⟩
    refine ⟨o', ho', hlinked.trans hlinked', ?_⟩
    intro hvalidate
    rw [List.mem_cons, not_or] at hvalidate
    exact (hreport (Ne.symm hvalidate.1)).trans (hreport' hvalidate.2)

end Consistent

theorem get?_validateProgram (ho : d.programs.get? program = some o) :
    (d.validateProgram program).programs.get? program = some o.validate := by
  unfold validateProgram
  rw [Table.get?_modify, if_pos rfl, ho, Option.map_some]

/--
In every state that calls lead to, a program stays there and stays linked to what it was linked to,
until it is linked again or deleted. Until it is validated, its validation status and its log stay
as well. Whatever is done to its stages and to other programs in the meantime, validating it later
reports what validating it at once would have reported.
-/
theorem Reachable.linked_snapshot (h : Reachable frontEnd d)
    (ho : d.programs.get? program = some o) (hlink : .linkProgram program ∉ calls)
    (hkept : .deleteProgram program ∉ calls) :
    ∃ o', (d.after frontEnd calls).programs.get? program = some o' ∧
      o'.linkStatus = o.linkStatus ∧ o'.linked = o.linked ∧
      (.validateProgram program ∉ calls →
        o'.validateStatus = o.validateStatus ∧ o'.log = o.log) ∧
      ((d.after frontEnd calls).validateProgram program).validateStatus program
        = (d.validateProgram program).validateStatus program ∧
      ((d.after frontEnd calls).validateProgram program).programLog program
        = (d.validateProgram program).programLog program := by
  rcases h.consistent.sameLink_of_after frontEnd ho hlink hkept with ⟨o', ho', hlinked, hreport⟩
  have hvalidated := hlinked.validate
  refine ⟨o', ho', hlinked.linkStatus_eq, hlinked.linked_eq, ?_, ?_, ?_⟩
  . intro hvalidate
    exact ⟨(hreport hvalidate).validateStatus_eq, (hreport hvalidate).log_eq⟩
  . unfold validateStatus
    rw [get?_validateProgram ho, get?_validateProgram ho']
    exact hvalidated.validateStatus_eq
  . unfold programLog
    rw [get?_validateProgram ho, get?_validateProgram ho']
    exact hvalidated.log_eq

/--
A compute program keeps the module that it was linked with when its stage gets a source that does
not compile, is detached and is deleted.
-/
theorem linked_snapshot_recompiled_stage :
    let parsed : ShaderModule := ⟨[], none⟩
    let frontEnd : FrontEnd := fun _ text => if text = "" then .ok parsed else .error []
    let program : ProgramHandle := ⟨1, by decide⟩
    let stage : StageHandle := ⟨2, by decide⟩
    let d := new.after frontEnd [.createProgram, .createStage .compute, .compileStage stage,
      .attachStage program stage, .linkProgram program]
    let calls : List Call := [.setSource stage "void", .compileStage stage,
      .detachStage program stage, .deleteStage stage, .createProgram]
    Reachable frontEnd d ∧ (d.after frontEnd calls).stages.get? stage = none ∧
      ∃ o', (d.after frontEnd calls).programs.get? program = some o' ∧ o'.linkStatus = true ∧
        o'.linked = [(.compute, parsed)] := by
  intro parsed frontEnd program stage d calls
  have hreachable : Reachable frontEnd d := Reachable.new.after _
  have ho : d.programs.get? program
      = some ⟨[stage], [(.compute, parsed)], true, false, ""⟩ := by
    dsimp only [d, frontEnd, program, stage, parsed]
    rfl
  have hfreed : (d.after frontEnd calls).stages.get? stage = none := by
    dsimp only [d, calls, frontEnd, program, stage, parsed]
    rfl
  have hlink : .linkProgram program ∉ calls := by decide
  have hkept : .deleteProgram program ∉ calls := by decide
  rcases hreachable.linked_snapshot ho hlink hkept with ⟨o', ho', hstatus, hlinked, _⟩
  exact ⟨hreachable, hfreed, o', ho', hstatus, hlinked⟩

end SoftDriver
end ShaderBuild
