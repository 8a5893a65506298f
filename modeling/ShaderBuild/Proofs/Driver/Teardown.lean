import Mathlib.Data.List.Nodup
import ShaderBuild.Proofs.Driver.Consistent

/-!
This module contains the calls that take things down: they detach stages and delete objects. What is
left after a number of such calls depends only on which calls they are, not on their order or on how
often they are made.
-/

namespace ShaderBuild

/--
The call detaches a stage or deletes an object.
-/
def Call.isTeardown : Call → Bool
  | .detachStage _ _ | .deleteStage _ | .deleteProgram _ => true
  | _ => false

namespace SoftDriver

/--
What is left of a program after calls that take things down.
-/
def programLeft (calls : List Call) (program : ProgramHandle) (o : ProgramObject) :
    Option ProgramObject :=
  if .deleteProgram program ∈ calls then
    none
  else
    some { o with attached := o.attached.filter fun stage => .detachStage program stage ∉ calls }

/--
What is left of a stage that is attached to `attachments` programs after the calls.
-/
def stageLeft (calls : List Call) (attachments : Nat) (stage : StageHandle) (s : StageObject) :
    Option StageObject :=
  let s := { s with
    attachments := attachments
    deletePending := s.deletePending || decide (.deleteStage stage ∈ calls) }
  if s.isUnused then none else some s

/--
The state in which only the programs have been changed by the calls.
-/
def trimmed (d : SoftDriver) (calls : List Call) : SoftDriver :=
  { d with programs := d.programs.filterMap (programLeft calls) }

/--
The state after the calls, as far as it is determined by which calls they are.
-/
def tornDown (d : SoftDriver) (calls : List Call) : SoftDriver :=
  { d.trimmed calls with
    stages := d.stages.filterMap fun stage =>
      stageLeft calls ((d.trimmed calls).attachCount stage) stage }

variable {d : SoftDriver} {calls first second : List Call} {program : ProgramHandle}
variable {stage : StageHandle} {o o' : ProgramObject} {s s' : StageObject}

theorem programLeft_eq_some_iff :
    programLeft calls program o = some o'
      ↔
    .deleteProgram program ∉ calls ∧
      { o with attached := o.attached.filter fun stage => .detachStage program stage ∉ calls }
        = o' := by
  unfold programLeft
  split
  . next hdeleted => simp [hdeleted]
  . next hkept => simp [hkept]

theorem programLeft_eq_self (hkept : .deleteProgram program ∉ calls)
    (hattached : ∀ stage ∈ o.attached, .detachStage program stage ∉ calls) :
    programLeft calls program o = some o := by
  rw [programLeft_eq_some_iff, List.filter_eq_self.mpr]
  . exact ⟨hkept, rfl⟩
  . intro stage hstage
    exact decide_eq_true (hattached stage hstage)

theorem programLeft_bind (program : ProgramHandle) (o : ProgramObject) :
    (programLeft first program o).bind (programLeft second program)
      =
    programLeft (first ++ second) program o := by
  unfold programLeft
  by_cases hfirst : .deleteProgram program ∈ first
  . simp [hfirst]
  . by_cases hsecond : .deleteProgram program ∈ second
    . simp [hfirst, hsecond]
    . simp [hfirst, hsecond, List.filter_filter, Bool.and_comm]

theorem stageLeft_of_notMem {n : Nat} (hkept : .deleteStage stage ∉ calls) (s : StageObject) :
    stageLeft calls n stage s
      =
    if ({ s with attachments := n }).isUnused then none else some { s with attachments := n } := by
  unfold stageLeft
  rw [decide_eq_false hkept, Bool.or_false]

theorem stageLeft_bind {m n : Nat} (hle : n ≤ m) (stage : StageHandle) (s : StageObject) :
    (stageLeft first m stage s).bind (stageLeft second n stage)
      =
    stageLeft (first ++ second) n stage s := by
  unfold stageLeft StageObject.isUnused
  dsimp only
  split
  . next hunused =>
    -- a stage that is freed by the first calls would not have outlived the second ones
    rw [Bool.and_eq_true, Bool.or_eq_true, decide_eq_true_iff, decide_eq_true_iff] at hunused
    have hn : n = 0 := by omega
    rcases hunused.1 with hpending | hdeleted
    . simp [hpending, hn]
    . simp [hdeleted, hn]
  . simp [Bool.or_assoc, or_assoc]

theorem attachCount_trimmed_le (d : SoftDriver) (calls : List Call) (stage : StageHandle) :
    (d.trimmed calls).attachCount stage ≤ d.attachCount stage := by
  unfold attachCount trimmed
  apply Table.countP_filterMap_le
  intro program o o' hleft hattached
  rw [programLeft_eq_some_iff] at hleft
  rcases hleft with ⟨_, rfl⟩
  rw [decide_eq_true_iff, List.mem_filter] at hattached
  exact decide_eq_true hattached.1

theorem trimmed_trimmed (d : SoftDriver) (first second : List Call) :
    (d.trimmed first).trimmed second = d.trimmed (first ++ second) := by
  unfold trimmed
  dsimp only
  rw [Table.filterMap_filterMap]
  simp only [programLeft_bind]

theorem tornDown_tornDown (d : SoftDriver) (first second : List Call) :
    (d.tornDown first).tornDown second = d.tornDown (first ++ second) := by
  have hcount (stage : StageHandle) : ((d.tornDown first).trimmed second).attachCount stage
      = (d.trimmed (first ++ second)).attachCount stage := by
    rw [← trimmed_trimmed]
    rfl
  have hle (stage : StageHandle) : (d.trimmed (first ++ second)).attachCount stage
      ≤ (d.trimmed first).attachCount stage := by
    rw [← trimmed_trimmed]
    apply attachCount_trimmed_le
  unfold tornDown at hcount ⊢
  simp only [hcount, Table.filterMap_filterMap, stageLeft_bind (hle _)]
  rw [← trimmed_trimmed]
  rfl

theorem tornDown_congr (h : ∀ call, call ∈ first ↔ call ∈ second) :
    d.tornDown first = d.tornDown second := by
  unfold tornDown trimmed programLeft stageLeft
  simp only [h]

namespace Consistent

variable (h : d.Consistent)

include h

theorem get?_programs_tornDown (calls : List Call) (program : ProgramHandle) :
    (d.tornDown calls).programs.get? program
      =
    (d.programs.get? program).bind (programLeft calls program) := by
  unfold SoftDriver.tornDown trimmed
  rw [Table.get?_filterMap h.nodup_programs]

theorem get?_stages_tornDown (calls : List Call) (stage : StageHandle) :
    (d.tornDown calls).stages.get? stage
      =
    (d.stages.get? stage).bind
      (stageLeft calls ((d.tornDown calls).attachCount stage) stage) := by
  unfold SoftDriver.tornDown
  rw [Table.get?_filterMap h.nodup_stages]
  rfl

theorem program_of_tornDown (ho : (d.tornDown calls).programs.get? program = some o') :
    ∃ o, d.programs.get? program = some o ∧ .deleteProgram program ∉ calls ∧
      { o with attached := o.attached.filter fun stage => .detachStage program stage ∉ calls }
        = o' := by
  rw [h.get?_programs_tornDown, Option.bind_eq_some_iff] at ho
  simpa only [programLeft_eq_some_iff] using ho

theorem stage_of_tornDown (hs : (d.tornDown calls).stages.get? stage = some s') :
    ∃ s, d.stages.get? stage = some s ∧ s'.isUnused = false ∧
      { s with
        attachments := (d.tornDown calls).attachCount stage
        deletePending := s.deletePending || decide (.deleteStage stage ∈ calls) } = s' := by
  rw [h.get?_stages_tornDown, Option.bind_eq_some_iff] at hs
  rcases hs with ⟨s, hs, hleft⟩
  unfold stageLeft at hleft
  dsimp only at hleft
  split at hleft
  . cases hleft
  . next hused =>
    rw [Bool.not_eq_true] at hused
    cases hleft
    exact ⟨s, hs, hused, rfl⟩

theorem tornDown (calls : List Call) : (d.tornDown calls).Consistent := by
  have hnodup : (d.tornDown calls).programs.keys.Nodup :=
    Table.nodup_keys_filterMap h.nodup_programs _
  constructor
  . constructor
    . intro stage s' hs
      rcases h.stage_of_tornDown hs with ⟨s, hs, _⟩
      exact h.stage_le hs
    . intro program o' ho
      rcases h.program_of_tornDown ho with ⟨o, ho, _⟩
      exact h.program_le ho
  . exact Table.nodup_keys_filterMap h.nodup_stages _
  . exact hnodup
  . intro stage program s' o' hs ho
    rcases h.stage_of_tornDown hs with ⟨s, hs, _⟩
    rcases h.program_of_tornDown ho with ⟨o, ho, _⟩
    exact h.raw_ne hs ho
  . intro program o' ho
    rcases h.program_of_tornDown ho with ⟨o, hbefore, _, rfl⟩
    exact (h.nodup_attached hbefore).filter _
  . intro program o' stage ho hattached
    -- the stage is still attached, so that it is not freed
    have hcount : 0 < (d.tornDown calls).attachCount stage := by
      rw [attachCount_pos_iff hnodup]
      exact ⟨program, o', ho, hattached⟩
    rcases h.program_of_tornDown ho with ⟨o, hbefore, _, rfl⟩
    rcases h.stage_of_attached hbefore (List.mem_of_mem_filter hattached) with ⟨s, hs⟩
    rw [h.get?_stages_tornDown, hs, Option.bind_some]
    unfold stageLeft StageObject.isUnused
    simp [Nat.ne_of_gt hcount]
  . intro stage s' hs
    rcases h.stage_of_tornDown hs with ⟨s, hs, _, rfl⟩
    rfl
  . intro stage s' hs hdeleted
    rcases h.stage_of_tornDown hs with ⟨s, hs, hused, _⟩
    unfold StageObject.isUnused at hused
    rw [hdeleted, Bool.true_and, decide_eq_false_iff_not] at hused
    exact Nat.pos_of_ne_zero hused

theorem isUnused_eq_false (hs : d.stages.get? stage = some s) : s.isUnused = false := by
  unfold StageObject.isUnused
  rw [Bool.and_eq_false_imp, decide_eq_false_iff_not]
  intro hdeleted
  have := h.attachments_pos hs hdeleted
  omega

theorem stageLeft_eq_self (hs : d.stages.get? stage = some s)
    (hkept : .deleteStage stage ∉ calls) :
    stageLeft calls (d.attachCount stage) stage s = some s := by
  rw [stageLeft_of_notMem hkept, ← h.attachments_eq hs, h.isUnused_eq_false hs]
  rfl

theorem trimmed_eq_self
    (hprograms : ∀ program o, d.programs.get? program = some o →
      programLeft calls program o = some o) : d.trimmed calls = d := by
  unfold trimmed
  rw [Table.filterMap_eq_self h.nodup_programs hprograms]

theorem tornDown_eq_self
    (hprograms : ∀ program o, d.programs.get? program = some o →
      programLeft calls program o = some o)
    (hstages : ∀ stage, .deleteStage stage ∉ calls) : d.tornDown calls = d := by
  unfold SoftDriver.tornDown
  rw [h.trimmed_eq_self hprograms, Table.filterMap_eq_self h.nodup_stages]
  intro stage s hs
  exact h.stageLeft_eq_self hs (hstages stage)

end Consistent

theorem releaseUnused_modify (hnodup : d.stages.keys.Nodup) (stage : StageHandle)
    (f : StageObject → StageObject) :
    releaseUnused { d with stages := d.stages.modify stage f } stage
      =
    { d with
      stages := d.stages.filterMap fun handle s =>
        if handle = stage then (if (f s).isUnused then none else some (f s)) else some s } := by
  unfold releaseUnused
  dsimp only
  rw [Table.get?_modify, if_pos rfl, Table.erase_modify_self, Table.erase_eq_filterMap,
    Table.modify_eq_filterMap]
  cases hget : d.stages.get? stage with
  | none =>
    dsimp only [Option.map_none]
    congr 1
    apply Table.filterMap_congr hnodup
    intro handle s hs
    have hne : handle ≠ stage := by
      intro heq
      rw [heq, hget] at hs
      cases hs
    rw [if_neg hne, if_neg hne]
  | some s =>
    dsimp only [Option.map_some]
    split
    . next hunused =>
      congr 1
      apply Table.filterMap_congr hnodup
      intro handle s' hs
      split
      . next heq =>
        rw [heq, hget] at hs
        cases hs
        rw [if_pos hunused]
      . rfl
    . next hused =>
      congr 1
      apply Table.filterMap_congr hnodup
      intro handle s' hs
      split
      . next heq =>
        rw [heq, hget] at hs
        cases hs
        rw [if_neg hused]
      . rfl

namespace Consistent

theorem deleteStage_eq (h : d.Consistent) (stage : StageHandle) :
    d.deleteStage stage = d.tornDown [.deleteStage stage] := by
  have hprograms : ∀ program o, d.programs.get? program = some o →
      programLeft [.deleteStage stage] program o = some o := by
    intro program o _
    apply programLeft_eq_self
    . simp
    . simp
  unfold SoftDriver.deleteStage SoftDriver.tornDown
  rw [releaseUnused_modify h.nodup_stages, h.trimmed_eq_self hprograms]
  congr 1
  apply Table.filterMap_congr h.nodup_stages
  intro handle s hs
  split
  . next heq =>
    subst heq
    unfold stageLeft
    simp [h.attachments_eq hs]
  . next hne =>
    rw [h.stageLeft_eq_self hs]
    simpa using hne

theorem modify_erase_eq_trimmed (h : d.Consistent) (program : ProgramHandle)
    (stage : StageHandle) :
    { d with
      programs := d.programs.modify program fun o => { o with attached := o.attached.erase stage } }
      =
    d.trimmed [.detachStage program stage] := by
  unfold trimmed
  rw [Table.modify_eq_filterMap]
  congr 1
  apply Table.filterMap_congr h.nodup_programs
  intro other o ho
  unfold programLeft
  split
  . next heq =>
    subst heq
    rw [(h.nodup_attached ho).erase_eq_filter, if_neg (by simp)]
    congr 2
    apply List.filter_congr
    intro handle _
    rw [Bool.eq_iff_iff]
    simp
  . next hne => simp [hne]

theorem attachCount_trimmed_detachStage (h : d.Consistent)
    (hget : d.programs.get? program = some o) (hattached : stage ∈ o.attached)
    (handle : StageHandle) :
    (d.trimmed [.detachStage program stage]).attachCount handle + (if handle = stage then 1 else 0)
      =
    d.attachCount handle := by
  have hcount := attachCount_modify h.nodup_programs hget
    (fun o => { o with attached := o.attached.erase stage }) handle
  rw [h.modify_erase_eq_trimmed] at hcount
  by_cases heq : handle = stage
  . subst heq
    have hnotMem : handle ∉ o.attached.erase handle := (h.nodup_attached hget).not_mem_erase
    simp only [hattached, hnotMem, if_true, if_false] at hcount ⊢
    exact hcount
  . simp only [List.mem_erase_of_ne heq, heq, if_false] at hcount ⊢
    omega

theorem detachStage_eq (h : d.Consistent) (program : ProgramHandle) (stage : StageHandle) :
    d.detachStage program stage = d.tornDown [.detachStage program stage] := by
  unfold SoftDriver.detachStage
  cases hget : d.programs.get? program with
  | none =>
    dsimp only
    rw [h.tornDown_eq_self]
    . intro other o ho
      have hne : other ≠ program := by
        intro heq
        rw [heq, hget] at ho
        cases ho
      apply programLeft_eq_self
      . simp
      . simp [hne]
    . simp
  | some o =>
    dsimp only
    split
    . next hattached =>
      have hcount := h.attachCount_trimmed_detachStage hget hattached
      unfold unattach
      rw [h.modify_erase_eq_trimmed, releaseUnused_modify (d := d.trimmed _) h.nodup_stages]
      unfold SoftDriver.tornDown
      congr 1
      apply Table.filterMap_congr h.nodup_stages
      intro handle s hs
      have hattachments := h.attachments_eq hs
      rw [← hcount handle] at hattachments
      rw [stageLeft_of_notMem (by simp)]
      split
      . next heq =>
        rw [if_pos heq] at hattachments
        rw [hattachments, Nat.add_sub_cancel]
      . next hne =>
        rw [if_neg hne, Nat.add_zero] at hattachments
        rw [← hattachments, h.isUnused_eq_false hs]
        rfl
    . next hattached =>
      rw [h.tornDown_eq_self]
      . intro other o' ho
        apply programLeft_eq_self
        . simp
        . intro handle hmem
          simp only [List.mem_singleton, Call.detachStage.injEq]
          rintro ⟨rfl, rfl⟩
          rw [hget] at ho
          cases ho
          contradiction
      . simp

end Consistent

theorem unattach_withPrograms (d : SoftDriver) (programs : Table ProgramHandle ProgramObject)
    (stage : StageHandle) :
    { d with programs := programs }.unattach stage = { d.unattach stage with programs := programs } := by
  unfold unattach releaseUnused
  dsimp only
  split
  . rfl
  . split
    . rfl
    . rfl

theorem detachStage_of_mem (hget : d.programs.get? program = some o)
    (hattached : stage ∈ o.attached) :
    d.detachStage program stage
      =
    { d.unattach stage with
      programs := d.programs.modify program fun o =>
        { o with attached := o.attached.erase stage } } := by
  unfold detachStage
  rw [hget]
  dsimp only
  rw [if_pos hattached, unattach_withPrograms]

theorem get?_detachStage_of_mem (hget : d.programs.get? program = some o)
    (hattached : stage ∈ o.attached) :
    (d.detachStage program stage).programs.get? program
      =
    some { o with attached := o.attached.erase stage } := by
  rw [detachStage_of_mem hget hattached]
  dsimp only
  rw [Table.get?_modify, if_pos rfl, hget]
  rfl

/--
That a program is deleted first is not seen by the stages that are detached from it.
-/
theorem unattach_erase (hget : d.programs.get? program = some o) (hattached : stage ∈ o.attached) :
    { d with programs := d.programs.erase program }.unattach stage
      =
    { d.detachStage program stage with
      programs := (d.detachStage program stage).programs.erase program } := by
  rw [detachStage_of_mem hget hattached, unattach_withPrograms]
  dsimp only
  rw [Table.erase_modify_self]

/--
Deleting a program detaches its stages one after the other.
-/
theorem deleteProgram_of_attached_cons {rest : List StageHandle}
    (hget : d.programs.get? program = some o) (hattached : o.attached = stage :: rest) :
    d.deleteProgram program = (d.detachStage program stage).deleteProgram program := by
  have hmem : stage ∈ o.attached := by simp [hattached]
  unfold deleteProgram
  rw [hget, get?_detachStage_of_mem hget hmem]
  dsimp only
  rw [hattached, List.foldl_cons, unattach_erase hget hmem, List.erase_cons_head]

namespace Consistent

theorem attachCount_trimmed_deleteProgram (h : d.Consistent)
    (hget : d.programs.get? program = some o) (hattached : o.attached = [])
    (handle : StageHandle) :
    (d.trimmed [.deleteProgram program]).attachCount handle = d.attachCount handle := by
  have hcount := attachCount_filterMap h.nodup_programs hget
    (f := programLeft [.deleteProgram program]) (by
      intro other o hne
      apply programLeft_eq_self
      . simpa using hne
      . simp) handle
  unfold trimmed
  rw [hattached] at hcount
  simpa [programLeft] using hcount

theorem deleteProgram_eq_of_attached_nil (h : d.Consistent)
    (hget : d.programs.get? program = some o) (hattached : o.attached = []) :
    d.deleteProgram program = d.tornDown [.deleteProgram program] := by
  have hcount := h.attachCount_trimmed_deleteProgram hget hattached
  have hprograms : d.programs.erase program
      = d.programs.filterMap (programLeft [.deleteProgram program]) := by
    rw [Table.erase_eq_filterMap]
    apply Table.filterMap_congr h.nodup_programs
    intro other o _
    unfold programLeft
    split
    . next heq => simp [heq]
    . next hne => simp [hne]
  have hstages : (d.tornDown [.deleteProgram program]).stages = d.stages := by
    unfold SoftDriver.tornDown
    dsimp only
    apply Table.filterMap_eq_self h.nodup_stages
    intro handle s hs
    rw [hcount handle]
    apply h.stageLeft_eq_self hs
    simp
  unfold SoftDriver.deleteProgram
  rw [hget]
  dsimp only
  rw [hattached, List.foldl_nil, hprograms, ← hstages]
  rfl

theorem programLeft_detachStage_self {rest : List StageHandle} (h : d.Consistent)
    (hget : d.programs.get? program = some o) (hattached : o.attached = stage :: rest) :
    programLeft [.detachStage program stage] program o = some { o with attached := rest } := by
  have hnodup := h.nodup_attached hget
  rw [hattached, List.nodup_cons] at hnodup
  rw [programLeft_eq_some_iff, hattached, List.filter_cons_of_neg (by simp),
    List.filter_eq_self.mpr]
  . exact ⟨by simp, rfl⟩
  . intro handle hmem
    simpa using ne_of_mem_of_not_mem hmem hnodup.1

/--
That a stage is detached first is not seen when its program is deleted.
-/
theorem tornDown_detachStage_deleteProgram (d : SoftDriver) (program : ProgramHandle)
    (stage : StageHandle) :
    d.tornDown [.detachStage program stage, .deleteProgram program]
      =
    d.tornDown [.deleteProgram program] := by
  have hleft : programLeft [.detachStage program stage, .deleteProgram program]
      = programLeft [.deleteProgram program] := by
    funext other o
    unfold programLeft
    by_cases heq : other = program
    . simp [heq]
    . simp [heq]
  unfold SoftDriver.tornDown trimmed stageLeft
  simp [hleft]

theorem deleteProgram_eq (h : d.Consistent) (program : ProgramHandle) :
    d.deleteProgram program = d.tornDown [.deleteProgram program] := by
  cases hget : d.programs.get? program with
  | none =>
    rw [h.tornDown_eq_self]
    . unfold SoftDriver.deleteProgram
      rw [hget]
    . intro other o ho
      apply programLeft_eq_self
      . rw [List.mem_singleton, Call.deleteProgram.injEq]
        intro heq
        rw [heq, hget] at ho
        cases ho
      . simp
    . simp
  | some o =>
    -- each stage that is attached is detached on its own, until none is
    generalize hattached : o.attached = attached
    induction attached generalizing d o with
    | nil => exact h.deleteProgram_eq_of_attached_nil hget hattached
    | cons stage rest ih =>
      have hdetached := h.get?_programs_tornDown [.detachStage program stage] program
      rw [hget, Option.bind_some, h.programLeft_detachStage_self hget hattached] at hdetached
      rw [deleteProgram_of_attached_cons hget hattached, h.detachStage_eq,
        ih (h.tornDown _) _ hdetached rfl, tornDown_tornDown]
      apply tornDown_detachStage_deleteProgram

theorem call_of_isTeardown (h : d.Consistent) (frontEnd : FrontEnd) {call : Call}
    (hcall : call.isTeardown = true) :
    ((driver frontEnd call).run d).2 = d.tornDown [call] := by
  cases call with
  | detachStage program stage => exact h.detachStage_eq program stage
  | deleteStage stage => exact h.deleteStage_eq stage
  | deleteProgram program => exact h.deleteProgram_eq program
  | _ => cases hcall

theorem call (h : d.Consistent) (frontEnd : FrontEnd) (call : Call) :
    ((driver frontEnd call).run d).2.Consistent := by
  cases call with
  | createProgram => exact h.createProgram
  | createStage stage => exact h.createStage stage
  | attachStage program stage => exact h.attachStage program stage
  | detachStage program stage =>
    rw [h.call_of_isTeardown frontEnd rfl]
    exact h.tornDown _
  | deleteStage stage =>
    rw [h.call_of_isTeardown frontEnd rfl]
    exact h.tornDown _
  | deleteProgram program =>
    rw [h.call_of_isTeardown frontEnd rfl]
    exact h.tornDown _
  | _ => exact (SameShape.call d frontEnd rfl).consistent h

end Consistent

theorem Reachable.consistent {frontEnd : FrontEnd} (h : Reachable frontEnd d) : d.Consistent := by
  induction h with
  | new =>
    constructor
    . have hnew : Reachable frontEnd SoftDriver.new := .new
      exact hnew.named
    . exact .nil
    . exact .nil
    all_goals
      intros
      contradiction
  | call call _ ih => exact ih.call frontEnd call

theorem Consistent.after_eq_tornDown (h : d.Consistent) (frontEnd : FrontEnd)
    (hcalls : ∀ call ∈ calls, call.isTeardown = true) :
    d.after frontEnd calls = d.tornDown calls := by
  induction calls generalizing d with
  | nil =>
    unfold after
    rw [h.tornDown_eq_self]
    . intro program o _
      apply programLeft_eq_self
      . simp
      . simp
    . simp
  | cons call rest ih =>
    rw [List.forall_mem_cons] at hcalls
    unfold after
    rw [h.call_of_isTeardown frontEnd hcalls.1, ih (h.tornDown _) hcalls.2, tornDown_tornDown]
    rfl

theorem Consistent.tornDown_size_eq_zero (h : d.Consistent)
    (hprograms : ∀ program o, d.programs.get? program = some o → .deleteProgram program ∈ calls)
    (hstages : ∀ stage s, d.stages.get? stage = some s → .deleteStage stage ∈ calls) :
    (d.tornDown calls).programs.size = 0 ∧ (d.tornDown calls).stages.size = 0 := by
  have hnone : ∀ program, (d.tornDown calls).programs.get? program = none := by
    intro program
    rw [h.get?_programs_tornDown]
    cases ho : d.programs.get? program with
    | none => rfl
    | some o =>
      rw [Option.bind_some]
      unfold programLeft
      rw [if_pos (hprograms program o ho)]
  constructor
  . rw [Table.size_eq_zero_iff]
    exact hnone
  . rw [Table.size_eq_zero_iff]
    intro stage
    -- no program is left that the stage could be attached to
    have hcount : (d.tornDown calls).attachCount stage = 0 := by
      apply Nat.eq_zero_of_not_pos
      rw [attachCount_pos_iff (h.tornDown calls).nodup_programs]
      rintro ⟨program, o, ho, _⟩
      rw [hnone program] at ho
      cases ho
    rw [h.get?_stages_tornDown, hcount]
    cases hs : d.stages.get? stage with
    | none => rfl
    | some s =>
      rw [Option.bind_some]
      unfold stageLeft StageObject.isUnused
      simp [hstages stage s hs]

/--
Calls that detach stages and delete objects lead to the same state in whatever order they are made.
Once they delete every object, none is left.
-/
theorem teardown_confluent {frontEnd : FrontEnd} (h : Reachable frontEnd d)
    (hcalls : ∀ call ∈ calls, call.isTeardown = true) :
    (∀ calls', calls.Perm calls' → d.after frontEnd calls = d.after frontEnd calls') ∧
      ((∀ program o, d.programs.get? program = some o → .deleteProgram program ∈ calls) →
        (∀ stage s, d.stages.get? stage = some s → .deleteStage stage ∈ calls) →
          (d.after frontEnd calls).programs.size = 0 ∧
            (d.after frontEnd calls).stages.size = 0) := by
  have hconsistent := h.consistent
  rw [hconsistent.after_eq_tornDown frontEnd hcalls]
  constructor
  . intro calls' hperm
    rw [hconsistent.after_eq_tornDown frontEnd]
    . apply tornDown_congr
      intro call
      exact hperm.mem_iff
    . intro call hcall
      exact hcalls call (hperm.mem_iff.mpr hcall)
  . exact hconsistent.tornDown_size_eq_zero

/--
A stage that is attached twice is deleted first in one order, and last in the other.
-/
theorem teardown_confluent_shared_stage :
    let frontEnd : FrontEnd := fun _ _ => .ok ⟨[], none⟩
    let program : ProgramHandle := ⟨1, by decide⟩
    let other : ProgramHandle := ⟨2, by decide⟩
    let stage : StageHandle := ⟨3, by decide⟩
    let d := new.after frontEnd [.createProgram, .createProgram, .createStage .vertex,
      .attachStage program stage, .attachStage other stage]
    let calls : List Call := [.deleteStage stage, .detachStage program stage,
      .deleteProgram program, .deleteProgram other]
    Reachable frontEnd d ∧ d.stages.size = 1 ∧
      d.after frontEnd calls = d.after frontEnd calls.reverse ∧
        (d.after frontEnd calls).programs.size = 0 ∧ (d.after frontEnd calls).stages.size = 0 := by
  intro frontEnd program other stage d calls
  have hreachable : Reachable frontEnd d := Reachable.new.after _
  have hprograms : d.programs.keys = [program, other] := rfl
  have hstages : d.stages.keys = [stage] := rfl
  have hcalls : ∀ call ∈ calls, call.isTeardown = true := by decide
  have h := teardown_confluent hreachable hcalls
  refine ⟨hreachable, rfl, h.1 _ (List.reverse_perm _).symm, h.2 ?_ ?_⟩
  . intro handle o ho
    have hmem := Table.mem_keys_of_get? ho
    rw [hprograms] at hmem
    simp only [List.mem_cons, List.not_mem_nil, or_false] at hmem
    rcases hmem with rfl | rfl
    . simp [calls]
    . simp [calls]
  . intro handle s hs
    have hmem := Table.mem_keys_of_get? hs
    rw [hstages, List.mem_singleton] at hmem
    simp [calls, hmem]

end SoftDriver
end ShaderBuild
