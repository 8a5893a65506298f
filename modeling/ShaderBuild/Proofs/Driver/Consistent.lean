import ShaderBuild.Proofs.Driver.Fresh
import ShaderBuild.Proofs.Driver.Reachable
import ShaderBuild.Proofs.Table.Keys

/-!
This module contains the invariant that ties stage objects to the program objects that they are
attached to. Here it is shown for the calls that free no object. The calls that may free objects are
treated together in `ShaderBuild.Proofs.Driver.Teardown`.
-/

namespace ShaderBuild

/--
The call neither creates nor deletes objects, and it neither attaches nor detaches stages.
-/
def Call.keepsShape : Call → Bool
  | .createProgram | .createStage _ | .attachStage _ _ | .detachStage _ _ | .deleteStage _
  | .deleteProgram _ => false
  | _ => true

namespace SoftDriver

/--
The number of programs that a stage is attached to.
-/
def attachCount (d : SoftDriver) (stage : StageHandle) : Nat :=
  d.programs.values.countP fun o => stage ∈ o.attached

/--
Every object has one name of its own that was given out. A program has stages attached that exist,
none of them twice. A stage counts the programs that it is attached to, and if it is deleted, it is
still there only because there are such programs.
-/
structure Consistent (d : SoftDriver) : Prop extends Named d where
  nodup_stages : d.stages.keys.Nodup
  nodup_programs : d.programs.keys.Nodup
  raw_ne {stage : StageHandle} {program : ProgramHandle} {s : StageObject} {o : ProgramObject} :
    d.stages.get? stage = some s → d.programs.get? program = some o → stage.raw ≠ program.raw
  nodup_attached {program : ProgramHandle} {o : ProgramObject} :
    d.programs.get? program = some o → o.attached.Nodup
  stage_of_attached {program : ProgramHandle} {o : ProgramObject} {stage : StageHandle} :
    d.programs.get? program = some o → stage ∈ o.attached → ∃ s, d.stages.get? stage = some s
  attachments_eq {stage : StageHandle} {s : StageObject} :
    d.stages.get? stage = some s → s.attachments = d.attachCount stage
  attachments_pos {stage : StageHandle} {s : StageObject} :
    d.stages.get? stage = some s → s.deletePending = true → 0 < s.attachments

variable {d d' : SoftDriver} {program : ProgramHandle} {stage : StageHandle}
variable {o : ProgramObject} {s : StageObject}

theorem attachCount_pos_iff (hnodup : d.programs.keys.Nodup) :
    0 < d.attachCount stage ↔ ∃ program o, d.programs.get? program = some o ∧ stage ∈ o.attached := by
  unfold attachCount
  rw [Table.countP_values, List.countP_pos_iff]
  constructor
  . rintro ⟨⟨program, o⟩, hmem, hattached⟩
    rw [← Table.get?_eq_some_iff hnodup] at hmem
    exact ⟨program, o, hmem, of_decide_eq_true hattached⟩
  . rintro ⟨program, o, hget, hattached⟩
    rw [Table.get?_eq_some_iff hnodup] at hget
    exact ⟨⟨program, o⟩, hget, decide_eq_true hattached⟩

theorem Consistent.attachCount_eq_zero (h : d.Consistent) (hget : d.stages.get? stage = none) :
    d.attachCount stage = 0 := by
  apply Nat.eq_zero_of_not_pos
  rw [attachCount_pos_iff h.nodup_programs]
  rintro ⟨program, o, hprogram, hattached⟩
  rcases h.stage_of_attached hprogram hattached with ⟨s, hs⟩
  rw [hget] at hs
  cases hs

/--
What is done to one program changes the counts of the stages that are attached or detached by it.
-/
theorem attachCount_filterMap (hnodup : d.programs.keys.Nodup)
    (hget : d.programs.get? program = some o)
    {f : ProgramHandle → ProgramObject → Option ProgramObject}
    (hothers : ∀ other o, other ≠ program → f other o = some o) (stage : StageHandle) :
    { d with programs := d.programs.filterMap f }.attachCount stage
        + (if stage ∈ o.attached then 1 else 0)
      =
    d.attachCount stage + if (f program o).any fun o => stage ∈ o.attached then 1 else 0 := by
  unfold attachCount
  have := Table.countP_filterMap_add hnodup hget (f := f) (p := fun o => stage ∈ o.attached) (by
    intro other o' hne
    rw [hothers other o' hne]
    rfl)
  simpa using this

theorem attachCount_modify (hnodup : d.programs.keys.Nodup)
    (hget : d.programs.get? program = some o) (f : ProgramObject → ProgramObject)
    (stage : StageHandle) :
    { d with programs := d.programs.modify program f }.attachCount stage
        + (if stage ∈ o.attached then 1 else 0)
      =
    d.attachCount stage + if stage ∈ (f o).attached then 1 else 0 := by
  rw [Table.modify_eq_filterMap, attachCount_filterMap hnodup hget]
  . simp
  . intro other o' hne
    rw [if_neg hne]

/--
The second state has the objects of the first, with the same stages attached to the programs.
-/
structure SameShape (d d' : SoftDriver) : Prop where
  lastName_eq : d'.lastName = d.lastName
  keys_stages : d'.stages.keys = d.stages.keys
  keys_programs : d'.programs.keys = d.programs.keys
  stage_eq {stage : StageHandle} {s' : StageObject} : d'.stages.get? stage = some s' →
    ∃ s, d.stages.get? stage = some s ∧ s'.attachments = s.attachments ∧
      s'.deletePending = s.deletePending
  program_eq {program : ProgramHandle} {o' : ProgramObject} : d'.programs.get? program = some o' →
    ∃ o, d.programs.get? program = some o ∧ o'.attached = o.attached
  attachCount_eq (stage : StageHandle) : d'.attachCount stage = d.attachCount stage

namespace SameShape

theorem modify_stage (d : SoftDriver) (stage : StageHandle) {f : StageObject → StageObject}
    (hattachments : ∀ s, (f s).attachments = s.attachments)
    (hpending : ∀ s, (f s).deletePending = s.deletePending) :
    SameShape d { d with stages := d.stages.modify stage f } where
  lastName_eq := rfl
  keys_stages := Table.keys_modify _ _ _
  keys_programs := rfl
  stage_eq {handle s'} hget := by
    rcases Table.get?_modify_eq_some hget with ⟨s, hs, rfl⟩
    refine ⟨s, hs, ?_⟩
    split
    . exact ⟨hattachments s, hpending s⟩
    . exact ⟨rfl, rfl⟩
  program_eq hget := ⟨_, hget, rfl⟩
  attachCount_eq _ := rfl

theorem modify_program (d : SoftDriver) (program : ProgramHandle)
    {f : ProgramObject → ProgramObject} (hf : ∀ o, (f o).attached = o.attached) :
    SameShape d { d with programs := d.programs.modify program f } where
  lastName_eq := rfl
  keys_stages := rfl
  keys_programs := Table.keys_modify _ _ _
  stage_eq hget := ⟨_, hget, rfl, rfl⟩
  program_eq {handle o'} hget := by
    rcases Table.get?_modify_eq_some hget with ⟨o, ho, rfl⟩
    refine ⟨o, ho, ?_⟩
    split
    . exact hf o
    . rfl
  attachCount_eq stage := by
    unfold attachCount
    dsimp only
    rw [Table.modify_eq_filterMap, Table.countP_filterMap, Table.countP_values]
    congr
    funext entry
    rw [Option.any_some]
    split
    . rw [hf]
    . rfl

theorem refl (d : SoftDriver) : SameShape d d where
  lastName_eq := rfl
  keys_stages := rfl
  keys_programs := rfl
  stage_eq hget := ⟨_, hget, rfl, rfl⟩
  program_eq hget := ⟨_, hget, rfl⟩
  attachCount_eq _ := rfl

theorem call (d : SoftDriver) (frontEnd : FrontEnd) {call : Call}
    (hcall : call.keepsShape = true) : SameShape d ((driver frontEnd call).run d).2 := by
  cases call with
  | setSource stage text =>
    apply modify_stage
    . intro s
      rfl
    . intro s
      rfl
  | compileStage stage =>
    apply modify_stage
    . intro s
      unfold StageObject.compile
      split <;> rfl
    . intro s
      unfold StageObject.compile
      split <;> rfl
  | linkProgram program =>
    apply modify_program
    intro o
    apply ProgramObject.setLinked_attached
  | validateProgram program =>
    apply modify_program
    intro o
    apply ProgramObject.validate_attached
  | compileStatus => apply refl
  | compileLog => apply refl
  | linkStatus => apply refl
  | programLog => apply refl
  | validateStatus => apply refl
  | _ => cases hcall

theorem exists_stage (hshape : SameShape d d') (hs : d.stages.get? stage = some s) :
    ∃ s', d'.stages.get? stage = some s' ∧ s'.attachments = s.attachments ∧
      s'.deletePending = s.deletePending := by
  have hlive : d'.stages.get? stage ≠ none := by
    rw [ne_eq, Table.get?_eq_none_iff_notMem_keys, hshape.keys_stages,
      ← Table.get?_eq_none_iff_notMem_keys, hs]
    simp
  rcases Option.ne_none_iff_exists'.mp hlive with ⟨s', hs'⟩
  rcases hshape.stage_eq hs' with ⟨s₁, hs₁, heq⟩
  rw [hs] at hs₁
  cases hs₁
  exact ⟨s', hs', heq⟩

theorem consistent (hshape : SameShape d d') (h : d.Consistent) : d'.Consistent where
  stage_le hs := by
    rcases hshape.stage_eq hs with ⟨s, hs, _⟩
    rw [hshape.lastName_eq]
    exact h.stage_le hs
  program_le ho := by
    rcases hshape.program_eq ho with ⟨o, ho, _⟩
    rw [hshape.lastName_eq]
    exact h.program_le ho
  nodup_stages := by
    rw [hshape.keys_stages]
    exact h.nodup_stages
  nodup_programs := by
    rw [hshape.keys_programs]
    exact h.nodup_programs
  raw_ne hs ho := by
    rcases hshape.stage_eq hs with ⟨s, hs, _⟩
    rcases hshape.program_eq ho with ⟨o, ho, _⟩
    exact h.raw_ne hs ho
  nodup_attached ho := by
    rcases hshape.program_eq ho with ⟨o, ho, heq⟩
    rw [heq]
    exact h.nodup_attached ho
  stage_of_attached {program o' stage} ho hattached := by
    rcases hshape.program_eq ho with ⟨o, ho, heq⟩
    rw [heq] at hattached
    rcases h.stage_of_attached ho hattached with ⟨s, hs⟩
    rcases hshape.exists_stage hs with ⟨s', hs', _⟩
    exact ⟨s', hs'⟩
  attachments_eq hs := by
    rcases hshape.stage_eq hs with ⟨s, hs, heq, _⟩
    rw [heq, hshape.attachCount_eq]
    exact h.attachments_eq hs
  attachments_pos hs hdeleted := by
    rcases hshape.stage_eq hs with ⟨s, hs, heq, hpending⟩
    rw [heq]
    rw [hpending] at hdeleted
    exact h.attachments_pos hs hdeleted

end SameShape

namespace Consistent

theorem createProgram (h : d.Consistent) : d.createProgram.2.Consistent := by
  have hnamed := h.toNamed.createProgram
  unfold SoftDriver.createProgram at hnamed ⊢
  split at hnamed
  . next hname =>
    rw [if_pos hname]
    -- the name is fresh, and the program has nothing attached
    have hfresh : d.programs.get? ⟨d.lastName + 1, by omega⟩ = none :=
      h.program_fresh (Nat.lt_succ_self _)
    constructor
    . exact hnamed
    . exact h.nodup_stages
    . exact Table.nodup_keys_insert h.nodup_programs hfresh _
    . intro stage handle s o hs ho
      rcases Table.get?_insert_eq_some ho with ⟨rfl, _⟩ | ho
      . have := h.stage_le hs
        dsimp only
        omega
      . exact h.raw_ne hs ho
    . intro handle o ho
      rcases Table.get?_insert_eq_some ho with ⟨_, rfl⟩ | ho
      . exact .nil
      . exact h.nodup_attached ho
    . intro handle o stage ho hattached
      rcases Table.get?_insert_eq_some ho with ⟨_, rfl⟩ | ho
      . cases hattached
      . exact h.stage_of_attached ho hattached
    . intro stage s hs
      unfold attachCount
      dsimp only
      rw [Table.countP_insert_of_fresh hfresh, h.attachments_eq hs]
      simp [attachCount, ProgramObject.new]
    . exact h.attachments_pos
  . next hname =>
    rw [if_neg hname]
    exact h

theorem createStage (h : d.Consistent) (stage : Stage) : (d.createStage stage).2.Consistent := by
  have hnamed := h.toNamed.createStage stage
  unfold SoftDriver.createStage at hnamed ⊢
  split at hnamed
  . next hname =>
    rw [if_pos hname]
    have hfresh : d.stages.get? ⟨d.lastName + 1, by omega⟩ = none :=
      h.stage_fresh (Nat.lt_succ_self _)
    constructor
    . exact hnamed
    . exact Table.nodup_keys_insert h.nodup_stages hfresh _
    . exact h.nodup_programs
    . intro handle program s o hs ho
      rcases Table.get?_insert_eq_some hs with ⟨rfl, _⟩ | hs
      . have := h.program_le ho
        dsimp only
        omega
      . exact h.raw_ne hs ho
    . exact h.nodup_attached
    . intro program o handle ho hattached
      rcases h.stage_of_attached ho hattached with ⟨s, hs⟩
      refine ⟨s, ?_⟩
      rw [Table.get?_insert, if_neg, hs]
      intro heq
      rw [← heq, hfresh] at hs
      cases hs
    . intro handle s hs
      rcases Table.get?_insert_eq_some hs with ⟨rfl, rfl⟩ | hs
      . exact (h.attachCount_eq_zero hfresh).symm
      . exact h.attachments_eq hs
    . intro handle s hs hdeleted
      rcases Table.get?_insert_eq_some hs with ⟨rfl, rfl⟩ | hs
      . cases hdeleted
      . exact h.attachments_pos hs hdeleted
  . next hname =>
    rw [if_neg hname]
    exact h

theorem attachStage (h : d.Consistent) (program : ProgramHandle) (stage : StageHandle) :
    (d.attachStage program stage).Consistent := by
  have hnamed := (NothingNew.attachStage d program stage).named h.toNamed
  unfold SoftDriver.attachStage at hnamed ⊢
  split at hnamed
  . next o s ho hs =>
    split at hnamed
    . next hattached =>
      rw [if_pos hattached]
      exact h
    . next hattached =>
      rw [if_neg hattached]
      constructor
      . exact hnamed
      . rw [Table.keys_modify]
        exact h.nodup_stages
      . rw [Table.keys_modify]
        exact h.nodup_programs
      . intro handle other s' o' hs' ho'
        rcases Table.get?_modify_eq_some hs' with ⟨s₁, hs₁, _⟩
        rcases Table.get?_modify_eq_some ho' with ⟨o₁, ho₁, _⟩
        exact h.raw_ne hs₁ ho₁
      . intro other o' ho'
        rcases Table.get?_modify_eq_some ho' with ⟨o₁, ho₁, rfl⟩
        split
        . next heq =>
          rw [heq, ho] at ho₁
          cases ho₁
          rw [(List.perm_append_singleton _ _).nodup_iff, List.nodup_cons]
          exact ⟨hattached, h.nodup_attached ho⟩
        . exact h.nodup_attached ho₁
      . intro other o' handle ho' hmem
        rw [Table.exists_get?_modify_iff]
        rcases Table.get?_modify_eq_some ho' with ⟨o₁, ho₁, rfl⟩
        by_cases heq : handle = stage
        . rw [heq]
          exact ⟨s, hs⟩
        . apply h.stage_of_attached ho₁
          split at hmem
          . simpa [heq] using hmem
          . exact hmem
      . intro handle s' hs'
        rcases Table.get?_modify_eq_some hs' with ⟨s₁, hs₁, rfl⟩
        have hcount := attachCount_modify h.nodup_programs ho
          (fun o => { o with attached := o.attached ++ [stage] }) handle
        have := h.attachments_eq hs₁
        unfold attachCount at hcount this ⊢
        dsimp only at hcount ⊢
        by_cases heq : handle = stage
        . subst heq
          simp [hattached] at hcount ⊢
          omega
        . simp [heq] at hcount ⊢
          omega
      . intro handle s' hs' hdeleted
        rcases Table.get?_modify_eq_some hs' with ⟨s₁, hs₁, rfl⟩
        split
        . apply Nat.succ_pos
        . next hne =>
          rw [if_neg hne] at hdeleted
          exact h.attachments_pos hs₁ hdeleted
  . exact h

end Consistent
end SoftDriver
end ShaderBuild
