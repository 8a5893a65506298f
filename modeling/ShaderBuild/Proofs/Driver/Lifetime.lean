import ShaderBuild.Proofs.Driver.Link
import ShaderBuild.Proofs.Driver.Teardown

/-!
This module contains the lifetime of stage objects. A stage lives until it is both deleted and
attached to no program, and its attachments are counted right up to that point.
-/

namespace ShaderBuild
namespace SoftDriver

variable {d : SoftDriver} {program : ProgramHandle} {stage : StageHandle}
variable {o : ProgramObject} {s : StageObject}

/--
The call asks for the deletion of the stage, or an earlier one did.
-/
def Doomed (s : StageObject) (call : Call) (stage : StageHandle) : Prop :=
  s.deletePending = true ∨ call = .deleteStage stage

namespace Consistent

theorem attachments_pos_of_mem (h : d.Consistent) (hget : d.programs.get? program = some o)
    (hattached : stage ∈ o.attached) :
    ∃ s, d.stages.get? stage = some s ∧ 0 < s.attachments := by
  rcases h.stage_of_attached hget hattached with ⟨s, hs⟩
  refine ⟨s, hs, ?_⟩
  rw [h.attachments_eq hs, attachCount_pos_iff h.nodup_programs]
  exact ⟨program, o, hget, hattached⟩

/--
When a program is deleted, each of its stages still counts it when its turn comes.
-/
theorem attachments_pos_of_prefix {before after : List StageHandle} (h : d.Consistent)
    (hget : d.programs.get? program = some o) (hattached : o.attached = before ++ stage :: after) :
    ∃ s, (before.foldl unattach
        { d with programs := d.programs.erase program }).stages.get? stage = some s ∧
      0 < s.attachments := by
  induction before generalizing d o with
  | nil =>
    apply h.attachments_pos_of_mem hget
    simp [hattached]
  | cons first rest ih =>
    have hmem : first ∈ o.attached := by simp [hattached]
    rw [List.foldl_cons, unattach_erase hget hmem]
    have hdetached := h.call (fun _ _ => .error []) (.detachStage program first)
    apply ih hdetached (get?_detachStage_of_mem hget hmem)
    simp [hattached]

theorem exists_stage_createStage (h : d.Consistent) (kind : Stage)
    (hs : d.stages.get? stage = some s) : (d.createStage kind).2.stages.get? stage = some s := by
  unfold SoftDriver.createStage
  split
  . rw [Table.get?_insert, if_neg]
    . exact hs
    . rintro rfl
      have := h.stage_le hs
      dsimp only at this
      omega
  . exact hs

theorem stage_of_keepsShape (frontEnd : FrontEnd) {call : Call} (hcall : call.keepsShape = true)
    (hs : d.stages.get? stage = some s) :
    ∃ s', ((driver frontEnd call).run d).2.stages.get? stage = some s' ∧
      (s'.deletePending = true ↔ Doomed s call stage) := by
  have hne : call ≠ .deleteStage stage := by
    rintro rfl
    cases hcall
  rcases (SameShape.call d frontEnd hcall).exists_stage hs with ⟨s', hs', _, heq⟩
  refine ⟨s', hs', ?_⟩
  unfold Doomed
  rw [heq, or_iff_left hne]

theorem stage_of_isTeardown (h : d.Consistent) (frontEnd : FrontEnd) {call : Call}
    (hcall : call.isTeardown = true) (hs : d.stages.get? stage = some s) :
    ((driver frontEnd call).run d).2.stages.get? stage = none ∧ Doomed s call stage ∧
        ((driver frontEnd call).run d).2.attachCount stage = 0 ∨
      ∃ s', ((driver frontEnd call).run d).2.stages.get? stage = some s' ∧
        (s'.deletePending = true ↔ Doomed s call stage) := by
  have hdoomed : (s.deletePending || decide (.deleteStage stage ∈ [call])) = true
      ↔ Doomed s call stage := by
    unfold Doomed
    rw [Bool.or_eq_true, decide_eq_true_iff, List.mem_singleton, eq_comm (b := call)]
  rw [h.call_of_isTeardown frontEnd hcall, h.get?_stages_tornDown, hs, Option.bind_some]
  unfold stageLeft StageObject.isUnused
  dsimp only
  split
  . next hunused =>
    rw [Bool.and_eq_true, decide_eq_true_iff, hdoomed] at hunused
    exact .inl ⟨rfl, hunused⟩
  . exact .inr ⟨_, rfl, hdoomed⟩

/--
What becomes of a stage in a call.
-/
theorem stage_of_call (h : d.Consistent) (frontEnd : FrontEnd) (call : Call)
    (hs : d.stages.get? stage = some s) :
    ((driver frontEnd call).run d).2.stages.get? stage = none ∧ Doomed s call stage ∧
        ((driver frontEnd call).run d).2.attachCount stage = 0 ∨
      ∃ s', ((driver frontEnd call).run d).2.stages.get? stage = some s' ∧
        (s'.deletePending = true ↔ Doomed s call stage) := by
  cases call with
  | detachStage program stage => exact h.stage_of_isTeardown frontEnd rfl hs
  | deleteStage stage => exact h.stage_of_isTeardown frontEnd rfl hs
  | deleteProgram program => exact h.stage_of_isTeardown frontEnd rfl hs
  | createProgram =>
    refine .inr ⟨s, ?_, by simp [Doomed]⟩
    show d.createProgram.2.stages.get? stage = some s
    unfold SoftDriver.createProgram
    split
    . exact hs
    . exact hs
  | createStage kind =>
    exact .inr ⟨s, h.exists_stage_createStage kind hs, by simp [Doomed]⟩
  | attachStage program other =>
    have hkept : ∃ s', (d.attachStage program other).stages.get? stage = some s' ∧
        s'.deletePending = s.deletePending := by
      unfold SoftDriver.attachStage
      split
      . split
        . exact ⟨s, hs, rfl⟩
        . rw [Table.get?_modify]
          split
          . rw [hs]
            exact ⟨_, rfl, rfl⟩
          . exact ⟨s, hs, rfl⟩
      . exact ⟨s, hs, rfl⟩
    rcases hkept with ⟨s', hs', heq⟩
    exact .inr ⟨s', hs', by simp [Doomed, heq]⟩
  | _ => exact .inr (stage_of_keepsShape frontEnd rfl hs)

theorem stage_freed_iff (h : d.Consistent) (frontEnd : FrontEnd) (call : Call)
    (hs : d.stages.get? stage = some s) :
    ((driver frontEnd call).run d).2.stages.get? stage = none
      ↔
    Doomed s call stage ∧ ((driver frontEnd call).run d).2.attachCount stage = 0 := by
  have hafter := h.call frontEnd call
  rcases h.stage_of_call frontEnd call hs with ⟨hnone, hfreed⟩ | ⟨s', hs', hpending⟩
  . simp only [hnone, hfreed, and_self]
  . constructor
    . intro hnone
      rw [hs'] at hnone
      cases hnone
    . rintro ⟨hdoomed, hcount⟩
      -- a stage that is still there although it is deleted has attachments
      have hpos := hafter.attachments_pos hs' (hpending.mpr hdoomed)
      rw [hafter.attachments_eq hs'] at hpos
      omega

end Consistent

/--
In every state that calls lead to, attachments are counted right, so that no count is lowered below
zero, neither by detaching a stage nor while the stages of a deleted program are detached one after
the other. No link misses a stage. A stage is freed in the call after which it is both deleted and
attached to no program, and in no other call.
-/
theorem Reachable.attachments_counted {frontEnd : FrontEnd} (h : Reachable frontEnd d) :
    d.Consistent ∧
      (∀ program o stage, d.programs.get? program = some o → stage ∈ o.attached →
        ∃ s, d.stages.get? stage = some s ∧ 0 < s.attachments) ∧
      (∀ program o before stage after, d.programs.get? program = some o →
        o.attached = before ++ stage :: after →
          ∃ s, (before.foldl unattach
              { d with programs := d.programs.erase program }).stages.get? stage = some s ∧
            0 < s.attachments) ∧
      (∀ program o errors handle, d.programs.get? program = some o →
        d.link o.attached = .error errors → .missingStage handle ∉ errors) ∧
      ∀ call stage s d', d.stages.get? stage = some s → ((driver frontEnd call).run d).2 = d' →
        (d'.stages.get? stage = none ↔ Doomed s call stage ∧ d'.attachCount stage = 0) ∧
          ∀ s', d'.stages.get? stage = some s' →
            (s'.deletePending = true ↔ Doomed s call stage) := by
  have hconsistent := h.consistent
  refine ⟨hconsistent, ?_, ?_, ?_, ?_⟩
  . intro program o stage hget hattached
    exact hconsistent.attachments_pos_of_mem hget hattached
  . intro program o before stage after hget hattached
    exact hconsistent.attachments_pos_of_prefix hget hattached
  . intro program o errors handle hget hlink
    apply missingStage_notMem_of_link _ hlink
    intro stage hattached
    exact hconsistent.stage_of_attached hget hattached
  . rintro call stage s _ hs rfl
    refine ⟨hconsistent.stage_freed_iff frontEnd call hs, ?_⟩
    intro s' hs'
    rcases hconsistent.stage_of_call frontEnd call hs with ⟨hnone, _⟩ | ⟨s₁, hs₁, hpending⟩
    . rw [hnone] at hs'
      cases hs'
    . rw [hs₁] at hs'
      cases hs'
      exact hpending

/--
A stage that is deleted while it is attached counts its program, and detaching it frees it.
-/
theorem attachments_counted_deferred :
    let frontEnd : FrontEnd := fun _ _ => .ok ⟨[], none⟩
    let program : ProgramHandle := ⟨1, by decide⟩
    let stage : StageHandle := ⟨2, by decide⟩
    let d := new.after frontEnd [.createProgram, .createStage .vertex, .attachStage program stage,
      .deleteStage stage]
    Reachable frontEnd d ∧ d.Consistent ∧
      d.stages.get? stage
          = some { StageObject.new .vertex with attachments := 1, deletePending := true } ∧
        (d.detachStage program stage).stages.get? stage = none := by
  intro frontEnd program stage d
  have hreachable : Reachable frontEnd d := Reachable.new.after _
  have hstage : d.stages.get? stage
      = some { StageObject.new .vertex with attachments := 1, deletePending := true } := by
    dsimp only [d, frontEnd, program, stage]
    rfl
  have hcount : (d.detachStage program stage).attachCount stage = 0 := by
    dsimp only [d, frontEnd, program, stage]
    rfl
  have h := hreachable.attachments_counted
  have hfreed := (h.2.2.2.2 (.detachStage program stage) stage _ _ hstage rfl).1
  exact ⟨hreachable, h.1, hstage, hfreed.mpr ⟨.inl rfl, hcount⟩⟩

end SoftDriver
end ShaderBuild
