import Mathlib.Data.List.Nodup
import ShaderBuild.Proofs.Link

/-!
This module contains what is wrong with a list of stages that do not form a program. Of several
things that are wrong it is settled which one is reported.
-/

namespace ShaderBuild
namespace Link

variable {stages : List Stage} {stage : Stage} {e : LinkError}

/--
The stage at the given position is at an earlier position too, and no stage before it is.
-/
structure IsFirstRepeat (stages : List Stage) (position : Nat) (stage : Stage) : Prop where
  getElem?_eq : stages[position]? = some stage
  earlier : ∃ i < position, stages[i]? = some stage
  least : ∀ j < position, ∀ i < j, stages[i]? ≠ stages[j]?

theorem isFirstRepeat_append {before after : List Stage} (hnodup : before.Nodup)
    (hmem : stage ∈ before) :
    IsFirstRepeat (before ++ stage :: after) before.length stage where
  getElem?_eq := by simp
  earlier := by
    rcases List.getElem?_of_mem hmem with ⟨i, hi⟩
    have hlt := (List.getElem?_eq_some_iff.mp hi).1
    exact ⟨i, hlt, by rw [List.getElem?_append_left hlt, hi]⟩
  least := by
    intro j hj i hi
    rw [List.getElem?_append_left hj, List.getElem?_append_left (Nat.lt_trans hi hj)]
    exact List.nodup_iff_getElem?_ne_getElem?.mp hnodup i j hi hj

theorem IsFirstRepeat.exists_append {position : Nat} (h : IsFirstRepeat stages position stage) :
    ∃ before after, stages = before ++ stage :: after ∧ before.Nodup ∧ stage ∈ before := by
  rcases h with ⟨hget, ⟨i, hi, hearlier⟩, hleast⟩
  rcases List.getElem?_eq_some_iff.mp hget with ⟨hlt, rfl⟩
  refine ⟨stages.take position, stages.drop (position + 1), ?_, ?_, ?_⟩
  . rw [← List.drop_eq_getElem_cons, List.take_append_drop]
  . rw [List.nodup_iff_getElem?_ne_getElem?]
    intro i j hij hj
    rw [List.length_take] at hj
    rw [List.getElem?_take_of_lt (by omega), List.getElem?_take_of_lt (by omega)]
    exact hleast j (by omega) i hij
  . apply List.mem_of_getElem?
    rw [List.getElem?_take_of_lt hi, hearlier]

/--
As their GL values tell stages apart, it makes no difference to search the stages that were passed
for a stage or their values for its value.
-/
theorem firstRepeated?_cons_glEnum (seen : List Stage) (stage : Stage) (rest : List Stage) :
    firstRepeated? seen (stage :: rest) =
      if stage.glEnum ∈ seen.map Stage.glEnum then some stage
      else firstRepeated? (stage :: seen) rest := by
  rw [firstRepeated?]
  simp only [List.mem_map_of_injective fun _ _ => Stage.glEnum_injective]

theorem firstRepeated?_append {seen before : List Stage} (hnodup : before.Nodup)
    (hseen : ∀ other ∈ before, other ∉ seen) (hstage : stage ∈ seen ∨ stage ∈ before)
    (after : List Stage) : firstRepeated? seen (before ++ stage :: after) = some stage := by
  induction before generalizing seen with
  | nil =>
    rw [or_iff_left List.not_mem_nil] at hstage
    rw [List.nil_append, firstRepeated?, if_pos hstage]
  | cons first before ih =>
    rw [List.nodup_cons] at hnodup
    rw [List.forall_mem_cons] at hseen
    rw [List.cons_append, firstRepeated?, if_neg hseen.1]
    apply ih hnodup.2
    . intro other hmem hother
      rw [List.mem_cons] at hother
      rcases hother with rfl | hother
      . exact hnodup.1 hmem
      . exact hseen.2 other hmem hother
    . rw [List.mem_cons] at hstage ⊢
      tauto

theorem exists_append_of_firstRepeated? {seen : List Stage}
    (h : firstRepeated? seen stages = some stage) :
    ∃ before after,
      stages = before ++ stage :: after ∧ before.Nodup ∧ (∀ other ∈ before, other ∉ seen) ∧
        (stage ∈ seen ∨ stage ∈ before) := by
  induction stages generalizing seen with
  | nil => cases h
  | cons first rest ih =>
    unfold firstRepeated? at h
    split at h
    . next hfirst =>
      cases h
      exact ⟨[], rest, rfl, .nil, by simp, .inl hfirst⟩
    . next hfirst =>
      rcases ih h with ⟨before, after, rfl, hnodup, hseen, hstage⟩
      refine ⟨first :: before, after, rfl, ?_, ?_, ?_⟩
      . rw [List.nodup_cons]
        exact ⟨fun hmem => hseen first hmem List.mem_cons_self, hnodup⟩
      . rw [List.forall_mem_cons]
        exact ⟨hfirst, fun other hmem hother => hseen other hmem (List.mem_cons_of_mem _ hother)⟩
      . rw [List.mem_cons] at hstage ⊢
        tauto

theorem firstRepeated?_nil_eq_some_iff :
    firstRepeated? [] stages = some stage ↔ ∃ position, IsFirstRepeat stages position stage := by
  constructor
  . intro h
    rcases exists_append_of_firstRepeated? h with ⟨before, after, rfl, hnodup, _, hstage⟩
    rw [or_iff_right List.not_mem_nil] at hstage
    exact ⟨before.length, isFirstRepeat_append hnodup hstage⟩
  . rintro ⟨position, h⟩
    rcases h.exists_append with ⟨before, after, rfl, hnodup, hmem⟩
    exact firstRepeated?_append hnodup (fun _ _ => List.not_mem_nil) (.inr hmem) after

/--
What is reported of stages that do not form a program.
-/
inductive StagesFault (stages : List Stage) : LinkError → Prop
  | noStages : stages = [] → StagesFault stages .noStages
  | duplicateStage {position : Nat} {stage : Stage} :
    IsFirstRepeat stages position stage → StagesFault stages (.duplicateStage stage)
  | mixedPipeline :
    stages.Nodup → .compute ∈ stages → stages ≠ [.compute] → StagesFault stages .mixedPipeline
  | missingVertexStage :
    stages ≠ [] → stages.Nodup → .compute ∉ stages → .vertex ∉ stages →
      StagesFault stages .missingVertexStage

theorem checkStages_of_nodup (hne : stages ≠ []) (hnodup : stages.Nodup) :
    checkStages stages =
      if .compute ∈ stages then
        if stages.length > 1 then .error .mixedPipeline else .ok ()
      else if .vertex ∈ stages then .ok ()
      else .error .missingVertexStage := by
  have hnone : firstRepeated? [] stages = none :=
    firstRepeated?_eq_none_iff.mpr ⟨hnodup, fun _ _ => List.not_mem_nil⟩
  unfold checkStages
  rw [if_neg (by simpa using hne), hnone]

theorem checkStages_of_fault (h : StagesFault stages e) : checkStages stages = .error e := by
  cases h with
  | noStages hnil =>
    rw [hnil]
    rfl
  | duplicateStage hrepeat =>
    have hne : stages ≠ [] := by
      rintro rfl
      cases hrepeat.getElem?_eq
    unfold checkStages
    rw [if_neg (by simpa using hne), firstRepeated?_nil_eq_some_iff.mpr ⟨_, hrepeat⟩]
  | mixedPipeline hnodup hcompute halone =>
    have hne := List.ne_nil_of_mem hcompute
    have hlength : stages.length > 1 := by
      by_contra hshort
      have hpos := List.length_pos_iff.mpr hne
      rcases List.length_eq_one_iff.mp (by omega : stages.length = 1) with ⟨only, rfl⟩
      exact halone (List.mem_singleton.mp hcompute ▸ rfl)
    rw [checkStages_of_nodup hne hnodup, if_pos hcompute, if_pos hlength]
  | missingVertexStage hne hnodup hcompute hvertex =>
    rw [checkStages_of_nodup hne hnodup, if_neg hcompute, if_neg hvertex]

theorem fault_of_checkStages (h : checkStages stages = .error e) : StagesFault stages e := by
  unfold checkStages at h
  split at h
  . next hempty =>
    cases h
    exact .noStages (List.isEmpty_iff.mp hempty)
  . next hne =>
    split at h
    . next stage hrepeated =>
      cases h
      rcases firstRepeated?_nil_eq_some_iff.mp hrepeated with ⟨position, hrepeat⟩
      exact .duplicateStage hrepeat
    . next hnone =>
      have hnodup := (firstRepeated?_eq_none_iff.mp hnone).1
      split at h
      . next hcompute =>
        split at h
        . next hlength =>
          cases h
          refine .mixedPipeline hnodup hcompute ?_
          rintro rfl
          exact Nat.lt_irrefl 1 hlength
        . cases h
      . next hcompute =>
        split at h
        . cases h
        . next hvertex =>
          cases h
          exact .missingVertexStage (by simpa using hne) hnodup hcompute hvertex

/--
Stages form a program if they are a compute shader alone, or have a vertex shader, no compute shader
and no stage twice. Their order does not matter for that. Of any others it is reported that there are
none, or else which stage is the first to be repeated, or else that there is a compute shader among
them, or else that there is no vertex shader.
-/
theorem checkStages_exact (stages : List Stage) :
    (checkStages stages = .ok ()
        ↔
      stages = [.compute] ∨ stages.Nodup ∧ .vertex ∈ stages ∧ .compute ∉ stages) ∧
      (∀ other, stages.Perm other →
        (checkStages other = .ok () ↔ checkStages stages = .ok ())) ∧
      ∀ e, checkStages stages = .error e ↔ StagesFault stages e := by
  refine ⟨checkStages_eq_ok_iff, ?_, ?_⟩
  . intro other hperm
    rw [checkStages_eq_ok_iff, checkStages_eq_ok_iff, hperm.nodup_iff, hperm.mem_iff, hperm.mem_iff]
    apply or_congr_left
    constructor
    . rintro rfl
      exact List.perm_singleton.mp hperm
    . rintro rfl
      exact List.perm_singleton.mp hperm.symm
  . intro e
    exact ⟨fault_of_checkStages, checkStages_of_fault⟩

/--
A fragment shader comes a second time before the vertex shader does, next to a compute shader.
-/
example :
    checkStages [.vertex, .compute, .fragment, .fragment, .vertex]
      = .error (.duplicateStage .fragment) := by
  decide

end Link
end ShaderBuild
