import ShaderBuild.FrontEnd
import ShaderBuild.Link

/-!
This module contains when stages form a program, and what is reported if they do not.
-/

namespace ShaderBuild

theorem pairwise_insertAscending {ns : List Nat} (h : ns.Pairwise (· < ·)) (n : Nat) :
    (insertAscending n ns).Pairwise (· < ·) := by
  induction ns with
  | nil => simp [insertAscending]
  | cons m rest ih =>
    unfold insertAscending
    split
    . next hlt =>
      rw [List.pairwise_cons]
      refine ⟨?_, h⟩
      intro k hk
      rw [List.pairwise_cons] at h
      rw [List.mem_cons] at hk
      rcases hk with rfl | hk
      . exact hlt
      . have := h.1 k hk
        omega
    . split
      . exact h
      . rw [List.pairwise_cons] at h ⊢
        refine ⟨?_, ih h.2⟩
        intro k hk
        rw [mem_insertAscending] at hk
        rcases hk with rfl | hk
        . omega
        . exact h.1 k hk

theorem pairwise_ascending (ns : List Nat) : (ascending ns).Pairwise (· < ·) := by
  induction ns with
  | nil => exact .nil
  | cons n rest ih => exact pairwise_insertAscending ih n

namespace Link

theorem firstRepeated?_eq_none_iff {seen stages : List Stage} :
    firstRepeated? seen stages = none ↔ stages.Nodup ∧ ∀ stage ∈ stages, stage ∉ seen := by
  induction stages generalizing seen with
  | nil => simp [firstRepeated?]
  | cons stage rest ih =>
    unfold firstRepeated?
    split
    . next hseen => simp [hseen]
    . next hseen =>
      rw [ih, List.nodup_cons, List.forall_mem_cons]
      constructor
      . rintro ⟨hnodup, hrest⟩
        refine ⟨⟨?_, hnodup⟩, hseen, ?_⟩
        . intro hmem
          exact hrest stage hmem List.mem_cons_self
        . intro other hmem hother
          exact hrest other hmem (List.mem_cons_of_mem _ hother)
      . rintro ⟨⟨hnotMem, hnodup⟩, _, hrest⟩
        refine ⟨hnodup, ?_⟩
        intro other hmem hother
        rw [List.mem_cons] at hother
        rcases hother with rfl | hother
        . contradiction
        . exact hrest other hmem hother

theorem checkStages_eq_ok_iff {stages : List Stage} :
    checkStages stages = .ok ()
      ↔
    stages = [.compute] ∨ stages.Nodup ∧ .vertex ∈ stages ∧ .compute ∉ stages := by
  unfold checkStages
  split
  . next hempty =>
    rw [List.isEmpty_iff] at hempty
    simp [hempty]
  . split
    . next stage hrepeated =>
      have hnodup : ¬ stages.Nodup := by
        intro hnodup
        have hnone : firstRepeated? [] stages = none :=
          firstRepeated?_eq_none_iff.mpr ⟨hnodup, fun _ _ => List.not_mem_nil⟩
        rw [hrepeated] at hnone
        cases hnone
      constructor
      . intro h
        cases h
      . rintro (rfl | h)
        . exact absurd (by simp) hnodup
        . exact absurd h.1 hnodup
    . next hnone =>
      have hnodup := (firstRepeated?_eq_none_iff.mp hnone).1
      split
      . next hcompute =>
        rcases stages with _ | ⟨stage, _ | ⟨other, rest⟩⟩
        . cases hcompute
        . simp [List.mem_singleton.mp hcompute]
        . simp [hcompute]
      . next hgraphics =>
        have hne : stages ≠ [.compute] := by
          rintro rfl
          exact hgraphics List.mem_cons_self
        split
        . next hvertex => simp [hnodup, hvertex, hgraphics]
        . next hvertex => simp [hvertex, hne]

theorem nodup_of_checkStages {stages : List Stage} (h : checkStages stages = .ok ()) :
    stages.Nodup := by
  rw [checkStages_eq_ok_iff] at h
  rcases h with rfl | h
  . decide
  . exact h.1

theorem checkStages_ne_missingStage (stages : List Stage) (handle : StageHandle) :
    checkStages stages ≠ .error (.missingStage handle) := by
  unfold checkStages
  split
  . simp
  . split
    . simp
    . split
      . split
        . simp
        . simp
      . split
        . simp
        . simp

/--
Of the stages that the front end can parse, these are the programs.
-/
theorem pipeline_of_checkStages {stages : List Stage} (h : checkStages stages = .ok ())
    (hparsable : ∀ stage ∈ stages, stage.isParsable = true) :
    stages = [.compute] ∨ stages = [.vertex] ∨ stages = [.vertex, .fragment] ∨
      stages = [.fragment, .vertex] := by
  rw [checkStages_eq_ok_iff] at h
  rcases h with h | ⟨hnodup, hvertex, hcompute⟩
  . exact .inl h
  . have hgraphics : ∀ stage ∈ stages, stage = .vertex ∨ stage = .fragment := by
      intro stage hmem
      have hne := ne_of_mem_of_not_mem hmem hcompute
      have hstage := hparsable stage hmem
      cases stage with
      | vertex => exact .inl rfl
      | fragment => exact .inr rfl
      | compute => exact absurd rfl hne
      | _ => cases hstage
    rcases stages with _ | ⟨first, _ | ⟨second, _ | ⟨third, rest⟩⟩⟩
    . cases hvertex
    . rw [List.mem_singleton] at hvertex
      simp [← hvertex]
    . simp only [List.mem_cons, List.not_mem_nil, or_false, forall_eq_or_imp, forall_eq] at hgraphics
      rcases hgraphics with ⟨rfl | rfl, rfl | rfl⟩ <;> simp_all
    . -- there are only two stages to choose from
      simp only [List.mem_cons, forall_eq_or_imp] at hgraphics
      rcases hgraphics with ⟨rfl | rfl, rfl | rfl, rfl | rfl, _⟩ <;> simp at hnodup

theorem mem_unwrittenInputs_iff {vertex fragment : ShaderModule} {n : Nat} :
    n ∈ unwrittenInputs vertex fragment
      ↔
    n ∈ fragment.inputLocations ∧ n ∉ vertex.outputLocations := by
  unfold unwrittenInputs
  rw [List.mem_filter, decide_eq_true_iff]

theorem pairwise_unwrittenInputs (vertex fragment : ShaderModule) :
    (unwrittenInputs vertex fragment).Pairwise (· < ·) := by
  apply List.Pairwise.filter
  apply pairwise_ascending

theorem checkInterface_eq_error_iff {vertex fragment : ShaderModule} {errors : List LinkError} :
    checkInterface vertex fragment = .error errors
      ↔
    errors ≠ [] ∧ errors = (unwrittenInputs vertex fragment).map .unwrittenInput := by
  unfold checkInterface
  split
  . next h =>
    rw [h]
    simp
  . next location rest h =>
    rw [h, Except.error.injEq]
    constructor
    . rintro rfl
      simp
    . rintro ⟨_, rfl⟩
      rfl

theorem checkInterface_eq_ok_iff {vertex fragment : ShaderModule} :
    checkInterface vertex fragment = .ok ()
      ↔
    ∀ n ∈ fragment.inputLocations, n ∈ vertex.outputLocations := by
  have hnone : unwrittenInputs vertex fragment = []
      ↔ ∀ n ∈ fragment.inputLocations, n ∈ vertex.outputLocations := by
    unfold unwrittenInputs
    simp [List.filter_eq_nil_iff]
  rw [← hnone]
  unfold checkInterface
  split
  . next h => simp [h]
  . next location rest h => simp [h]

end Link
end ShaderBuild
