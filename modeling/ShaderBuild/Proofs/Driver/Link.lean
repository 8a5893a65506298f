import ShaderBuild.Driver.Soft
import ShaderBuild.Proofs.Except
import ShaderBuild.Proofs.Link

/-!
This module contains what attached stages link to, and what is reported if they do not link.
-/

namespace ShaderBuild

open SoftDriver

namespace Link

/--
The conditions under which compiled stages form a program.
-/
def check (stages : List (Stage × ShaderModule)) : Except (List LinkError) Unit := do
  (checkStages (stages.map Prod.fst)).mapError ([·])
  match moduleOf? .vertex stages, moduleOf? .fragment stages with
  | some vertex, some fragment => checkInterface vertex fragment
  | _, _ => pure ()

variable {stages : List (Stage × ShaderModule)} {errors : List LinkError}

theorem check_eq_ok_iff :
    check stages = .ok ()
      ↔
    checkStages (stages.map Prod.fst) = .ok () ∧
      ∀ vertex fragment, moduleOf? .vertex stages = some vertex →
        moduleOf? .fragment stages = some fragment → checkInterface vertex fragment = .ok () := by
  unfold check
  rw [bind_eq_ok_iff]
  simp only [mapError_eq_ok_iff]
  constructor
  . rintro ⟨⟨⟩, hstages, hinterface⟩
    refine ⟨hstages, ?_⟩
    intro vertex fragment hvertex hfragment
    rw [hvertex, hfragment] at hinterface
    exact hinterface
  . rintro ⟨hstages, hinterface⟩
    refine ⟨(), hstages, ?_⟩
    split
    . next vertex fragment hvertex hfragment => exact hinterface _ _ hvertex hfragment
    . rfl

theorem check_eq_error_iff :
    check stages = .error errors
      ↔
    (∃ e, checkStages (stages.map Prod.fst) = .error e ∧ [e] = errors) ∨
      checkStages (stages.map Prod.fst) = .ok () ∧
        ∃ vertex fragment, moduleOf? .vertex stages = some vertex ∧
          moduleOf? .fragment stages = some fragment ∧
          checkInterface vertex fragment = .error errors := by
  unfold check
  rw [bind_eq_error_iff, mapError_eq_error_iff]
  simp only [mapError_eq_ok_iff]
  apply or_congr_right
  constructor
  . rintro ⟨⟨⟩, hstages, hinterface⟩
    split at hinterface
    . next vertex fragment hvertex hfragment =>
      exact ⟨hstages, vertex, fragment, hvertex, hfragment, hinterface⟩
    . cases hinterface
  . rintro ⟨hstages, vertex, fragment, hvertex, hfragment, hinterface⟩
    refine ⟨(), hstages, ?_⟩
    rw [hvertex, hfragment]
    exact hinterface

theorem missingStage_notMem_of_check (h : check stages = .error errors) (handle : StageHandle) :
    .missingStage handle ∉ errors := by
  rw [check_eq_error_iff] at h
  rcases h with ⟨e, hstages, rfl⟩ | ⟨_, vertex, fragment, _, _, hinterface⟩
  . rw [List.mem_singleton]
    rintro rfl
    exact checkStages_ne_missingStage _ _ hstages
  . rw [checkInterface_eq_error_iff] at hinterface
    rw [hinterface.2]
    simp

theorem moduleOf?_of_mem {stage : Stage} {parsed : ShaderModule}
    (hnodup : (stages.map Prod.fst).Nodup) (hmem : (stage, parsed) ∈ stages) :
    moduleOf? stage stages = some parsed := by
  unfold moduleOf?
  induction stages with
  | nil => cases hmem
  | cons entry rest ih =>
    rw [List.map_cons, List.nodup_cons] at hnodup
    rw [List.mem_cons] at hmem
    rcases hmem with rfl | hmem
    . simp
    . have hstage : stage ∈ rest.map Prod.fst := List.mem_map.mpr ⟨_, hmem, rfl⟩
      have hne : entry.1 ≠ stage := (ne_of_mem_of_not_mem hstage hnodup.1).symm
      rw [List.find?_cons_of_neg (by simpa using hne)]
      exact ih hnodup.2 hmem

end Link

namespace SoftDriver

variable {d : SoftDriver} {attached : List StageHandle} {linked : List (Stage × ShaderModule)}
variable {errors : List LinkError}

theorem link_eq (d : SoftDriver) (attached : List StageHandle) :
    d.link attached
      =
    ((d.compiledStages attached).mapError ([·]) >>= fun stages =>
      Link.check stages >>= fun _ => pure stages) := by
  unfold link Link.check
  cases d.compiledStages attached with
  | error e => rfl
  | ok stages =>
    dsimp only [Except.mapError, bind, Except.bind]
    cases Link.checkStages (stages.map Prod.fst) with
    | error e => rfl
    | ok _ =>
      cases moduleOf? .vertex stages with
      | none => rfl
      | some vertex =>
        cases moduleOf? .fragment stages with
        | none => rfl
        | some fragment => rfl

theorem link_eq_ok_iff :
    d.link attached = .ok linked
      ↔
    d.compiledStages attached = .ok linked ∧ Link.check linked = .ok () := by
  rw [link_eq, bind_eq_ok_iff]
  simp only [mapError_eq_ok_iff, bind_eq_ok_iff, pure_eq_ok_iff]
  constructor
  . rintro ⟨stages, hcompiled, _, hcheck, rfl⟩
    exact ⟨hcompiled, hcheck⟩
  . rintro ⟨hcompiled, hcheck⟩
    exact ⟨linked, hcompiled, (), hcheck, rfl⟩

theorem link_eq_error_iff :
    d.link attached = .error errors
      ↔
    (∃ e, d.compiledStages attached = .error e ∧ [e] = errors) ∨
      ∃ stages, d.compiledStages attached = .ok stages ∧ Link.check stages = .error errors := by
  rw [link_eq, bind_eq_error_iff, mapError_eq_error_iff]
  simp only [mapError_eq_ok_iff, bind_eq_error_iff]
  apply or_congr_right
  constructor
  . rintro ⟨stages, hcompiled, hcheck | ⟨_, _, hpure⟩⟩
    . exact ⟨stages, hcompiled, hcheck⟩
    . cases hpure
  . rintro ⟨stages, hcompiled, hcheck⟩
    exact ⟨stages, hcompiled, .inl hcheck⟩

/--
The compiled module of a stage, or why there is none.
-/
def compiledStage (d : SoftDriver) (handle : StageHandle) : Except LinkError (Stage × ShaderModule) :=
  match d.stages.get? handle with
  | none => .error (.missingStage handle)
  | some s =>
    match s.module? with
    | none => .error (.notCompiled s.stage handle)
    | some compiled => .ok (s.stage, compiled)

theorem compiledStages_eq_mapM (d : SoftDriver) (attached : List StageHandle) :
    d.compiledStages attached = attached.mapM d.compiledStage := by
  induction attached with
  | nil => rfl
  | cons handle rest ih =>
    rw [compiledStages, List.mapM_cons, ih]
    unfold compiledStage
    cases d.stages.get? handle with
    | none => rfl
    | some s =>
      dsimp only
      cases s.module? with
      | none => rfl
      | some compiled => rfl

/--
The handle denotes a stage object of that stage with that module.
-/
def Compiled (d : SoftDriver) (handle : StageHandle) (entry : Stage × ShaderModule) : Prop :=
  ∃ s, d.stages.get? handle = some s ∧ s.stage = entry.1 ∧ s.module? = some entry.2

theorem compiledStage_eq_ok_iff {handle : StageHandle} {entry : Stage × ShaderModule} :
    d.compiledStage handle = .ok entry ↔ d.Compiled handle entry := by
  rcases entry with ⟨stage, parsed⟩
  unfold compiledStage Compiled
  cases d.stages.get? handle with
  | none => simp
  | some s => cases hmodule : s.module? <;> simp [hmodule]

theorem compiledStage_eq_error_iff {handle : StageHandle} {e : LinkError} :
    d.compiledStage handle = .error e
      ↔
    (d.stages.get? handle = none ∧ e = .missingStage handle) ∨
      ∃ s, d.stages.get? handle = some s ∧ s.module? = none ∧ e = .notCompiled s.stage handle := by
  unfold compiledStage
  cases d.stages.get? handle with
  | none => simp [eq_comm]
  | some s => cases hmodule : s.module? <;> simp [hmodule, eq_comm]

theorem compiledStages_eq_ok_iff :
    d.compiledStages attached = .ok linked ↔ List.Forall₂ d.Compiled attached linked := by
  rw [compiledStages_eq_mapM, mapM_eq_ok_iff]
  simp only [compiledStage_eq_ok_iff]

theorem compiledStages_eq_error_iff {e : LinkError} :
    d.compiledStages attached = .error e
      ↔
    ∃ before handle after,
      attached = before ++ handle :: after ∧ (∀ other ∈ before, ∃ entry, d.Compiled other entry) ∧
        d.compiledStage handle = .error e := by
  rw [compiledStages_eq_mapM, mapM_eq_error_iff]
  simp only [compiledStage_eq_ok_iff]

theorem compiledStages_ne_missingStage
    (hlive : ∀ stage ∈ attached, ∃ s, d.stages.get? stage = some s) (handle : StageHandle) :
    d.compiledStages attached ≠ .error (.missingStage handle) := by
  intro h
  rw [compiledStages_eq_error_iff] at h
  rcases h with ⟨before, other, after, rfl, _, herror⟩
  rcases hlive other (by simp) with ⟨s, hs⟩
  rw [compiledStage_eq_error_iff, hs] at herror
  rcases herror with ⟨hnone, _⟩ | ⟨_, _, _, he⟩
  . cases hnone
  . cases he

/--
Stages that exist are not reported as missing.
-/
theorem missingStage_notMem_of_link
    (hlive : ∀ stage ∈ attached, ∃ s, d.stages.get? stage = some s)
    (h : d.link attached = .error errors) (handle : StageHandle) :
    .missingStage handle ∉ errors := by
  rw [link_eq_error_iff] at h
  rcases h with ⟨e, hcompiled, rfl⟩ | ⟨stages, _, hcheck⟩
  . rw [List.mem_singleton]
    rintro rfl
    exact compiledStages_ne_missingStage hlive handle hcompiled
  . exact Link.missingStage_notMem_of_check hcheck handle

theorem stage_of_compiledStages {stage : Stage} {parsed : ShaderModule}
    (h : d.compiledStages attached = .ok linked) (hmem : (stage, parsed) ∈ linked) :
    ∃ handle s, d.stages.get? handle = some s ∧ s.stage = stage ∧ s.module? = some parsed := by
  rw [compiledStages_eq_ok_iff] at h
  induction h with
  | nil => cases hmem
  | cons hcompiled _ ih =>
    rw [List.mem_cons] at hmem
    rcases hmem with rfl | hmem
    . exact ⟨_, hcompiled⟩
    . exact ih hmem

end SoftDriver
end ShaderBuild
