import ShaderBuild.Proofs.Driver.Names
import ShaderBuild.Proofs.Strict.Consistent

/-!
This module contains runs of the software driver that follow runs of the strict driver. As long as
the strict driver notices no misuse, both drivers have the same objects under other names, so what
is found out with the strict driver holds for the software driver too.
-/

namespace ShaderBuild

/--
How the objects of one driver are called by another driver.
-/
structure Renaming where
  stage : StageHandle → StageHandle
  program : ProgramHandle → ProgramHandle

namespace Call

/--
The call on the objects as the other driver calls them.
-/
def rename (ρ : Renaming) : Call → Call
  | createProgram => createProgram
  | createStage kind => createStage kind
  | setSource stage text => setSource (ρ.stage stage) text
  | compileStage stage => compileStage (ρ.stage stage)
  | compileStatus stage => compileStatus (ρ.stage stage)
  | compileLog stage => compileLog (ρ.stage stage)
  | attachStage program stage => attachStage (ρ.program program) (ρ.stage stage)
  | detachStage program stage => detachStage (ρ.program program) (ρ.stage stage)
  | deleteStage stage => deleteStage (ρ.stage stage)
  | linkProgram program => linkProgram (ρ.program program)
  | linkStatus program => linkStatus (ρ.program program)
  | programLog program => programLog (ρ.program program)
  | validateProgram program => validateProgram (ρ.program program)
  | validateStatus program => validateStatus (ρ.program program)
  | deleteProgram program => deleteProgram (ρ.program program)

/--
The call asks for no stage that front ends cannot parse.
-/
def isParsable : Call → Bool
  | createStage kind => kind.isParsable
  | _ => true

@[simp]
theorem isCreation_rename (call : Call) (ρ : Renaming) :
    (call.rename ρ).isCreation = call.isCreation := by
  cases call <;> rfl

end Call

namespace Renaming

/--
Once both drivers have created an object, the name that the one gave to it stands for the name that
the other gave to it.
-/
def learn (ρ : Renaming) : (event : Event) → (event.call.rename ρ).Answer → Renaming
  | ⟨.createProgram, some program⟩, some program' =>
    { ρ with program := Function.update ρ.program program program' }
  | ⟨.createStage _, some stage⟩, some stage' =>
    { ρ with stage := Function.update ρ.stage stage stage' }
  | _, _ => ρ

end Renaming

namespace SoftDriver

/--
Make the calls of a run of another driver, on the objects that were created at the same places.
-/
def follow (frontEnd : FrontEnd) (ρ : Renaming) (d : SoftDriver) :
    List Event → Renaming × SoftDriver
  | [] => (ρ, d)
  | event :: rest =>
    let outcome := (driver frontEnd (event.call.rename ρ)).run d
    follow frontEnd (ρ.learn event outcome.1) outcome.2 rest

end SoftDriver

/--
The two drivers have the same objects, in the order in which they were created. The same stages are
attached to the programs in the same order, and no stage is only there because it is still attached.
-/
structure Corresponds (ρ : Renaming) (m : StrictDriver) (d : SoftDriver) : Prop where
  stages_eq : d.stages.keys = m.stages.keys.map ρ.stage
  programs_eq : d.programs.keys = m.programs.keys.map ρ.program
  attached_eq {program : ProgramHandle} {p : StrictProgram} {o : ProgramObject} :
    m.programs.get? program = some p → d.programs.get? (ρ.program program) = some o →
      o.attached = p.attached.map ρ.stage
  not_pending {stage : StageHandle} {s : StageObject} :
    d.stages.get? stage = some s → s.deletePending = false

namespace Corresponds

variable {ρ : Renaming} {m m' : StrictDriver} {d d' : SoftDriver} {frontEnd : FrontEnd}
variable {stage other : StageHandle} {program : ProgramHandle} {p : StrictProgram}

theorem stage_inj (h : Corresponds ρ m d) (hd : d.Consistent) (hstage : stage ∈ m.stages.keys)
    (hother : other ∈ m.stages.keys) : ρ.stage stage = ρ.stage other ↔ stage = other := by
  have hnodup := hd.nodup_stages
  rw [h.stages_eq] at hnodup
  constructor
  . exact List.inj_on_of_nodup_map hnodup hstage hother
  . exact congrArg ρ.stage

theorem program_inj (h : Corresponds ρ m d) (hd : d.Consistent) {other : ProgramHandle}
    (hprogram : program ∈ m.programs.keys) (hother : other ∈ m.programs.keys) :
    ρ.program program = ρ.program other ↔ program = other := by
  have hnodup := hd.nodup_programs
  rw [h.programs_eq] at hnodup
  constructor
  . exact List.inj_on_of_nodup_map hnodup hprogram hother
  . exact congrArg ρ.program

theorem exists_stage (h : Corresponds ρ m d) (hstage : stage ∈ m.stages.keys) :
    ∃ s, d.stages.get? (ρ.stage stage) = some s := by
  rw [Table.exists_get?_iff_mem_keys, h.stages_eq]
  exact List.mem_map_of_mem hstage

theorem exists_program (h : Corresponds ρ m d) (hp : m.programs.get? program = some p) :
    ∃ o, d.programs.get? (ρ.program program) = some o ∧ o.attached = p.attached.map ρ.stage := by
  have hmem : ρ.program program ∈ d.programs.keys := by
    rw [h.programs_eq]
    exact List.mem_map_of_mem (Table.mem_keys_of_get? hp)
  rcases Table.exists_get?_iff_mem_keys.mpr hmem with ⟨o, ho⟩
  exact ⟨o, ho, h.attached_eq hp ho⟩

/--
Two states that have the shape of corresponding states correspond to each other.
-/
theorem of_sameShape (h : Corresponds ρ m d) (hm : StrictDriver.SameShape m m')
    (hd : SoftDriver.SameShape d d') : Corresponds ρ m' d' where
  stages_eq := by rw [hd.keys_stages, hm.keys_stages, h.stages_eq]
  programs_eq := by rw [hd.keys_programs, hm.keys_programs, h.programs_eq]
  attached_eq hp' ho' := by
    rcases hm.program_of_get? hp' with ⟨p, hp, hpeq⟩
    rcases hd.program_eq ho' with ⟨o, ho, hoeq⟩
    rw [hpeq, hoeq]
    exact h.attached_eq hp ho
  not_pending hs' := by
    rcases hd.stage_eq hs' with ⟨s, hs, _, hpending⟩
    rw [hpending]
    exact h.not_pending hs

theorem createProgram {program' : ProgramHandle} (h : Corresponds ρ m d) (hm : m.Consistent)
    (hd : d.Consistent) (hraw : program.raw = m.lastProgram + 1)
    (hrun : d.createProgram = (some program', d')) (event : Event) :
    Corresponds { ρ with program := Function.update ρ.program program program' }
      ((m.withNewProgram program).recorded event) d' := by
  rcases SoftDriver.createProgram_eq_some hrun with ⟨hraw', rfl⟩
  have hfresh : m.programs.get? program = none := hm.program_fresh (by omega)
  have hfresh' : d.programs.get? program' = none := hd.program_fresh (by omega)
  constructor
  . exact h.stages_eq
  . exact Table.keys_insert_update h.programs_eq hfresh hfresh' _ _
  . intro program₁ p₁ o₁ hp₁ ho₁
    rcases Table.get?_insert_eq_some hp₁ with ⟨rfl, rfl⟩ | hp₁
    . dsimp only [SoftDriver.withProgram] at ho₁
      rw [Function.update_self, Table.get?_insert_self] at ho₁
      cases ho₁
      rfl
    . have hne : program₁ ≠ program := ne_of_mem_of_not_mem (Table.mem_keys_of_get? hp₁)
        (Table.get?_eq_none_iff_notMem_keys.mp hfresh)
      dsimp only at ho₁
      rw [Function.update_of_ne hne] at ho₁
      rcases Table.get?_insert_eq_some ho₁ with ⟨heq, _⟩ | ho₁
      . rcases h.exists_program hp₁ with ⟨o, ho, _⟩
        rw [heq, hfresh'] at ho
        cases ho
      . exact h.attached_eq hp₁ ho₁
  . exact h.not_pending

theorem createStage {stage' : StageHandle} {kind : Stage} (h : Corresponds ρ m d)
    (hm : m.Consistent) (hd : d.Consistent) (hraw : stage.raw = m.lastStage + 1)
    (hrun : d.createStage kind = (some stage', d')) (event : Event) :
    Corresponds { ρ with stage := Function.update ρ.stage stage stage' }
      ((m.withNewStage stage kind).recorded event) d' := by
  rcases SoftDriver.createStage_eq_some hrun with ⟨hraw', rfl⟩
  have hfresh : m.stages.get? stage = none := hm.stage_fresh (by omega)
  have hfresh' : d.stages.get? stage' = none := hd.stage_fresh (by omega)
  constructor
  . exact Table.keys_insert_update h.stages_eq hfresh hfresh' _ _
  . exact h.programs_eq
  . intro program p o hp ho
    -- the new stage is not attached to anything yet
    have hnotMem := hm.notMem_attached hfresh p (Table.mem_values_of_get? hp)
    rw [Table.map_update_of_notMem hnotMem]
    exact h.attached_eq hp ho
  . intro handle s hs
    rcases Table.get?_insert_eq_some hs with ⟨_, rfl⟩ | hs
    . rfl
    . exact h.not_pending hs

/--
What both drivers do alike to the stages that are attached to a program keeps the states in
correspondence. How often the stages are attached is counted by the software driver only.
-/
theorem modify_attached (h : Corresponds ρ m d) (hd : d.Consistent)
    (hp : m.programs.get? program = some p) (attached : List StageHandle)
    {f : ProgramObject → ProgramObject} {g : StageObject → StageObject}
    (hf : ∀ o, o.attached = p.attached.map ρ.stage → (f o).attached = attached.map ρ.stage)
    (hg : ∀ s, (g s).deletePending = s.deletePending) (handle : StageHandle) (event : Event) :
    Corresponds ρ ((m.withProgram program { p with attached := attached }).recorded event)
      { d with
        stages := d.stages.modify handle g
        programs := d.programs.modify (ρ.program program) f } := by
  have hmem := Table.mem_keys_of_get? hp
  constructor
  . exact (Table.keys_modify _ _ _).trans h.stages_eq
  . show (d.programs.modify _ f).keys = (m.programs.insert program _).keys.map ρ.program
    rw [Table.keys_modify, Table.keys_insert_of_mem hmem, h.programs_eq]
  . intro program₁ p₁ o₁ hp₁ ho₁
    rcases Table.get?_modify_eq_some ho₁ with ⟨o, ho, rfl⟩
    change (m.programs.insert program _).get? program₁ = some p₁ at hp₁
    by_cases heq : program₁ = program
    . subst heq
      rw [Table.get?_insert_self] at hp₁
      cases hp₁
      rw [if_pos rfl]
      exact hf o (h.attached_eq hp ho)
    . rw [Table.get?_insert, if_neg (Ne.symm heq)] at hp₁
      rw [if_neg]
      . exact h.attached_eq hp₁ ho
      . rwa [h.program_inj hd (Table.mem_keys_of_get? hp₁) hmem]
  . intro handle₁ s₁ hs₁
    rcases Table.get?_modify_eq_some hs₁ with ⟨s, hs, rfl⟩
    split
    . rw [hg]
      exact h.not_pending hs
    . exact h.not_pending hs

theorem mem_attached_iff (h : Corresponds ρ m d) (hm : m.Consistent) (hd : d.Consistent)
    (hp : m.programs.get? program = some p) (hstage : stage ∈ m.stages.keys) :
    ρ.stage stage ∈ p.attached.map ρ.stage ↔ stage ∈ p.attached := by
  rw [List.mem_map]
  constructor
  . rintro ⟨other, hother, heq⟩
    have hlive := hm.attached_live (Table.mem_values_of_get? hp) hother
    rw [h.stage_inj hd hlive hstage] at heq
    rwa [← heq]
  . intro hattached
    exact ⟨stage, hattached, rfl⟩

theorem attachStage (h : Corresponds ρ m d) (hm : m.Consistent) (hd : d.Consistent)
    (hstage : stage ∈ m.stages.keys) (hp : m.programs.get? program = some p)
    (hattached : stage ∉ p.attached) (event : Event) :
    Corresponds ρ
      ((m.withProgram program { p with attached := p.attached ++ [stage] }).recorded event)
      (d.attachStage (ρ.program program) (ρ.stage stage)) := by
  rcases h.exists_program hp with ⟨o, ho, hoeq⟩
  rcases h.exists_stage hstage with ⟨s, hs⟩
  unfold SoftDriver.attachStage
  rw [ho, hs]
  dsimp only
  rw [if_neg]
  . apply h.modify_attached hd hp
    . intro o' ho'
      rw [ho', List.map_append]
      rfl
    . intro s'
      rfl
  . rw [hoeq, h.mem_attached_iff hm hd hp hstage]
    exact hattached

theorem releaseUnused_eq (h : Corresponds ρ m d) (handle : StageHandle) :
    d.releaseUnused handle = d := by
  unfold SoftDriver.releaseUnused
  split
  . rfl
  . next s hs =>
    unfold StageObject.isUnused
    rw [h.not_pending hs]
    rfl

theorem map_erase (h : Corresponds ρ m d) (hm : m.Consistent) (hd : d.Consistent)
    (hp : m.programs.get? program = some p) (hstage : stage ∈ p.attached) :
    (p.attached.map ρ.stage).erase (ρ.stage stage) = (p.attached.erase stage).map ρ.stage := by
  rcases h.exists_program hp with ⟨o, ho, hoeq⟩
  have hnodup := hd.nodup_attached ho
  rw [hoeq] at hnodup
  have hlive : ∀ other ∈ p.attached, other ∈ m.stages.keys := by
    intro other hother
    exact hm.attached_live (Table.mem_values_of_get? hp) hother
  have hfilter := Table.map_filter_ne fun other hother =>
    h.stage_inj hd (hlive other hother) (hlive stage hstage)
  rw [hnodup.erase_eq_filter, (List.Nodup.of_map _ hnodup).erase_eq_filter]
  simpa [bne, beq_eq_decide] using hfilter

theorem detachStage (h : Corresponds ρ m d) (hm : m.Consistent) (hd : d.Consistent)
    (hp : m.programs.get? program = some p) (hattached : stage ∈ p.attached) (event : Event) :
    Corresponds ρ
      ((m.withProgram program { p with attached := p.attached.erase stage }).recorded event)
      (d.detachStage (ρ.program program) (ρ.stage stage)) := by
  rcases h.exists_program hp with ⟨o, ho, hoeq⟩
  unfold SoftDriver.detachStage
  rw [ho]
  dsimp only
  rw [if_pos]
  . unfold SoftDriver.unattach
    have hdetached := h.modify_attached hd hp (p.attached.erase stage)
      (f := fun o => { o with attached := o.attached.erase (ρ.stage stage) })
      (g := fun s => { s with attachments := s.attachments - 1 })
      (fun o' ho' => by rw [ho', h.map_erase hm hd hp hattached]) (fun _ => rfl)
      (ρ.stage stage) event
    rw [hdetached.releaseUnused_eq]
    exact hdetached
  . rw [hoeq]
    exact List.mem_map_of_mem hattached

/--
A stage that is attached to nothing is attached to nothing in the software driver either, so it is
freed at once.
-/
theorem attachCount_eq_zero (h : Corresponds ρ m d) (hm : m.Consistent) (hd : d.Consistent)
    (hstage : stage ∈ m.stages.keys) (hunattached : ∀ p ∈ m.programs.values, stage ∉ p.attached) :
    d.attachCount (ρ.stage stage) = 0 := by
  apply Nat.eq_zero_of_not_pos
  rw [SoftDriver.attachCount_pos_iff hd.nodup_programs]
  rintro ⟨program', o, ho, hattached⟩
  have hmem := Table.mem_keys_of_get? ho
  rw [h.programs_eq, List.mem_map] at hmem
  rcases hmem with ⟨program, hprogram, rfl⟩
  rcases Table.exists_get?_iff_mem_keys.mpr hprogram with ⟨p, hp⟩
  rw [h.attached_eq hp ho, h.mem_attached_iff hm hd hp hstage] at hattached
  exact hunattached p (Table.mem_values_of_get? hp) hattached

theorem deleteStage (h : Corresponds ρ m d) (hm : m.Consistent) (hd : d.Consistent)
    (hstage : stage ∈ m.stages.keys) (hunattached : ∀ p ∈ m.programs.values, stage ∉ p.attached)
    (event : Event) :
    Corresponds ρ ({ m with stages := m.stages.erase stage }.recorded event)
      (d.deleteStage (ρ.stage stage)) := by
  rcases h.exists_stage hstage with ⟨s, hs⟩
  have hcount := hd.attachments_eq hs
  rw [h.attachCount_eq_zero hm hd hstage hunattached] at hcount
  have hfreed : d.deleteStage (ρ.stage stage)
      = { d with stages := d.stages.erase (ρ.stage stage) } := by
    unfold SoftDriver.deleteStage SoftDriver.releaseUnused
    dsimp only
    rw [Table.get?_modify, if_pos rfl, hs]
    dsimp only [Option.map_some]
    unfold StageObject.isUnused
    rw [if_pos (by simp [hcount]), Table.erase_modify_self]
  rw [hfreed]
  constructor
  . apply Table.keys_erase_map h.stages_eq
    intro other hother
    exact h.stage_inj hd hother hstage
  . exact h.programs_eq
  . exact h.attached_eq
  . intro handle s' hs'
    dsimp only at hs'
    rw [Table.get?_erase] at hs'
    split at hs'
    . cases hs'
    . exact h.not_pending hs'

theorem deleteProgram (h : Corresponds ρ m d) (hd : d.Consistent)
    (hp : m.programs.get? program = some p) (hattached : p.attached = []) (event : Event) :
    Corresponds ρ ({ m with programs := m.programs.erase program }.recorded event)
      (d.deleteProgram (ρ.program program)) := by
  rcases h.exists_program hp with ⟨o, ho, hoeq⟩
  rw [hattached] at hoeq
  have hdeleted : d.deleteProgram (ρ.program program)
      = { d with programs := d.programs.erase (ρ.program program) } := by
    unfold SoftDriver.deleteProgram
    rw [ho]
    dsimp only
    rw [hoeq]
    rfl
  rw [hdeleted]
  constructor
  . exact h.stages_eq
  . apply Table.keys_erase_map h.programs_eq
    intro other hother
    exact h.program_inj hd hother (Table.mem_keys_of_get? hp)
  . intro program₁ p₁ o₁ hp₁ ho₁
    change (m.programs.erase program).get? program₁ = some p₁ at hp₁
    dsimp only at ho₁
    rw [Table.get?_erase] at hp₁ ho₁
    split at hp₁
    . cases hp₁
    . split at ho₁
      . cases ho₁
      . exact h.attached_eq hp₁ ho₁
  . exact h.not_pending

/--
A call that is no misuse, made to both drivers, leaves the states in correspondence.
-/
theorem call {event : Event} (h : Corresponds ρ m d) (hm : m.Consistent) (hd : d.Consistent)
    (hprogram : m.failsProgramCreation = false) (hstage : m.failingStageCreation = none)
    (hparsable : event.call.isParsable = true)
    (hname : event.call.isCreation = true → d.lastName + 1 < Text.wordLimit)
    (hcall : StrictDriver.Completes (StrictDriver.driver event.call) m event.answer m') :
    let outcome := (SoftDriver.driver frontEnd (event.call.rename ρ)).run d
    Corresponds (ρ.learn event outcome.1) m' outcome.2 := by
  rcases event with ⟨call, answer⟩
  cases call with
  | createProgram =>
    rcases StrictDriver.completes_createProgram_iff.mp hcall
      with ⟨hfails, _⟩ | ⟨_, program, hraw, rfl, rfl⟩
    . rw [hprogram] at hfails
      cases hfails
    . cases hrun : d.createProgram with
      | mk program? d' =>
        cases program? with
        | none => exact absurd hrun (SoftDriver.createProgram_ne_none (hname rfl))
        | some program' =>
          change Corresponds (ρ.learn ⟨.createProgram, some program⟩ d.createProgram.1) _
            d.createProgram.2
          rw [hrun]
          exact h.createProgram hm hd hraw hrun _
  | createStage kind =>
    rcases StrictDriver.completes_createStage_iff.mp hcall
      with ⟨hfails, _⟩ | ⟨_, stage, hraw, rfl, rfl⟩
    . rw [hstage] at hfails
      cases hfails
    . cases hrun : d.createStage kind with
      | mk stage? d' =>
        cases stage? with
        | none =>
          have hrefused := SoftDriver.isParsable_of_refused (hname rfl) hrun
          exact absurd hparsable (Bool.eq_false_iff.mp hrefused)
        | some stage' =>
          change Corresponds (ρ.learn ⟨.createStage kind, some stage⟩ (d.createStage kind).1) _
            (d.createStage kind).2
          rw [hrun]
          exact h.createStage hm hd hraw hrun _
  | attachStage program stage =>
    rcases StrictDriver.completes_attachStage_iff.mp hcall with ⟨_, p, hs, _, hp, hattached, rfl⟩
    exact h.attachStage hm hd (Table.mem_keys_of_get? hs) hp hattached _
  | detachStage program stage =>
    rcases StrictDriver.completes_detachStage_iff.mp hcall with ⟨p, hp, hattached, rfl⟩
    exact h.detachStage hm hd hp hattached _
  | deleteStage stage =>
    rcases StrictDriver.completes_deleteStage_iff.mp hcall with ⟨_, hs, hunattached, rfl⟩
    exact h.deleteStage hm hd (Table.mem_keys_of_get? hs) hunattached _
  | deleteProgram program =>
    rcases StrictDriver.completes_deleteProgram_iff.mp hcall with ⟨p, hp, hattached, rfl⟩
    exact h.deleteProgram hd hp hattached _
  | _ =>
    exact h.of_sameShape (StrictDriver.SameShape.call rfl hcall)
      (SoftDriver.SameShape.call d frontEnd rfl)

end Corresponds
namespace SoftDriver

variable {ρ : Renaming} {m m' : StrictDriver} {d : SoftDriver}

/--
A call uses up a name only if it is a creation.
-/
theorem lastName_le_of_call (d : SoftDriver) (frontEnd : FrontEnd) (call : Call) :
    ((driver frontEnd call).run d).2.lastName
      ≤ d.lastName + if call.isCreation = true then 1 else 0 := by
  cases hcreation : call.isCreation with
  | true =>
    cases hrun : (driver frontEnd call).run d with
    | mk answer d' =>
      rcases name?_of_call ⟨call, answer⟩ hrun with ⟨_, heq⟩ | ⟨_, heq, _⟩
      . dsimp only
        omega
      . dsimp only
        rw [heq]
        exact Nat.le_refl _
  | false =>
    rw [(NothingNew.call d frontEnd hcreation).lastName_eq]
    exact Nat.le_refl _

/--
Along a run without a misuse the states stay in correspondence.
-/
theorem follow_corresponds (frontEnd : FrontEnd) {trace : List Event}
    (hrun : StrictDriver.Performs m trace m') (h : Corresponds ρ m d) (hm : m.Consistent)
    (hd : d.Consistent) (hprogram : m.failsProgramCreation = false)
    (hstage : m.failingStageCreation = none)
    (hparsable : ∀ event ∈ trace, event.call.isParsable = true)
    (hnames : d.lastName + trace.countP (fun event => event.call.isCreation) < Text.wordLimit) :
    Corresponds (d.follow frontEnd ρ trace).1 m' (d.follow frontEnd ρ trace).2 ∧
      (d.follow frontEnd ρ trace).2.Consistent := by
  induction hrun generalizing ρ d with
  | nil => exact ⟨h, hd⟩
  | @cons m₁ m₂ m₃ event rest hcall _ ih =>
    rw [List.forall_mem_cons] at hparsable
    rw [List.countP_cons] at hnames
    have hfailures := StrictDriver.failures_of_completes hcall
    have hlast := lastName_le_of_call d frontEnd (event.call.rename ρ)
    rw [Call.isCreation_rename] at hlast
    apply ih
    . apply h.call hm hd hprogram hstage hparsable.1 _ hcall
      intro hcreation
      rw [if_pos hcreation] at hnames
      omega
    . exact hm.call hcall
    . exact hd.call frontEnd _
    . rw [hfailures.1, hprogram]
    . rw [hfailures.2, hstage]
    . exact hparsable.2
    . omega

theorem corresponds_new (ρ : Renaming) : Corresponds ρ .new .new where
  stages_eq := rfl
  programs_eq := rfl
  attached_eq hp _ := by cases hp
  not_pending hs := by cases hs

/--
A run of the strict driver without a misuse, in which only stages are created that can be parsed,
is made with the software driver, on the objects that it creates at the same places. Then after each
part of the run both drivers have the same objects, under names that tell them apart. To each
program the same stages are attached in the same order. No stage waits for being detached, and both
drivers have equally many stages and equally many programs. What the front end answers does not
matter.
-/
theorem follow_performs (frontEnd : FrontEnd) (ρ : Renaming) {trace first : List Event}
    (hrun : StrictDriver.Performs .new trace m')
    (hparsable : ∀ event ∈ trace, event.call.isParsable = true)
    (hnames : trace.countP (fun event => event.call.isCreation) < Text.wordLimit)
    (hfirst : first <+: trace) :
    ∃ m ρ' d, StrictDriver.Performs .new first m ∧
      SoftDriver.new.follow frontEnd ρ first = (ρ', d) ∧ Corresponds ρ' m d ∧
        d.stages.keys.Nodup ∧ d.programs.keys.Nodup ∧
          d.stages.size = m.stages.size ∧ d.programs.size = m.programs.size := by
  rcases hfirst with ⟨second, rfl⟩
  rcases hrun.exists_of_append with ⟨m, hrun, _⟩
  rw [List.countP_append] at hnames
  have hreachable : Reachable frontEnd new := .new
  have hparsable' : ∀ event ∈ first, event.call.isParsable = true := by
    intro event hevent
    exact hparsable event (List.mem_append_left _ hevent)
  have hnames' : SoftDriver.new.lastName + first.countP (fun event => event.call.isCreation)
      < Text.wordLimit := by
    dsimp only [SoftDriver.new]
    omega
  have hfollow := follow_corresponds frontEnd hrun (corresponds_new ρ) .new hreachable.consistent
    rfl rfl hparsable' hnames'
  refine ⟨m, _, _, hrun, rfl, hfollow.1, hfollow.2.nodup_stages, hfollow.2.nodup_programs, ?_, ?_⟩
  . rw [← Table.length_keys, hfollow.1.stages_eq, List.length_map, Table.length_keys]
  . rw [← Table.length_keys, hfollow.1.programs_eq, List.length_map, Table.length_keys]

/--
A run with a stage that the strict driver compiles and the front end does not.
-/
theorem follow_performs_rejected_stage :
    let frontEnd : FrontEnd := fun _ _ => .error []
    let program : ProgramHandle := ⟨1, by decide⟩
    let vertex : StageHandle := ⟨1, by decide⟩
    let fragment : StageHandle := ⟨2, by decide⟩
    let trace : List Event := [⟨.createProgram, some program⟩, ⟨.createStage .vertex, some vertex⟩,
      ⟨.compileStage vertex, ()⟩, ⟨.attachStage program vertex, ()⟩,
      ⟨.createStage .fragment, some fragment⟩, ⟨.compileStage fragment, ()⟩,
      ⟨.attachStage program fragment, ()⟩, ⟨.detachStage program vertex, ()⟩,
      ⟨.deleteStage vertex, ()⟩]
    ∃ m m' ρ d, StrictDriver.Performs .new trace m' ∧
      StrictDriver.Performs .new (trace.take 7) m ∧
      SoftDriver.new.follow frontEnd ⟨id, id⟩ (trace.take 7) = (ρ, d) ∧
        d.stages.keys = [⟨2, by decide⟩, ⟨3, by decide⟩] ∧
          m.stages.keys.map ρ.stage = d.stages.keys := by
  intro frontEnd program vertex fragment trace
  have hperforms : ∃ m', StrictDriver.Performs .new trace m' :=
    ⟨_, .cons rfl (.cons rfl (.cons rfl (.cons rfl (.cons rfl (.cons rfl (.cons rfl (.cons rfl
      (.cons rfl (.nil _)))))))))⟩
  rcases hperforms with ⟨m', hrun⟩
  rcases follow_performs frontEnd ⟨id, id⟩ hrun (by decide) (by decide) (List.take_prefix 7 trace)
    with ⟨m, ρ, d, hfirst, hfollow, hcorresponds, _⟩
  have hkeys : d.stages.keys = [⟨2, by decide⟩, ⟨3, by decide⟩] := by
    rw [← congrArg (fun outcome => outcome.2.stages.keys) hfollow]
    rfl
  exact ⟨m, m', ρ, d, hrun, hfirst, hfollow, hkeys, hcorresponds.stages_eq.symm⟩

end SoftDriver
end ShaderBuild
