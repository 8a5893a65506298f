import ShaderBuild.Proofs.Driver.Change
import ShaderBuild.Proofs.Driver.Link

/-!
This module contains what the statuses of a program object stand for, whatever was done to the
program and to its stages since they were set.
-/

namespace ShaderBuild

namespace Link

variable {stages : List (Stage × ShaderModule)}

theorem ne_nil_of_check (h : check stages = .ok ()) : stages ≠ [] := by
  rintro rfl
  cases h

theorem nodup_of_check (h : check stages = .ok ()) : (stages.map Prod.fst).Nodup :=
  nodup_of_checkStages (check_eq_ok_iff.mp h).1

theorem outputLocations_of_check (h : check stages = .ok ()) {vertex fragment : ShaderModule}
    (hvertex : (.vertex, vertex) ∈ stages) (hfragment : (.fragment, fragment) ∈ stages) {n : Nat}
    (hn : n ∈ fragment.inputLocations) : n ∈ vertex.outputLocations := by
  have hnodup := nodup_of_check h
  have hinterface := (check_eq_ok_iff.mp h).2 vertex fragment (moduleOf?_of_mem hnodup hvertex)
    (moduleOf?_of_mem hnodup hfragment)
  exact checkInterface_eq_ok_iff.mp hinterface n hn

end Link

namespace ProgramObject

theorem objection_eq_none {o : ProgramObject} (h : o.objections = []) {stage : Stage}
    {parsed : ShaderModule} (hmem : (stage, parsed) ∈ o.linked) : parsed.objection = none := by
  unfold objections at h
  rw [List.filterMap_eq_nil_iff] at h
  exact Option.map_eq_none_iff.mp (h _ hmem)

/--
The statuses of a program object are right about the stages that it was linked with.
-/
structure Sound (o : ProgramObject) : Prop where
  parsable {entry : Stage × ShaderModule} : entry ∈ o.linked → entry.1.isParsable = true
  unlinked : o.linkStatus = false → o.linked = []
  linked : o.linkStatus = true → Link.check o.linked = .ok ()
  validated : o.validateStatus = true → o.linkStatus = true ∧ o.objections = [] ∧ o.log = ""

namespace Sound

variable {o : ProgramObject}

theorem new : Sound .new where
  parsable hmem := by cases hmem
  unlinked _ := rfl
  linked hstatus := by cases hstatus
  validated hstatus := by cases hstatus

theorem withAttached (h : o.Sound) (attached : List StageHandle) :
    Sound { o with attached := attached } where
  parsable := h.parsable
  unlinked := h.unlinked
  linked := h.linked
  validated := h.validated

/--
A failed link takes away what was linked before. Either way nothing is validated any more.
-/
theorem setLinked {outcome : Except (List LinkError) (List (Stage × ShaderModule))}
    (houtcome : ∀ linked, outcome = .ok linked →
      Link.check linked = .ok () ∧ ∀ entry ∈ linked, entry.1.isParsable = true) :
    (o.setLinked outcome).Sound := by
  cases outcome with
  | error errors =>
    constructor
    . intro entry hmem
      cases hmem
    . intro _
      rfl
    . intro hstatus
      cases hstatus
    . intro hstatus
      cases hstatus
  | ok linked =>
    rcases houtcome linked rfl with ⟨hcheck, hparsable⟩
    constructor
    . exact hparsable _
    . intro hstatus
      cases hstatus
    . intro _
      exact hcheck
    . intro hstatus
      cases hstatus

theorem validate (h : o.Sound) : o.validate.Sound := by
  unfold ProgramObject.validate
  split
  . next hlinked =>
    constructor
    . exact h.parsable
    . exact h.unlinked
    . exact h.linked
    . intro hstatus
      have hnone : o.objections = [] := List.isEmpty_iff.mp hstatus
      refine ⟨hlinked, hnone, ?_⟩
      rw [hnone]
      rfl
  . constructor
    . exact h.parsable
    . exact h.unlinked
    . exact h.linked
    . intro hstatus
      cases hstatus

theorem linkStatus_iff (h : o.Sound) : o.linkStatus = true ↔ o.linked ≠ [] := by
  constructor
  . intro hstatus
    exact Link.ne_nil_of_check (h.linked hstatus)
  . intro hne
    by_contra hstatus
    exact hne (h.unlinked (eq_false_of_ne_true hstatus))

theorem pipeline (h : o.Sound) (hstatus : o.linkStatus = true) :
    o.linked.map Prod.fst = [.compute] ∨ o.linked.map Prod.fst = [.vertex] ∨
      o.linked.map Prod.fst = [.vertex, .fragment] ∨
      o.linked.map Prod.fst = [.fragment, .vertex] := by
  apply Link.pipeline_of_checkStages (Link.check_eq_ok_iff.mp (h.linked hstatus)).1
  intro stage hmem
  rw [List.mem_map] at hmem
  rcases hmem with ⟨entry, hentry, rfl⟩
  exact h.parsable hentry

end Sound
end ProgramObject

namespace SoftDriver

variable {d : SoftDriver} {frontEnd : FrontEnd} {program : ProgramHandle} {stage : StageHandle}
variable {o : ProgramObject} {s : StageObject}

theorem compile_stage (frontEnd : FrontEnd) (s : StageObject) :
    (s.compile frontEnd).stage = s.stage := by
  unfold StageObject.compile
  split
  . rfl
  . rfl

/--
A stage object never changes its stage, so there are only stages that the front end can parse.
-/
theorem Reachable.isParsable (h : Reachable frontEnd d) (hs : d.stages.get? stage = some s) :
    s.stage.isParsable = true := by
  induction h generalizing s with
  | new => cases hs
  | call call hreachable ih =>
    cases hreachable.consistent.stageOrigin hs with
    | created _ hparsable => exact hparsable
    | kept hbefore =>
      have hparsable := ih hbefore
      exact hparsable
    | sourced _ hbefore =>
      have hparsable := ih hbefore
      exact hparsable
    | compiled _ hbefore =>
      rw [compile_stage]
      exact ih hbefore

theorem Reachable.sound (h : Reachable frontEnd d) (ho : d.programs.get? program = some o) :
    o.Sound := by
  induction h generalizing o with
  | new => cases ho
  | call call hreachable ih =>
    cases hreachable.consistent.programOrigin ho with
    | created => exact .new
    | kept hbefore attached => exact (ih hbefore).withAttached attached
    | linked =>
      apply ProgramObject.Sound.setLinked
      intro linked hlink
      rw [link_eq_ok_iff] at hlink
      refine ⟨hlink.2, ?_⟩
      rintro ⟨kind, parsed⟩ hmem
      rcases stage_of_compiledStages hlink.1 hmem with ⟨handle, s, hs, rfl, _⟩
      exact hreachable.isParsable hs
    | validated _ hbefore => exact (ih hbefore).validate

/--
In every state that calls lead to, a validated program is linked, and a linked program has stages.
They are a compute shader alone or a vertex shader with or without a fragment shader, which then
reads only what the vertex shader writes. The validator has no objection to a validated program.
-/
theorem Reachable.statuses_sound (h : Reachable frontEnd d)
    (ho : d.programs.get? program = some o) :
    (o.validateStatus = true → o.linkStatus = true) ∧
      (o.linkStatus = true ↔ o.linked ≠ []) ∧
      (o.linkStatus = true →
        (o.linked.map Prod.fst = [.compute] ∨ o.linked.map Prod.fst = [.vertex] ∨
          o.linked.map Prod.fst = [.vertex, .fragment] ∨
          o.linked.map Prod.fst = [.fragment, .vertex]) ∧
        ∀ vertex fragment, (.vertex, vertex) ∈ o.linked → (.fragment, fragment) ∈ o.linked →
          ∀ n ∈ fragment.inputLocations, n ∈ vertex.outputLocations) ∧
      (o.validateStatus = true →
        (∀ stage parsed, (stage, parsed) ∈ o.linked → parsed.objection = none) ∧ o.log = "") := by
  have hsound := h.sound ho
  refine ⟨?_, hsound.linkStatus_iff, ?_, ?_⟩
  . intro hstatus
    exact (hsound.validated hstatus).1
  . intro hstatus
    refine ⟨hsound.pipeline hstatus, ?_⟩
    intro vertex fragment hvertex hfragment n hn
    exact Link.outputLocations_of_check (hsound.linked hstatus) hvertex hfragment hn
  . intro hstatus
    rcases hsound.validated hstatus with ⟨_, hnone, hlog⟩
    refine ⟨?_, hlog⟩
    intro stage parsed hmem
    exact ProgramObject.objection_eq_none hnone hmem

/--
A program whose fragment shader reads what its vertex shader writes stays linked and validated when
the vertex shader is gone.
-/
theorem statuses_sound_deleted_stage :
    let value : InterfaceValue := .mk (some (.location 7)) []
    let writing : ShaderModule := ⟨[⟨[], some value⟩], none⟩
    let reading : ShaderModule := ⟨[⟨[value], none⟩], none⟩
    let frontEnd : FrontEnd := fun stage _ => if stage = .vertex then .ok writing else .ok reading
    let program : ProgramHandle := ⟨1, by decide⟩
    let vertex : StageHandle := ⟨2, by decide⟩
    let fragment : StageHandle := ⟨3, by decide⟩
    let d := new.after frontEnd [.createProgram, .createStage .vertex, .createStage .fragment,
      .compileStage vertex, .compileStage fragment, .attachStage program fragment,
      .attachStage program vertex, .linkProgram program, .validateProgram program,
      .deleteStage vertex, .detachStage program vertex]
    Reachable frontEnd d ∧ d.stages.get? vertex = none ∧
      ∃ o, d.programs.get? program = some o ∧ o.validateStatus = true ∧
        o.linked = [(.fragment, reading), (.vertex, writing)] ∧
        ∀ n ∈ reading.inputLocations, n ∈ writing.outputLocations := by
  intro value writing reading frontEnd program vertex fragment d
  have hreachable : Reachable frontEnd d := Reachable.new.after _
  have hstate : d.stages.get? vertex = none ∧ d.programs.get? program
      = some ⟨[fragment], [(.fragment, reading), (.vertex, writing)], true, true, ""⟩ := by
    dsimp only [d, frontEnd, program, vertex, fragment, reading, writing, value]
    exact ⟨rfl, rfl⟩
  have h := hreachable.statuses_sound hstate.2
  have hinterface := (h.2.2.1 (h.1 rfl)).2 writing reading (by simp) (by simp)
  exact ⟨hreachable, hstate.1, _, hstate.2, rfl, rfl, hinterface⟩

end SoftDriver
end ShaderBuild
