import ShaderBuild.Proofs.Driver.Status
import ShaderBuild.Proofs.Link.Interface

/-!
This module contains what linking makes of a program: whether it succeeds, said of the attached
stages, and what it reports if it does not.
-/

namespace ShaderBuild

open SoftDriver

namespace Link

variable {stages : List (Stage × ShaderModule)}

theorem mem_of_moduleOf? {stage : Stage} {parsed : ShaderModule}
    (h : moduleOf? stage stages = some parsed) : (stage, parsed) ∈ stages := by
  unfold moduleOf? at h
  rw [Option.map_eq_some_iff] at h
  rcases h with ⟨⟨other, parsed⟩, hfind, rfl⟩
  have hstage : other = stage := by simpa using List.find?_some hfind
  rw [← hstage]
  exact List.mem_of_find?_eq_some hfind

end Link

namespace SoftDriver

variable {d : SoftDriver} {attached : List StageHandle} {linked : List (Stage × ShaderModule)}
variable {errors : List LinkError} {frontEnd : FrontEnd} {program : ProgramHandle}
variable {o : ProgramObject}

/--
The attached stages are all compiled, to the given modules in their order, and these form a program.
The fragment shader, if there is one, reads only what the vertex shader writes.
-/
structure Links (d : SoftDriver) (attached : List StageHandle)
    (linked : List (Stage × ShaderModule)) : Prop where
  compiled : List.Forall₂ d.Compiled attached linked
  stages : Link.checkStages (linked.map Prod.fst) = .ok ()
  interface {vertex fragment : ShaderModule} :
    (.vertex, vertex) ∈ linked → (.fragment, fragment) ∈ linked →
      ∀ n ∈ fragment.inputLocations, n ∈ vertex.outputLocations

/--
What is reported of attached stages that exist and do not link: the first one that is not compiled,
or else what is wrong with the list of stages, or else what the vertex shader does not write.
-/
inductive LinkFault (d : SoftDriver) (attached : List StageHandle) : List LinkError → Prop
  | notCompiled {before after : List StageHandle} {handle : StageHandle} {s : StageObject} :
    attached = before ++ handle :: after → (∀ other ∈ before, ∃ entry, d.Compiled other entry) →
      d.stages.get? handle = some s → s.module? = none →
        LinkFault d attached [.notCompiled s.stage handle]
  | stages {compiled : List (Stage × ShaderModule)} {e : LinkError} :
    List.Forall₂ d.Compiled attached compiled →
      Link.checkStages (compiled.map Prod.fst) = .error e → LinkFault d attached [e]
  | interface {compiled : List (Stage × ShaderModule)} {vertex fragment : ShaderModule}
      {ns : List Nat} :
    List.Forall₂ d.Compiled attached compiled →
      Link.checkStages (compiled.map Prod.fst) = .ok () →
        (.vertex, vertex) ∈ compiled → (.fragment, fragment) ∈ compiled → ns ≠ [] →
          Link.Unwritten vertex fragment ns → LinkFault d attached (ns.map .unwrittenInput)

theorem link_eq_ok_iff_links : d.link attached = .ok linked ↔ d.Links attached linked := by
  rw [link_eq_ok_iff, compiledStages_eq_ok_iff]
  constructor
  . rintro ⟨hcompiled, hcheck⟩
    exact ⟨hcompiled, (Link.check_eq_ok_iff.mp hcheck).1, Link.outputLocations_of_check hcheck⟩
  . rintro ⟨hcompiled, hstages, hinterface⟩
    refine ⟨hcompiled, Link.check_eq_ok_iff.mpr ⟨hstages, ?_⟩⟩
    intro vertex fragment hvertex hfragment
    rw [Link.checkInterface_eq_ok_iff]
    exact hinterface (Link.mem_of_moduleOf? hvertex) (Link.mem_of_moduleOf? hfragment)

theorem linkFault_of_link (hlive : ∀ stage ∈ attached, ∃ s, d.stages.get? stage = some s)
    (h : d.link attached = .error errors) : d.LinkFault attached errors := by
  rcases link_eq_error_iff.mp h with ⟨e, hcompiled, rfl⟩ | ⟨compiled, hcompiled, hcheck⟩
  . rw [compiledStages_eq_error_iff] at hcompiled
    rcases hcompiled with ⟨before, handle, after, rfl, hbefore, hstage⟩
    rcases compiledStage_eq_error_iff.mp hstage with ⟨hnone, _⟩ | ⟨s, hs, hmodule, rfl⟩
    . rcases hlive handle (by simp) with ⟨s, hs⟩
      rw [hnone] at hs
      cases hs
    . exact .notCompiled rfl hbefore hs hmodule
  . rw [compiledStages_eq_ok_iff] at hcompiled
    rcases Link.check_eq_error_iff.mp hcheck with
      ⟨e, hstages, rfl⟩ | ⟨hstages, vertex, fragment, hvertex, hfragment, hinterface⟩
    . exact .stages hcompiled hstages
    . rcases Link.checkInterface_eq_error_iff_unwritten.mp hinterface with
        ⟨ns, hne, hunwritten, rfl⟩
      exact .interface hcompiled hstages (Link.mem_of_moduleOf? hvertex)
        (Link.mem_of_moduleOf? hfragment) hne hunwritten

theorem link_of_linkFault (h : d.LinkFault attached errors) : d.link attached = .error errors := by
  rw [link_eq_error_iff]
  cases h with
  | notCompiled hattached hbefore hs hmodule =>
    refine .inl ⟨_, compiledStages_eq_error_iff.mpr ⟨_, _, _, hattached, hbefore, ?_⟩, rfl⟩
    exact compiledStage_eq_error_iff.mpr (.inr ⟨_, hs, hmodule, rfl⟩)
  | stages hcompiled hstages =>
    refine .inr ⟨_, compiledStages_eq_ok_iff.mpr hcompiled, ?_⟩
    exact Link.check_eq_error_iff.mpr (.inl ⟨_, hstages, rfl⟩)
  | @interface _ vertex fragment ns hcompiled hstages hvertex hfragment hne hunwritten =>
    -- there is only one module of each stage, so that the first ones are those of the fault
    have hnodup := Link.nodup_of_checkStages hstages
    have hinterface : Link.checkInterface vertex fragment = .error (ns.map .unwrittenInput) :=
      Link.checkInterface_eq_error_iff_unwritten.mpr ⟨ns, hne, hunwritten, rfl⟩
    refine .inr ⟨_, compiledStages_eq_ok_iff.mpr hcompiled, ?_⟩
    rw [Link.check_eq_error_iff]
    exact .inr ⟨hstages, vertex, fragment, Link.moduleOf?_of_mem hnodup hvertex,
      Link.moduleOf?_of_mem hnodup hfragment, hinterface⟩

theorem get?_linkProgram (ho : d.programs.get? program = some o) :
    (d.linkProgram program).programs.get? program = some (o.setLinked (d.link o.attached)) := by
  unfold linkProgram
  rw [Table.get?_modify, if_pos rfl, ho, Option.map_some]

/--
In every state that calls lead to, linking a program succeeds if the attached stages are compiled and
form a program. It then holds their modules in the order in which they were attached, and its log is
empty. Otherwise it holds no modules, and its log says in which respect they do not. In both cases
it has to be validated anew, and nothing else changes.
-/
theorem Reachable.linkProgram_exact (h : Reachable frontEnd d)
    (ho : d.programs.get? program = some o) :
    ∃ o', (d.linkProgram program).programs.get? program = some o' ∧
      (o'.linkStatus = true ↔ ∃ linked, d.Links o.attached linked) ∧
      (∀ linked, d.Links o.attached linked → o'.linked = linked ∧ o'.log = "") ∧
      (o'.linkStatus = false ↔ ∃ errors, d.LinkFault o.attached errors) ∧
      (∀ errors, d.LinkFault o.attached errors →
        o'.linked = [] ∧ o'.log = Text.join "\n" (errors.map LinkError.message)) ∧
      o'.validateStatus = false ∧ o'.attached = o.attached ∧
      (d.linkProgram program).lastName = d.lastName ∧
      (d.linkProgram program).stages = d.stages ∧
      (d.linkProgram program).programs.keys = d.programs.keys ∧
      ∀ other, other ≠ program →
        (d.linkProgram program).programs.get? other = d.programs.get? other := by
  have hlive : ∀ stage ∈ o.attached, ∃ s, d.stages.get? stage = some s :=
    fun stage hattached => h.consistent.stage_of_attached ho hattached
  have hfault : ∀ errors, d.LinkFault o.attached errors ↔ d.link o.attached = .error errors :=
    fun _ => ⟨link_of_linkFault, linkFault_of_link hlive⟩
  simp only [← link_eq_ok_iff_links, hfault]
  refine ⟨_, get?_linkProgram ho, ?_, ?_, ?_, ?_, ?_, ?_, rfl, rfl, Table.keys_modify _ _ _, ?_⟩
  . cases d.link o.attached with
    | ok linked => exact iff_of_true rfl ⟨linked, rfl⟩
    | error errors => exact iff_of_false Bool.false_ne_true (by simp)
  . intro linked hlink
    rw [hlink]
    exact ⟨rfl, rfl⟩
  . cases d.link o.attached with
    | ok linked => exact iff_of_false Bool.true_eq_false.mp (by simp)
    | error errors => exact iff_of_true rfl ⟨errors, rfl⟩
  . intro errors hlink
    rw [hlink]
    exact ⟨rfl, rfl⟩
  . cases d.link o.attached with
    | ok linked => rfl
    | error errors => rfl
  . apply ProgramObject.setLinked_attached
  . intro other hne
    unfold linkProgram
    rw [Table.get?_modify, if_neg (Ne.symm hne)]

/--
A program is linked with a vertex shader. Then a fragment shader is attached that reads two locations
which the vertex shader does not write, so that linking it again takes the modules away.
-/
theorem linkProgram_exact_unwritten_inputs :
    let value (n : Nat) : InterfaceValue := .mk (some (.location n)) []
    let writing : ShaderModule := ⟨[⟨[], some (.mk none [value 7, value 4])⟩], none⟩
    let reading : ShaderModule := ⟨[⟨[value 9, value 7, .mk none [value 8, value 9]], none⟩], none⟩
    let frontEnd : FrontEnd := fun stage _ => if stage = .vertex then .ok writing else .ok reading
    let program : ProgramHandle := ⟨1, by decide⟩
    let vertex : StageHandle := ⟨2, by decide⟩
    let fragment : StageHandle := ⟨3, by decide⟩
    let d := new.after frontEnd [.createProgram, .createStage .vertex, .createStage .fragment,
      .compileStage vertex, .compileStage fragment, .attachStage program vertex,
      .linkProgram program, .validateProgram program, .attachStage program fragment]
    Reachable frontEnd d ∧
      d.programs.get? program = some ⟨[vertex, fragment], [(.vertex, writing)], true, true, ""⟩ ∧
        ∃ o', (d.linkProgram program).programs.get? program = some o' ∧ o'.linkStatus = false ∧
          o'.validateStatus = false ∧ o'.linked = [] ∧
            o'.log = Text.join "\n"
              ["error: fragment shader input at location 8 is not written by the vertex shader",
                "error: fragment shader input at location 9 is not written by the vertex shader"] := by
  intro value writing reading frontEnd program vertex fragment d
  have hreachable : Reachable frontEnd d := Reachable.new.after _
  have ho : d.programs.get? program
      = some ⟨[vertex, fragment], [(.vertex, writing)], true, true, ""⟩ := by
    dsimp only [d, frontEnd, program, vertex, fragment, reading, writing, value]
    rfl
  have hcompiled : List.Forall₂ d.Compiled [vertex, fragment]
      [(.vertex, writing), (.fragment, reading)] := by
    dsimp only [d, frontEnd, program, vertex, fragment, reading, writing, value]
    exact .cons ⟨_, rfl, rfl, rfl⟩ (.cons ⟨_, rfl, rfl, rfl⟩ .nil)
  have hunwritten : Link.Unwritten writing reading [8, 9] := by
    rw [Link.unwritten_iff]
    rfl
  have hfault : d.LinkFault [vertex, fragment] ([8, 9].map .unwrittenInput) :=
    .interface hcompiled rfl (by simp) (by simp) (by simp) hunwritten
  rcases hreachable.linkProgram_exact ho with
    ⟨o', ho', _, _, hstatus, hfailed, hvalidate, _⟩
  have hreport := hfailed _ hfault
  exact ⟨hreachable, ho, o', ho', hstatus.mpr ⟨_, hfault⟩, hvalidate, hreport⟩

end SoftDriver
end ShaderBuild
