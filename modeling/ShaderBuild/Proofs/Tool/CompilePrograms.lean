import ShaderBuild.Proofs.Build.Check
import ShaderBuild.Proofs.Manifest
import ShaderBuild.Tool.CompilePrograms

/-!
This module contains what the command that compiles programs reports. All programs share one driver,
and still the report on a program is the one that it gets when it is compiled alone.
-/

namespace ShaderBuild
namespace Tool
namespace CompilePrograms

open Build SoftDriver

/--
The report on a program that is compiled alone, on a driver that was not used before.
-/
def reportAlone (frontEnd : FrontEnd) (resolve : Resolver TemplateError)
    (program : String × Descriptor) : Report :=
  ((compile frontEnd resolve program.1 program.2).run .new).1

/--
The report on a program that the tests of a build give.
-/
def verdict (frontEnd : FrontEnd) (resolve : Resolver TemplateError)
    (program : String × Descriptor) : Report :=
  match check frontEnd resolve program.2.units with
  | .ok _ => ⟨program.1, none⟩
  | .error e => ⟨program.1, some e⟩

/--
The number of objects that are created for programs: each program and its stages.
-/
def objectsCreated (frontEnd : FrontEnd) (resolve : Resolver TemplateError) :
    List (String × Descriptor) → Nat
  | [] => 0
  | program :: rest =>
    objectsCreated frontEnd resolve rest + (stagesCreated frontEnd resolve program.2.units + 1)

variable {frontEnd : FrontEnd} {resolve : Resolver TemplateError} {d d' : SoftDriver}
variable {name : String} {descriptor : Descriptor} {programs : List (String × Descriptor)}
variable {report : Report}

theorem compile_cases (h : (compile frontEnd resolve name descriptor).run d = (report, d')) :
    ∃ trace,
      (∃ e, Trace resolve descriptor.units trace (.error e) ∧
        Replays (driver frontEnd) d trace d' ∧ report = ⟨name, some e⟩) ∨
      (∃ program d₁, Trace resolve descriptor.units trace (.ok program) ∧
        Replays (driver frontEnd) d trace d₁ ∧
        Replays (driver frontEnd) d₁ [⟨.deleteProgram program, ()⟩] d' ∧
        report = ⟨name, none⟩) := by
  unfold compile at h
  rw [run_bind_eq_iff] at h
  rcases h with ⟨result, d₁, hbuilt, h⟩
  rcases exists_trace hbuilt with ⟨trace, htrace, hreplays⟩
  exists trace
  cases result with
  | error e =>
    rw [run_pure_eq_iff] at h
    rcases h with ⟨rfl, rfl⟩
    exact .inl ⟨e, htrace, hreplays, rfl⟩
  | ok program =>
    simp only [run_bind_eq_iff, run_pure_eq_iff] at h
    rcases h with ⟨_, d₂, hdelete, rfl, rfl⟩
    exact .inr ⟨program, d₁, htrace, hreplays, Replays.singleton_iff.mpr hdelete, rfl⟩

theorem replays_of_compile (h : (compile frontEnd resolve name descriptor).run d = (report, d')) :
    ∃ trace, Replays (driver frontEnd) d trace d' := by
  rcases compile_cases h with ⟨trace, ⟨_, _, hreplays, _⟩ | ⟨_, _, _, hreplays, hdeleted, _⟩⟩
  . exact ⟨trace, hreplays⟩
  . exact ⟨_, hreplays.append hdeleted⟩

theorem compile_run (hreachable : Reachable frontEnd d)
    (hnames : NamesSuffice d (stagesCreated frontEnd resolve descriptor.units + 1) d')
    (h : (compile frontEnd resolve name descriptor).run d = (report, d')) :
    report = verdict frontEnd resolve (name, descriptor) ∧
      d' = { d with
        lastName := d.lastName + (stagesCreated frontEnd resolve descriptor.units + 1) } := by
  unfold verdict
  rcases compile_cases h with
    ⟨trace, ⟨e, htrace, hreplays, rfl⟩ | ⟨program, d₁, htrace, hreplays, hdeleted, rfl⟩⟩
  . rcases outcome_of_trace hreachable hnames htrace hreplays with ⟨hcheck, hlast⟩
    rw [hcheck, ← hlast]
    exact ⟨rfl, (leaves_of_trace hreachable htrace hreplays).eq_of_error⟩
  . rcases outcome_of_trace hreachable (hnames.of_replays hdeleted) htrace hreplays with
      ⟨hcheck, hlast⟩
    rw [hcheck, ← hlast]
    cases Replays.singleton_iff.mp hdeleted
    exact ⟨rfl, (leaves_of_trace hreachable htrace hreplays).deleteProgram_eq⟩

theorem compileAll_cons_run_iff {program : String × Descriptor} {rest : List (String × Descriptor)}
    {reports : List Report} :
    (compileAll frontEnd resolve (program :: rest)).run d = (reports, d')
      ↔
    ∃ report d₁ others, (compile frontEnd resolve program.1 program.2).run d = (report, d₁) ∧
      (compileAll frontEnd resolve rest).run d₁ = (others, d') ∧ report :: others = reports := by
  rcases program with ⟨name, descriptor⟩
  rw [compileAll]
  simp only [run_bind_eq_iff, run_pure_eq_iff]
  constructor
  . rintro ⟨report, d₁, hcompile, others, d₂, hrest, rfl, rfl⟩
    exact ⟨report, d₁, others, hcompile, hrest, rfl⟩
  . rintro ⟨report, d₁, others, hcompile, hrest, rfl⟩
    exact ⟨report, d₁, hcompile, others, d', hrest, rfl, rfl⟩

theorem replays_of_compileAll {reports : List Report}
    (h : (compileAll frontEnd resolve programs).run d = (reports, d')) :
    ∃ trace, Replays (driver frontEnd) d trace d' := by
  induction programs generalizing d reports with
  | nil =>
    cases h
    exact ⟨_, .nil _⟩
  | cons program rest ih =>
    rw [compileAll_cons_run_iff] at h
    rcases h with ⟨_, d₁, _, hcompile, hrest, _⟩
    rcases replays_of_compile hcompile with ⟨first, hfirst⟩
    rcases ih hrest with ⟨others, hothers⟩
    exact ⟨_, hfirst.append hothers⟩

/--
All that a program leaves to those after it are names that are used up, so the tests alone decide
what is reported on it.
-/
theorem compileAll_run {reports : List Report} (hreachable : Reachable frontEnd d)
    (hnames : NamesSuffice d (objectsCreated frontEnd resolve programs) d')
    (h : (compileAll frontEnd resolve programs).run d = (reports, d')) :
    reports = programs.map (verdict frontEnd resolve) ∧
      d' = { d with lastName := d.lastName + objectsCreated frontEnd resolve programs } := by
  induction programs generalizing d reports with
  | nil =>
    cases h
    exact ⟨rfl, rfl⟩
  | cons program rest ih =>
    rw [objectsCreated] at hnames ⊢
    rw [compileAll_cons_run_iff] at h
    rcases h with ⟨report, d₁, others, hcompile, hrest, rfl⟩
    rcases replays_of_compile hcompile with ⟨first, hfirst⟩
    rcases replays_of_compileAll hrest with ⟨trace, hreplays⟩
    rcases compile_run hreachable (hnames.of_le (by omega) |>.of_replays hreplays) hcompile with
      ⟨hreport, hstate⟩
    have hnames₁ : NamesSuffice d₁ (objectsCreated frontEnd resolve rest) d' := by
      apply hnames.rest
      rw [hstate]
    rcases ih (hreachable.replays hfirst) hnames₁ hrest with ⟨hothers, hstate'⟩
    rw [hreport, hothers, hstate', hstate, List.map_cons]
    refine ⟨rfl, ?_⟩
    simp only [Nat.add_assoc, Nat.add_comm]

theorem compileAll_new (programs : List (String × Descriptor))
    (hnames : NamesSuffice new (objectsCreated frontEnd resolve programs)
      ((compileAll frontEnd resolve programs).run new).2) :
    (compileAll frontEnd resolve programs).run new
      =
    (programs.map (verdict frontEnd resolve),
      { new with lastName := objectsCreated frontEnd resolve programs }) := by
  rcases compileAll_run .new hnames rfl with ⟨hreports, hstate⟩
  rw [Nat.add_comm] at hstate
  exact Prod.ext hreports hstate

theorem stagesCreated_lt_objectsCreated (frontEnd : FrontEnd) (resolve : Resolver TemplateError)
    {program : String × Descriptor} (hmem : program ∈ programs) :
    stagesCreated frontEnd resolve program.2.units < objectsCreated frontEnd resolve programs := by
  induction programs with
  | nil => cases hmem
  | cons first rest ih =>
    unfold objectsCreated
    rcases List.mem_cons.mp hmem with rfl | hmem
    . omega
    . have hlt := ih hmem
      omega

theorem objectsCreated_of_perm {programs' : List (String × Descriptor)}
    (hperm : programs'.Perm programs) :
    objectsCreated frontEnd resolve programs' = objectsCreated frontEnd resolve programs := by
  induction hperm with
  | nil => rfl
  | cons program _ ih => rw [objectsCreated, objectsCreated, ih]
  | swap first second rest =>
    unfold objectsCreated objectsCreated
    omega
  | trans _ _ ih₁ ih₂ => rw [ih₁, ih₂]

theorem reportAlone_eq_verdict {program : String × Descriptor}
    (hlt : stagesCreated frontEnd resolve program.2.units + 1 < Text.wordLimit) :
    reportAlone frontEnd resolve program = verdict frontEnd resolve program := by
  have hnames : NamesSuffice new (stagesCreated frontEnd resolve program.2.units + 1)
      ((compile frontEnd resolve program.1 program.2).run new).2 := by
    apply Or.inl
    rw [Nat.add_comm]
    exact hlt
  exact (compile_run .new hnames rfl).1

/--
If there are names for all objects, the report on each program is the one that it gets alone.
-/
theorem reports_eq (registry : Registry)
    (hlt : objectsCreated frontEnd resolve registry.programs.entries < Text.wordLimit) :
    reports frontEnd resolve registry
      =
    registry.programs.entries.map (reportAlone frontEnd resolve) := by
  have hnames : NamesSuffice new (objectsCreated frontEnd resolve registry.programs.entries)
      ((compileAll frontEnd resolve registry.programs.entries).run new).2 := by
    apply Or.inl
    rw [Nat.add_comm]
    exact hlt
  unfold reports
  rw [compileAll_new _ hnames]
  apply List.map_congr_left
  intro program hmem
  have hcreated := stagesCreated_lt_objectsCreated frontEnd resolve hmem
  rw [reportAlone_eq_verdict]
  omega

theorem reportAlone_name (program : String × Descriptor) :
    (reportAlone frontEnd resolve program).name = program.1 := by
  have hcompile : (compile frontEnd resolve program.1 program.2).run new
      = (reportAlone frontEnd resolve program, _) := rfl
  rcases compile_cases hcompile with ⟨_, ⟨_, _, _, hreport⟩ | ⟨_, _, _, _, _, hreport⟩⟩
  . rw [hreport]
  . rw [hreport]

theorem reports_names (registry : Registry)
    (hlt : objectsCreated frontEnd resolve registry.programs.entries < Text.wordLimit) :
    (reports frontEnd resolve registry).map Report.name = registry.names := by
  rw [reports_eq registry hlt, List.map_map]
  apply List.map_congr_left
  intro program _
  exact reportAlone_name program

theorem reports_perm {registry registry' : Registry}
    (hlt : objectsCreated frontEnd resolve registry.programs.entries < Text.wordLimit)
    (hperm : registry'.programs.entries.Perm registry.programs.entries) :
    reports frontEnd resolve registry'
        = registry'.programs.entries.map (reportAlone frontEnd resolve) ∧
      (reports frontEnd resolve registry').Perm (reports frontEnd resolve registry) := by
  have hreports := reports_eq registry hlt
  rw [← objectsCreated_of_perm hperm] at hlt
  have hreports' := reports_eq registry' hlt
  refine ⟨hreports', ?_⟩
  rw [hreports, hreports']
  exact hperm.map _

/--
The registry of a manifest that lists the same programs in another order.
-/
theorem reports_manifest_perm {registry : Registry} {m m' : Manifest}
    (hlt : objectsCreated frontEnd resolve registry.programs.entries < Text.wordLimit)
    (hm : Registry.ofManifest m = .ok registry) (hperm : m'.programs.Perm m.programs) :
    ∃ registry', Registry.ofManifest m' = .ok registry' ∧
      reports frontEnd resolve registry' = m'.programs.map (fun p =>
        reportAlone frontEnd resolve (p.name, p.descriptor)) ∧
      (reports frontEnd resolve registry').Perm (reports frontEnd resolve registry) := by
  rw [Registry.ofManifest_eq_ok_iff] at hm
  let registry' : Registry := ⟨⟨m'.programs.map fun p => (p.name, p.descriptor)⟩⟩
  have hentries : registry'.programs.entries.Perm registry.programs.entries := by
    rw [hm.2]
    exact hperm.map _
  have hreports := reports_perm hlt hentries
  refine ⟨registry', ?_, ?_, hreports.2⟩
  . rw [Registry.ofManifest_eq_ok_iff]
    exact ⟨Manifest.validate_of_perm hperm hm.1, rfl⟩
  . rw [hreports.1, List.map_map]
    rfl

theorem print_summary (reports : List Report) :
    ∃ succeeding, print false reports
        = Text.ofLines (reports.flatMap Report.diagnostics ++
          [s!"{succeeding} of {reports.length} programs compiled"]) ∧
      succeeding + (reports.filter fun report => !report.succeeds).length = reports.length := by
  refine ⟨(reports.filter Report.succeeds).length, rfl, ?_⟩
  have hparts := List.length_eq_countP_add_countP Report.succeeds (l := reports)
  simp only [decide_not, Bool.decide_eq_true] at hparts
  rw [hparts, List.countP_eq_length_filter, List.countP_eq_length_filter]

theorem exitCode_eq_one_iff (reports : List Report) :
    (if reports.all Report.succeeds then 0 else 1) = 1
      ↔
    ∃ report ∈ reports, report.succeeds = false := by
  split
  . next hall =>
    constructor
    . intro h
      cases h
    . rintro ⟨report, hmem, hfails⟩
      rw [List.all_eq_true.mp hall report hmem] at hfails
      cases hfails
  . next hall =>
    rw [Bool.not_eq_true, List.all_eq_false] at hall
    simpa using hall

theorem run_eq {here : Place} {arguments : List String} {s : Settings} {registry : Registry}
    {config : TemplateConfig} (hparse : Settings.parse? arguments = some s)
    (hregistry : registry? here s = some registry) (hconfig : config? here s = some config)
    (hresolve : (Template.standard config (here.source s.root)).load = resolve) :
    run frontEnd here arguments
      =
    ⟨if (reports frontEnd resolve registry).all Report.succeeds then 0 else 1,
      print s.asJson (reports frontEnd resolve registry)⟩ := by
  unfold run
  rw [hparse]
  dsimp only
  rw [hregistry, hconfig]
  dsimp only
  rw [hresolve]

/--
Programs do not depend on each other, although they are compiled on one driver: as long as it has
names for all objects, the last of which is the number of objects created, the reports are those
that the programs get alone, in the order of the registry. So they are permuted as the programs are,
no object is left on the driver, and the exit code tells whether a program fails alone.
-/
theorem reports_independent {registry : Registry}
    (hnames : ((compileAll frontEnd resolve registry.programs.entries).run new).2.lastName + 1
      < Text.wordLimit) :
    (reports frontEnd resolve registry).map Report.name = registry.names ∧
      reports frontEnd resolve registry
        = registry.programs.entries.map (reportAlone frontEnd resolve) ∧
      (∀ registry' : Registry, registry'.programs.entries.Perm registry.programs.entries →
        reports frontEnd resolve registry'
            = registry'.programs.entries.map (reportAlone frontEnd resolve) ∧
          (reports frontEnd resolve registry').Perm (reports frontEnd resolve registry)) ∧
      (∀ m m' : Manifest, Registry.ofManifest m = .ok registry →
        m'.programs.Perm m.programs →
          ∃ registry', Registry.ofManifest m' = .ok registry' ∧
            reports frontEnd resolve registry' = m'.programs.map (fun p =>
              reportAlone frontEnd resolve (p.name, p.descriptor)) ∧
            (reports frontEnd resolve registry').Perm (reports frontEnd resolve registry)) ∧
      ((compileAll frontEnd resolve registry.programs.entries).run new).2.stages = .empty ∧
      ((compileAll frontEnd resolve registry.programs.entries).run new).2.programs = .empty ∧
      (∃ succeeding, print false (reports frontEnd resolve registry)
          = Text.ofLines ((reports frontEnd resolve registry).flatMap Report.diagnostics ++
            [s!"{succeeding} of {registry.size} programs compiled"]) ∧
        succeeding +
            ((reports frontEnd resolve registry).filter fun report => !report.succeeds).length
          = registry.size) ∧
      ∀ here arguments s config, Settings.parse? arguments = some s →
        registry? here s = some registry → config? here s = some config →
          (Template.standard config (here.source s.root)).load = resolve →
            (run frontEnd here arguments).output
                = print s.asJson (reports frontEnd resolve registry) ∧
              ((run frontEnd here arguments).exitCode = 1 ↔
                ∃ program ∈ registry.programs.entries,
                  (reportAlone frontEnd resolve program).succeeds = false) := by
  have hrun := compileAll_new _ (.inr hnames)
  have hlt : objectsCreated frontEnd resolve registry.programs.entries < Text.wordLimit := by
    rw [hrun] at hnames
    exact Nat.lt_of_succ_lt hnames
  have hreports := reports_eq registry hlt
  refine ⟨reports_names registry hlt, hreports, fun _ => reports_perm hlt,
    fun _ _ => reports_manifest_perm hlt, ?_, ?_, ?_, ?_⟩
  . rw [hrun]
    rfl
  . rw [hrun]
    rfl
  . have hlength : (reports frontEnd resolve registry).length = registry.size := by
      rw [hreports, List.length_map]
      rfl
    rw [← hlength]
    exact print_summary _
  . intro here arguments s config hparse hregistry hconfig hresolve
    rw [run_eq hparse hregistry hconfig hresolve]
    refine ⟨rfl, ?_⟩
    dsimp only
    rw [hreports, exitCode_eq_one_iff]
    simp only [List.mem_map, exists_exists_and_eq_and]

/--
Of the standard programs the first and the last have no sources. The one between them is compiled
nevertheless, and the exit code is that of a failure.
-/
theorem reports_independent_missing_sources :
    let frontEnd : FrontEnd := fun _ _ => .ok ⟨[], none⟩
    let here := Place.inUnknown (.directory
      [("shaders", .directory [("gpu", .directory [("comp.glsl", .file "void main();".toUTF8)])])])
    let resolve := (Template.standard .forSoftDriver (here.source "shaders")).load
    let missing (source : String) : BuildError TemplateError :=
      .template source (.notFound source none)
    ((compileAll frontEnd resolve Registry.standard.programs.entries).run new).2.lastName + 1
        < Text.wordLimit ∧
      reports frontEnd resolve .standard
        = [⟨"render", some (missing "/gpu/vert.glsl")⟩, ⟨"compute", none⟩,
          ⟨"compute_unordered", some (missing "/gpu/comp_unordered.glsl")⟩] ∧
      reportAlone frontEnd resolve ("compute", ⟨[⟨.compute, "/gpu/comp.glsl"⟩]⟩)
        = ⟨"compute", none⟩ ∧
      (run frontEnd here ["--root", "shaders"]).exitCode = 1 := by
  intro frontEnd here resolve missing
  have hnames : ((compileAll frontEnd resolve Registry.standard.programs.entries).run
      new).2.lastName + 1 < Text.wordLimit := by
    simp only [frontEnd, resolve, here]
    decide +kernel
  have hreports : reports frontEnd resolve .standard
      = [⟨"render", some (missing "/gpu/vert.glsl")⟩, ⟨"compute", none⟩,
        ⟨"compute_unordered", some (missing "/gpu/comp_unordered.glsl")⟩] := by
    simp only [frontEnd, resolve, here, missing]
    decide +kernel
  rcases reports_independent hnames with ⟨_, halone, _, _, _, _, _, htool⟩
  have hcode := (htool here ["--root", "shaders"] ⟨"shaders", none, none, none, false⟩
    .forSoftDriver rfl rfl rfl rfl).2
  rw [hreports] at halone
  injection halone with hrender hrest
  injection hrest with hcompute
  refine ⟨hnames, hreports, hcompute.symm, hcode.mpr ⟨_, List.mem_cons_self, ?_⟩⟩
  exact congrArg Report.succeeds hrender.symm

end CompilePrograms
end Tool
end ShaderBuild
