import ShaderBuild.Proofs.Build.Isolation
import ShaderBuild.Proofs.Driver.Names

/-!
This module contains what a build comes to, as tests on the declared units alone, and how many names
it takes. No object of a driver takes part in the tests, so the result of a build does not depend on
what the driver was used for before.
-/

namespace ShaderBuild
namespace Build

open SoftDriver

section Tests

variable {ε : Type}

/--
The tests on one unit: it is of a stage that the front end can parse, its source is found, and the
front end accepts it.
-/
def checkUnit (frontEnd : FrontEnd) (resolve : Resolver ε) (unit : ShaderUnit) :
    Except (BuildError ε) (Stage × ShaderModule) :=
  if unit.stage.isParsable then
    match resolve unit.sourceId with
    | .error cause => .error (.template unit.sourceId cause)
    | .ok source =>
      match frontEnd unit.stage source.contents with
      | .error errors =>
        let log := ParseError.log source.contents errors
        .error (.stageCompile unit.stage unit.sourceId (source.remapLog log))
      | .ok parsed => .ok (unit.stage, parsed)
  else
    .error (.stageCreation unit.stage)

/--
The lines in which the validator rejects modules, in the order of the modules.
-/
def objections (linked : List (Stage × ShaderModule)) : List String :=
  linked.filterMap fun (stage, parsed) =>
    parsed.objection.map fun objection =>
      s!"error: {stage.name} shader failed validation: {objection}"

/--
The tests on the modules of all units: their stages form a program, the fragment shader reads what
the vertex shader writes if both are there, and the validator accepts every module.
-/
def checkProgram (linked : List (Stage × ShaderModule)) : Except (BuildError ε) Unit := do
  (Link.checkStages (linked.map Prod.fst)).mapError fun e => .link e.message
  match moduleOf? .vertex linked, moduleOf? .fragment linked with
  | some vertex, some fragment =>
    (Link.checkInterface vertex fragment).mapError fun errors =>
      .link (Text.join "\n" (errors.map LinkError.message))
  | _, _ => pure ()
  if (objections linked).isEmpty then
    return ()
  else
    throw (.validation (Text.join "\n" (objections linked)))

/--
The tests that a build comes down to. The first that fails decides.
-/
def check (frontEnd : FrontEnd) (resolve : Resolver ε) (units : List ShaderUnit) :
    Except (BuildError ε) Unit := do
  checkProgram (← units.mapM (checkUnit frontEnd resolve))

/--
The number of stages that a build creates, if it has names for all of them: those of the units up to
the first that fails. The front end does not create a stage that it cannot parse.
-/
def stagesCreated (frontEnd : FrontEnd) (resolve : Resolver ε) : List ShaderUnit → Nat
  | [] => 0
  | unit :: rest =>
    if unit.stage.isParsable then
      match checkUnit frontEnd resolve unit with
      | .error _ => 1
      | .ok _ => stagesCreated frontEnd resolve rest + 1
    else
      0

theorem stagesCreated_cons_of_ok {frontEnd : FrontEnd} {resolve : Resolver ε} {unit : ShaderUnit}
    {entry : Stage × ShaderModule} (hparsable : unit.stage.isParsable = true)
    (hchecked : checkUnit frontEnd resolve unit = .ok entry) (rest : List ShaderUnit) :
    stagesCreated frontEnd resolve (unit :: rest) = stagesCreated frontEnd resolve rest + 1 := by
  rw [stagesCreated, if_pos hparsable, hchecked]

theorem stagesCreated_cons_of_error {frontEnd : FrontEnd} {resolve : Resolver ε}
    {unit : ShaderUnit} {e : BuildError ε} (hfailed : checkUnit frontEnd resolve unit = .error e)
    (rest : List ShaderUnit) :
    stagesCreated frontEnd resolve (unit :: rest) = if unit.stage.isParsable then 1 else 0 := by
  rw [stagesCreated, hfailed]

theorem stagesCreated_cons_pos {unit : ShaderUnit} (hparsable : unit.stage.isParsable = true)
    (frontEnd : FrontEnd) (resolve : Resolver ε) (rest : List ShaderUnit) :
    0 < stagesCreated frontEnd resolve (unit :: rest) := by
  rw [stagesCreated, if_pos hparsable]
  split <;> omega

theorem stagesCreated_le_length (frontEnd : FrontEnd) (resolve : Resolver ε)
    (units : List ShaderUnit) : stagesCreated frontEnd resolve units ≤ units.length := by
  induction units with
  | nil => exact Nat.le_refl _
  | cons unit rest ih =>
    unfold stagesCreated
    rw [List.length_cons]
    split
    . split <;> omega
    . omega

end Tests

variable {ε : Type} {frontEnd : FrontEnd} {resolve : Resolver ε} {before d d' : SoftDriver}
variable {name : Nat} {program : ProgramHandle} {o : ProgramObject} {built : List BuiltStage}
variable {unit : ShaderUnit} {units : List ShaderUnit} {linked : List (Stage × ShaderModule)}

theorem checkProgram_eq (linked : List (Stage × ShaderModule)) :
    checkProgram (ε := ε) linked
      =
    match Link.check linked with
    | .error errors => .error (.link (Text.join "\n" (errors.map LinkError.message)))
    | .ok () =>
      if (objections linked).isEmpty then
        .ok ()
      else
        .error (.validation (Text.join "\n" (objections linked))) := by
  unfold checkProgram Link.check
  cases Link.checkStages (linked.map Prod.fst) with
  | error e => rfl
  | ok _ =>
    cases moduleOf? .vertex linked with
    | none => rfl
    | some vertex =>
      cases moduleOf? .fragment linked with
      | none => rfl
      | some fragment =>
        dsimp only [Except.mapError, bind, Except.bind]
        cases Link.checkInterface vertex fragment with
        | error errors => rfl
        | ok _ => rfl

theorem checkUnit_eq_ok_iff {entry : Stage × ShaderModule} :
    checkUnit frontEnd resolve unit = .ok entry
      ↔
    unit.stage.isParsable = true ∧ LinksAs frontEnd resolve unit entry := by
  unfold checkUnit
  constructor
  . intro h
    split at h
    . next hparsable =>
      refine ⟨hparsable, ?_⟩
      split at h
      . cases h
      . next source hresolve =>
        split at h
        . cases h
        . next parsed hparse =>
          cases h
          exact .intro hresolve hparse
    . cases h
  . rintro ⟨hparsable, hresolve, hparse⟩
    rw [if_pos hparsable, hresolve]
    dsimp only
    rw [hparse]

/--
As long as names are left, the tests on a unit say whether it is attached, and if it is not, why.
-/
theorem checkUnit_of_unitTrace {trace : List Event} {outcome : Except (BuildError ε) StageHandle}
    (hreachable : Reachable frontEnd d)
    (hname : unit.stage.isParsable = true → d.lastName + 1 < Text.wordLimit)
    (htrace : UnitTrace resolve program unit trace outcome)
    (h : Replays (driver frontEnd) d trace d') :
    (checkUnit frontEnd resolve unit).map (fun _ => ()) = outcome.map (fun _ => ()) := by
  unfold checkUnit
  cases htrace with
  | refused =>
    simp only [Replays.cons_iff, Replays.nil_iff] at h
    rcases h with ⟨s₁, hcreate, rfl⟩
    split
    . next hparsable =>
      rw [isParsable_of_refused (hname hparsable) hcreate] at hparsable
      cases hparsable
    . rfl
  | unresolved hresolve =>
    simp only [Replays.cons_iff, Replays.nil_iff] at h
    rcases h with ⟨s₁, hcreate, _⟩
    rw [if_pos (isParsable_of_createStage hcreate), hresolve]
    rfl
  | rejected hresolve =>
    simp only [Replays.cons_iff, Replays.nil_iff] at h
    rcases h with ⟨s₁, hcreate, s₂, hset, s₃, hcompile, s₄, hstatus, s₅, hlog, _⟩
    rcases hreachable.named.createStage_fresh hcreate with ⟨d₀, hfresh, rfl⟩
    cases hset
    cases hcompile
    rcases Prod.mk.inj hstatus with ⟨hrejected, rfl⟩
    rcases Prod.mk.inj hlog with ⟨hlog, _⟩
    rcases rejected_withStage hfresh hrejected with ⟨errors, hparse, heq⟩
    dsimp only at hlog
    rw [heq, compileLog_withStage] at hlog
    rw [if_pos (isParsable_of_createStage hcreate), hresolve]
    dsimp only
    rw [hparse, ← hlog]
    rfl
  | attached hresolve =>
    simp only [Replays.cons_iff, Replays.nil_iff] at h
    rcases h with ⟨s₁, hcreate, s₂, hset, s₃, hcompile, s₄, hstatus, _⟩
    rcases hreachable.named.createStage_fresh hcreate with ⟨d₀, hfresh, rfl⟩
    cases hset
    cases hcompile
    rcases Prod.mk.inj hstatus with ⟨haccepted, rfl⟩
    rcases accepted_withStage hfresh haccepted with ⟨parsed, hparse, _⟩
    rw [if_pos (isParsable_of_createStage hcreate), hresolve]
    dsimp only
    rw [hparse]
    rfl

/--
There are names for all objects that are created in a run: as many are left before it, or one is
left after it.
-/
def NamesSuffice (d : SoftDriver) (created : Nat) (d' : SoftDriver) : Prop :=
  d.lastName + created < Text.wordLimit ∨ d'.lastName + 1 < Text.wordLimit

theorem NamesSuffice.lastName_lt {created : Nat} {trace : List Event}
    (hnames : NamesSuffice d created d') (h : Replays (driver frontEnd) d trace d')
    (hpos : 0 < created) : d.lastName + 1 < Text.wordLimit := by
  have hlast := lastName_of_replays h
  unfold NamesSuffice at hnames
  omega

theorem NamesSuffice.of_replays {created : Nat} {d'' : SoftDriver} {trace : List Event}
    (hnames : NamesSuffice d created d'') (h : Replays (driver frontEnd) d' trace d'') :
    NamesSuffice d created d' := by
  have hlast := lastName_of_replays h
  unfold NamesSuffice at hnames ⊢
  omega

theorem NamesSuffice.of_le {created created' : Nat} (hnames : NamesSuffice d created d')
    (hle : created' ≤ created) : NamesSuffice d created' d' := by
  unfold NamesSuffice at hnames ⊢
  omega

theorem NamesSuffice.rest {first rest : Nat} {d₁ : SoftDriver}
    (hnames : NamesSuffice d (rest + first) d') (hlast : d₁.lastName = d.lastName + first) :
    NamesSuffice d₁ rest d' := by
  unfold NamesSuffice at hnames ⊢
  omega

theorem lastName_of_unitTrace {trace : List Event} {outcome : Except (BuildError ε) StageHandle}
    (hname : unit.stage.isParsable = true → d.lastName + 1 < Text.wordLimit)
    (htrace : UnitTrace resolve program unit trace outcome)
    (h : Replays (driver frontEnd) d trace d') :
    d'.lastName = d.lastName + if unit.stage.isParsable then 1 else 0 := by
  have hlast := lastName_of_replays h
  cases htrace with
  | refused =>
    simp only [Replays.cons_iff, Replays.nil_iff] at h
    rcases h with ⟨s₁, hcreate, rfl⟩
    rw [hlast, if_neg]
    . rfl
    . intro hparsable
      rw [isParsable_of_refused (hname hparsable) hcreate] at hparsable
      cases hparsable
  | _ =>
    simp only [Replays.cons_iff, Replays.nil_iff] at h
    rcases h with ⟨s₁, hcreate, _⟩
    rw [hlast, if_pos (isParsable_of_createStage hcreate)]
    rfl

theorem checkUnits_of_unitsTrace {trace : List Event} {stages : List StageHandle}
    {outcome : Except (BuildError ε) Unit}
    (hreachable : Reachable frontEnd (site before name program o built))
    (hsite : IsSite before program o built)
    (hnames : NamesSuffice (site before name program o built)
      (stagesCreated frontEnd resolve units) d')
    (htrace : UnitsTrace resolve program units trace stages outcome)
    (h : Replays (driver frontEnd) (site before name program o built) trace d') :
    (units.mapM (checkUnit frontEnd resolve)).map (fun _ => ()) = outcome ∧
      d'.lastName = name + stagesCreated frontEnd resolve units := by
  induction htrace generalizing name o built with
  | done =>
    rw [Replays.nil_iff] at h
    rw [← h]
    exact ⟨rfl, rfl⟩
  | failed hunit =>
    have hname hparsable := hnames.lastName_lt h (stagesCreated_cons_pos hparsable _ _ _)
    have hcheck := checkUnit_of_unitTrace hreachable hname hunit h
    have herror := map_eq_error_iff.mp hcheck
    rw [stagesCreated_cons_of_error herror, lastName_of_unitTrace hname hunit h, List.mapM_cons,
      herror]
    exact ⟨rfl, rfl⟩
  | @next unit rest _ _ _ _ _ hunit _ ih =>
    have hname hparsable := hnames.lastName_lt h (stagesCreated_cons_pos hparsable _ _ _)
    rw [Replays.append_iff] at h
    rcases h with ⟨s₁, hfirst, hothers⟩
    have hcheck := checkUnit_of_unitTrace hreachable hname hunit hfirst
    rcases map_eq_ok_iff.mp hcheck with ⟨entry, hentry, _⟩
    have hcreated := stagesCreated_cons_of_ok (checkUnit_eq_ok_iff.mp hentry).1 hentry rest
    have hreachable₁ := hreachable.replays hfirst
    rcases unitAttached_site hreachable hsite hunit hfirst with ⟨b, _, _, hsite₁, rfl⟩
    rw [hcreated] at hnames ⊢
    rcases ih hreachable₁ hsite₁ (hnames.rest rfl) hothers with ⟨hrest, hlast⟩
    rw [List.mapM_cons, hentry, ← hrest, hlast]
    refine ⟨?_, by omega⟩
    cases rest.mapM (checkUnit frontEnd resolve) with
    | error e => rfl
    | ok entries => rfl

theorem unlinked_site (hsite : IsSite before program o built)
    (hstatus : ((site before name program o built).linkProgram program).linkStatus program
      = false) :
    ∃ errors, Link.check (built.map BuiltStage.linked) = .error errors ∧
      ((site before name program o built).linkProgram program).programLog program
        =
      Text.join "\n" (errors.map LinkError.message) := by
  rw [linkProgram_site hsite] at hstatus ⊢
  unfold site at hstatus ⊢
  rw [linkStatus_withProgram] at hstatus
  rw [programLog_withProgram]
  cases hcheck : Link.check (built.map BuiltStage.linked) with
  | error errors => exact ⟨errors, rfl, rfl⟩
  | ok _ =>
    rw [hcheck] at hstatus
    cases hstatus

theorem validated_site (hsite : IsSite before program o built)
    (hstatus : ((site before name program o built).linkProgram program).linkStatus program = true) :
    (((site before name program o built).linkProgram program).validateProgram
        program).validateStatus program = (objections (built.map BuiltStage.linked)).isEmpty ∧
      (((site before name program o built).linkProgram program).validateProgram
        program).programLog program
        =
      Text.join "\n" (objections (built.map BuiltStage.linked)) := by
  rw [(linked_site hsite hstatus).2, validateProgram_site hsite.program_fresh]
  unfold site
  rw [validateStatus_withProgram, programLog_withProgram]
  exact ⟨rfl, rfl⟩

/--
The tests on the program say whether it is linked and valid, and if it is not, what its log is.
-/
theorem checkProgram_of_finishTrace {trace : List Event} {outcome : Except (BuildError ε) Unit}
    (hsite : IsSite before program o built) (htrace : FinishTrace program trace outcome)
    (h : Replays (driver frontEnd) (site before name program o built) trace d') :
    checkProgram (built.map BuiltStage.linked) = outcome := by
  rw [checkProgram_eq]
  cases htrace with
  | unlinked =>
    simp only [Replays.cons_iff, Replays.nil_iff] at h
    rcases h with ⟨s₁, hlink, s₂, hlinkStatus, s₃, hprogramLog, _⟩
    cases hlink
    rcases Prod.mk.inj hlinkStatus with ⟨hstatus, rfl⟩
    rcases Prod.mk.inj hprogramLog with ⟨hlog, _⟩
    rcases unlinked_site hsite hstatus with ⟨errors, hcheck, hmessages⟩
    rw [hcheck, ← hlog]
    dsimp only
    rw [hmessages]
  | invalid =>
    simp only [Replays.cons_iff, Replays.nil_iff] at h
    rcases h with ⟨s₁, hlink, s₂, hlinkStatus, s₃, hvalidate, s₄, hvalidateStatus, s₅, hlog, _⟩
    cases hlink
    rcases Prod.mk.inj hlinkStatus with ⟨hstatus, rfl⟩
    cases hvalidate
    rcases Prod.mk.inj hvalidateStatus with ⟨hinvalid, rfl⟩
    rcases Prod.mk.inj hlog with ⟨hlog, _⟩
    rcases validated_site hsite hstatus with ⟨hvalid, hlines⟩
    rw [(linked_site hsite hstatus).1, ← hlog]
    dsimp only at hinvalid ⊢
    rw [← hvalid, hinvalid, hlines]
    rfl
  | valid =>
    simp only [Replays.cons_iff, Replays.nil_iff] at h
    rcases h with ⟨s₁, hlink, s₂, hlinkStatus, s₃, hvalidate, s₄, hvalidateStatus, _⟩
    cases hlink
    rcases Prod.mk.inj hlinkStatus with ⟨hstatus, rfl⟩
    cases hvalidate
    rcases Prod.mk.inj hvalidateStatus with ⟨hvalidated, _⟩
    rw [(linked_site hsite hstatus).1]
    dsimp only at hvalidated ⊢
    rw [← (validated_site hsite hstatus).1, hvalidated]
    rfl

theorem LinksAs.unique {first second : Stage × ShaderModule}
    (hfirst : LinksAs frontEnd resolve unit first) (hsecond : LinksAs frontEnd resolve unit second) :
    first = second := by
  cases hfirst with
  | intro hresolve hparse =>
    cases hsecond with
    | intro hresolve' hparse' =>
      rw [hresolve] at hresolve'
      cases hresolve'
      rw [hparse] at hparse'
      cases hparse'
      rfl

/--
The modules that pass the tests are those that the units link as.
-/
theorem checkUnits_eq_ok (hchecked : units.mapM (checkUnit frontEnd resolve) = .ok linked)
    {linked' : List (Stage × ShaderModule)}
    (hlinks : List.Forall₂ (LinksAs frontEnd resolve) units linked') : linked = linked' := by
  rw [mapM_eq_ok_iff] at hchecked
  have hlinked : List.Forall₂ (LinksAs frontEnd resolve) units linked := by
    apply hchecked.imp
    intro unit entry hentry
    exact (checkUnit_eq_ok_iff.mp hentry).2
  have hunique : Relator.RightUnique (LinksAs frontEnd resolve) := fun _ _ _ => LinksAs.unique
  exact hunique.forall₂ hlinked hlinks

theorem checked_site {trace : List Event} {stages : List StageHandle}
    {outcome : Except (BuildError ε) Unit} (hreachable : Reachable frontEnd before)
    (hnames : NamesSuffice before (stagesCreated frontEnd resolve units + 1) d')
    (hcreate : (driver frontEnd .createProgram).run before = (some program, d))
    (htrace : UnitsTrace resolve program units trace stages outcome)
    (h : Replays (driver frontEnd) d trace d') :
    (units.mapM (checkUnit frontEnd resolve)).map (fun _ => ()) = outcome ∧
      d'.lastName = before.lastName + (stagesCreated frontEnd resolve units + 1) := by
  have hreachable₁ := hreachable.of_run hcreate
  rcases createProgram_site hreachable.named hcreate with ⟨hsite, rfl⟩
  rcases checkUnits_of_unitsTrace hreachable₁ hsite (hnames.rest rfl) htrace h with
    ⟨hchecked, hlast⟩
  exact ⟨hchecked, by omega⟩

theorem linked_of_unitsTrace {trace finish : List Event} {stages : List StageHandle}
    {outcome : Except (BuildError ε) Unit} (hreachable : Reachable frontEnd before)
    (hchecked : (units.mapM (checkUnit frontEnd resolve)).map (fun _ => ()) = .ok ())
    (hcreate : (driver frontEnd .createProgram).run before = (some program, d))
    (htrace : UnitsTrace resolve program units trace stages (.ok ()))
    (hadded : Replays (driver frontEnd) d trace d')
    (hfinish : FinishTrace program finish outcome)
    {d'' : SoftDriver} (hfinished : Replays (driver frontEnd) d' finish d'') :
    check frontEnd resolve units = outcome := by
  rcases map_eq_ok_iff.mp hchecked with ⟨linked, hlinked, _⟩
  rcases started_site hreachable hcreate htrace hadded with
    ⟨name, o, built, _, _, hsite, rfl, hlinks⟩
  unfold check
  rw [hlinked, checkUnits_eq_ok hlinked (hlinks rfl)]
  exact checkProgram_of_finishTrace hsite hfinish hfinished

theorem lastName_of_finishTrace {trace : List Event} {outcome : Except (BuildError ε) Unit}
    (htrace : FinishTrace program trace outcome) (h : Replays (driver frontEnd) d trace d') :
    d'.lastName = d.lastName := by
  rw [lastName_of_replays h]
  cases htrace <;> rfl

theorem lastName_of_releaseTrace {stages : List StageHandle}
    (h : Replays (driver frontEnd) d (releaseTrace program stages) d') :
    d'.lastName = d.lastName := by
  have hnone : (releaseTrace program stages).filterMap Event.name? = [] := by
    rw [List.filterMap_eq_nil_iff]
    intro event hevent
    unfold releaseTrace at hevent
    rcases List.mem_flatMap.mp hevent with ⟨stage, _, hmem⟩
    simp only [List.mem_cons, List.not_mem_nil, or_false] at hmem
    rcases hmem with rfl | rfl <;> rfl
  rw [lastName_of_replays h, hnone]
  rfl

/--
If names suffice for the program and the stages that are created, the tests say what a build comes
to, and the names that it takes are for these objects.
-/
theorem outcome_of_trace {trace : List Event} {result : Except (BuildError ε) ProgramHandle}
    (hreachable : Reachable frontEnd before)
    (hnames : NamesSuffice before (stagesCreated frontEnd resolve units + 1) d')
    (htrace : Trace resolve units trace result) (h : Replays (driver frontEnd) before trace d') :
    check frontEnd resolve units = result.map (fun _ => ()) ∧
      d'.lastName = before.lastName + (stagesCreated frontEnd resolve units + 1) := by
  have hname := hnames.lastName_lt h (by omega)
  cases htrace with
  | refused =>
    simp only [Replays.cons_iff, Replays.nil_iff] at h
    rcases h with ⟨s₁, hcreate, _⟩
    exact absurd hcreate (createProgram_ne_none hname)
  | unitFailed hunits =>
    simp only [Replays.append_iff] at h
    rcases h with ⟨s₃, ⟨s₂, ⟨s₁, hcreated, hadded⟩, hreleased⟩, hdeleted⟩
    have hcreate := Replays.singleton_iff.mp hcreated
    have hlast : d'.lastName = s₃.lastName := lastName_of_replays hdeleted
    have hnames₂ := (hnames.of_replays hdeleted).of_replays hreleased
    rcases checked_site hreachable hnames₂ hcreate hunits hadded with ⟨hchecked, hlast₂⟩
    refine ⟨?_, by rw [hlast, lastName_of_releaseTrace hreleased, hlast₂]⟩
    unfold check
    rw [map_eq_error_iff.mp hchecked]
    rfl
  | programFailed hunits hfinish =>
    simp only [Replays.append_iff] at h
    rcases h with ⟨s₄, ⟨s₃, ⟨s₂, ⟨s₁, hcreated, hadded⟩, hfinished⟩, hreleased⟩, hdeleted⟩
    have hcreate := Replays.singleton_iff.mp hcreated
    have hlast : d'.lastName = s₄.lastName := lastName_of_replays hdeleted
    have hnames₂ := ((hnames.of_replays hdeleted).of_replays hreleased).of_replays hfinished
    rcases checked_site hreachable hnames₂ hcreate hunits hadded with ⟨hchecked, hlast₂⟩
    refine ⟨linked_of_unitsTrace hreachable hchecked hcreate hunits hadded hfinish hfinished, ?_⟩
    rw [hlast, lastName_of_releaseTrace hreleased, lastName_of_finishTrace hfinish hfinished,
      hlast₂]
  | built hunits hfinish =>
    simp only [Replays.append_iff] at h
    rcases h with ⟨s₃, ⟨s₂, ⟨s₁, hcreated, hadded⟩, hfinished⟩, hreleased⟩
    have hcreate := Replays.singleton_iff.mp hcreated
    have hnames₂ := (hnames.of_replays hreleased).of_replays hfinished
    rcases checked_site hreachable hnames₂ hcreate hunits hadded with ⟨hchecked, hlast₂⟩
    refine ⟨linked_of_unitsTrace hreachable hchecked hcreate hunits hadded hfinish hfinished, ?_⟩
    rw [lastName_of_releaseTrace hreleased, lastName_of_finishTrace hfinish hfinished, hlast₂]

theorem check_of_trace {trace : List Event} {result : Except (BuildError ε) ProgramHandle}
    (hreachable : Reachable frontEnd before)
    (hnames : before.lastName + units.length + 1 < Text.wordLimit)
    (htrace : Trace resolve units trace result) (h : Replays (driver frontEnd) before trace d') :
    check frontEnd resolve units = result.map fun _ => () := by
  have hle := stagesCreated_le_length frontEnd resolve units
  exact (outcome_of_trace hreachable (.inl (by omega)) htrace h).1

/--
As long as names are left for the program and its stages, what a build comes to is what the tests
say, whatever the driver was used for before. An interface that does not match is reported with the
unwritten locations, in ascending order.
-/
theorem run_eq_check {descriptor : Descriptor} (h : Reachable frontEnd d)
    (hnames : d.lastName + descriptor.units.length + 1 < Text.wordLimit) :
    ((run (driver frontEnd) resolve descriptor).run d).1.map (fun _ => ())
        = check frontEnd resolve descriptor.units ∧
      ∀ vertex fragment errors, Link.checkInterface vertex fragment = .error errors →
        ∃ locations : List Nat, errors = locations.map .unwrittenInput ∧
          locations.Pairwise (· < ·) ∧
          ∀ n, n ∈ locations ↔ n ∈ fragment.inputLocations ∧ n ∉ vertex.outputLocations := by
  constructor
  . cases hrun : (run (driver frontEnd) resolve descriptor).run d with
    | mk result after =>
      rcases exists_trace hrun with ⟨trace, htrace, hreplays⟩
      exact (check_of_trace h hnames htrace hreplays).symm
  . intro vertex fragment errors herrors
    rw [Link.checkInterface_eq_error_iff] at herrors
    refine ⟨_, herrors.2, Link.pairwise_unwrittenInputs vertex fragment, ?_⟩
    intro n
    exact Link.mem_unwrittenInputs_iff

/--
Two inputs of a fragment shader that are not written are reported by a driver that was used before.
-/
theorem run_eq_check_unwritten_inputs :
    let input (n : Nat) : InterfaceValue := .mk (some (.location n)) []
    let frontEnd : FrontEnd := fun stage _ =>
      if stage = .fragment then .ok ⟨[⟨[input 3, input 1], none⟩], none⟩ else .ok ⟨[], none⟩
    let resolve : Resolver Unit := fun name => .ok ⟨"void main();", [⟨name, 1⟩]⟩
    let descriptor : Descriptor := ⟨[⟨.vertex, "a.vert"⟩, ⟨.fragment, "a.frag"⟩]⟩
    let d := new.after frontEnd [.createProgram, .createStage .vertex]
    let log := Text.join "\n" ([.unwrittenInput 1, .unwrittenInput 3].map LinkError.message)
    Reachable frontEnd d ∧ d.lastName + descriptor.units.length + 1 < Text.wordLimit ∧
      ((run (driver frontEnd) resolve descriptor).run d).1.map (fun _ => ())
        = .error (.link log) := by
  intro input frontEnd resolve descriptor d log
  have hreachable : Reachable frontEnd d := Reachable.new.after _
  have hnames : d.lastName + descriptor.units.length + 1 < Text.wordLimit := by
    show 2 + 2 + 1 < Text.wordLimit
    decide
  rw [(run_eq_check hreachable hnames).1]
  exact ⟨hreachable, hnames, rfl⟩

end Build
end ShaderBuild
