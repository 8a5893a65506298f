import ShaderBuild.Build
import ShaderBuild.Proofs.Strict.Consistent
import ShaderBuild.Proofs.Strict.ErrorLines

/-!
This module contains builds over the strict driver. On no way out of a build there is a call that
the driver stops at. A failed build leaves the objects that were there before it, and a build fails
only if its units are no program that compiles or if the driver is made to fail.
-/

namespace ShaderBuild

namespace StrictDriver

/--
What a build sees of a state.
-/
structure View where
  stages : Table StageHandle StrictStage
  programs : Table ProgramHandle StrictProgram
  stageCreations : Nat
  failingStageCreation : Option Nat
  linkFailure : Option String
  validationFailure : Option String

def view (d : StrictDriver) : View where
  stages := d.stages
  programs := d.programs
  stageCreations := d.stageCreations
  failingStageCreation := d.failingStageCreation
  linkFailure := d.linkFailure
  validationFailure := d.validationFailure

namespace View

def withStages (v : View) (stages : Table StageHandle StrictStage) : View :=
  { v with stages := stages }

def withProgram (v : View) (program : ProgramHandle) (p : StrictProgram) : View :=
  { v with programs := v.programs.insert program p }

/--
The view after more attempts to create a stage.
-/
def tried (v : View) (attempts : Nat) : View :=
  { v with stageCreations := v.stageCreations + attempts }

theorem withProgram_withProgram (v : View) (program : ProgramHandle) (p p' : StrictProgram) :
    (v.withProgram program p).withProgram program p' = v.withProgram program p' := by
  unfold withProgram
  dsimp only
  rw [Table.insert_insert]

end View

theorem get?_of_view {d : StrictDriver} {v : View} {program : ProgramHandle} {p : StrictProgram}
    (h : d.view = v.withProgram program p) : d.programs.get? program = some p := by
  have hprograms : d.programs = v.programs.insert program p := congrArg View.programs h
  rw [hprograms, Table.get?_insert_self]

end StrictDriver

namespace Build

open StrictDriver

variable {ε : Type} {resolve : Resolver ε} {before d d' : StrictDriver} {program : ProgramHandle}
variable {p : StrictProgram} {stage : StageHandle} {unit : ShaderUnit}

/--
The source of the unit is found and has no error line.
-/
def Compiles (resolve : Resolver ε) (unit : ShaderUnit) : Prop :=
  ∃ source, resolve unit.sourceId = .ok source ∧
    ∀ line ∈ Text.lines source.contents, ¬IsErrorLine line

/--
A stage can be created for the unit, and it compiles.
-/
def Attachable (v : View) (resolve : Resolver ε) (unit : ShaderUnit) : Prop :=
  v.failingStageCreation ≠ some v.stageCreations ∧ Compiles resolve unit

/--
What comes of adding a unit: either it cannot be attached and leaves nothing, or it is attached last
as a stage that was not there before.
-/
inductive Added (v : View) (resolve : Resolver ε) (program : ProgramHandle) (p : StrictProgram)
    (unit : ShaderUnit) : Except (BuildError ε) StageHandle → View → Prop
  | failed {e : BuildError ε} :
    ¬Attachable v resolve unit →
      Added v resolve program p unit (.error e) (v.tried 1)
  | attached {stage : StageHandle} {o : StrictStage} :
    Attachable v resolve unit → v.stages.get? stage = none →
      Added v resolve program p unit (.ok stage)
        (((v.withStages (v.stages.insert stage o)).tried 1).withProgram program
          { p with attached := p.attached ++ [stage] })

theorem exists_createStage (hd : d.Consistent)
    (hallowed : d.failingStageCreation ≠ some d.stageCreations) (kind : Stage) :
    ∃ stage d₁, Completes (driver (.createStage kind)) d (some stage) d₁ ∧
      d.stages.get? stage = none ∧
      d₁.view = (d.view.withStages (d.stages.insert stage ⟨"", false, ""⟩)).tried 1 := by
  refine ⟨⟨d.lastStage + 1, Nat.succ_pos _⟩, _,
    completes_createStage_iff.mpr (.inr ⟨hallowed, _, rfl, rfl, rfl⟩), ?_, rfl⟩
  exact hd.stage_fresh (Nat.lt_succ_self _)

theorem exists_compileStage {o : StrictStage} (ho : d.stages.get? stage = some o)
    (contents : String) :
    ∃ d₁ d₂, Completes (driver (.setSource stage contents)) d () d₁ ∧
      Completes (driver (.compileStage stage)) d₁ () d₂ ∧
      d₂.view = d.view.withStages
        (d.stages.insert stage (compiledStage { o with source := contents })) := by
  refine ⟨_, _, completes_setSource_iff.mpr ⟨o, ho, rfl⟩,
    completes_compileStage_iff.mpr ⟨_, Table.get?_insert_self _, rfl⟩, ?_⟩
  rw [← Table.insert_insert d.stages stage { o with source := contents }]
  rfl

theorem exists_attachStage {o : StrictStage} (ho : d.stages.get? stage = some o)
    (hcompiled : o.compiled = true) (hp : d.programs.get? program = some p)
    (hunattached : stage ∉ p.attached) :
    ∃ d₁, Completes (driver (.attachStage program stage)) d () d₁ ∧
      d₁.view = d.view.withProgram program { p with attached := p.attached ++ [stage] } :=
  ⟨_, completes_attachStage_iff.mpr ⟨o, p, ho, hcompiled, hp, hunattached, rfl⟩, rfl⟩

theorem exists_detachStage (hp : d.programs.get? program = some p)
    (hattached : stage ∈ p.attached) :
    ∃ d₁, Completes (driver (.detachStage program stage)) d () d₁ ∧
      d₁.view = d.view.withProgram program { p with attached := p.attached.erase stage } :=
  ⟨_, completes_detachStage_iff.mpr ⟨p, hp, hattached, rfl⟩, rfl⟩

/--
The stage that was created last can be deleted, if it is not attached.
-/
theorem exists_deleteStage {stages : Table StageHandle StrictStage} {o : StrictStage}
    (hfresh : stages.get? stage = none) (hstages : d.stages = stages.insert stage o)
    (hunattached : ∀ p ∈ d.programs.values, stage ∉ p.attached) :
    ∃ d₁, Completes (driver (.deleteStage stage)) d () d₁ ∧
      d₁.view = d.view.withStages stages := by
  refine ⟨_, completes_deleteStage_iff.mpr ⟨o, ?_, hunattached, rfl⟩, ?_⟩
  . rw [hstages, Table.get?_insert_self]
  . rw [← Table.erase_insert hfresh o, ← hstages]
    rfl

theorem compiled_iff {o : StrictStage} :
    (compiledStage o).compiled = true ↔ ∀ line ∈ Text.lines o.source, ¬IsErrorLine line := by
  rw [← errorLines_eq_nil_iff, ← List.isEmpty_iff]
  rfl

theorem exists_addStage_refused (hd : d.Consistent)
    (hrefused : d.failingStageCreation = some d.stageCreations) (resolve : Resolver ε)
    (program : ProgramHandle) (unit : ShaderUnit) :
    ∃ d', Completes (addStage driver resolve program unit) d
        (.error (.stageCreation unit.stage)) d' ∧
      d'.Consistent ∧ d'.view = d.view.tried 1 := by
  have hcreate : Completes (driver (.createStage unit.stage)) d none _ :=
    completes_createStage_iff.mpr (.inl ⟨hrefused, rfl, rfl⟩)
  unfold addStage
  exact ⟨_, (completes_bind_of hcreate).mpr (completes_pure_iff.mpr ⟨rfl, rfl⟩),
    hd.call hcreate, rfl⟩

theorem exists_addStage_unresolved {cause : ε} (hd : d.Consistent)
    (hallowed : d.failingStageCreation ≠ some d.stageCreations)
    (hresolve : resolve unit.sourceId = .error cause) (program : ProgramHandle) :
    ∃ d', Completes (addStage driver resolve program unit) d
        (.error (.template unit.sourceId cause)) d' ∧
      d'.Consistent ∧ d'.view = d.view.tried 1 := by
  rcases exists_createStage hd hallowed unit.stage with ⟨stage, d₁, hcreate, hfresh, hview₁⟩
  have hunattached : ∀ p ∈ d₁.programs.values, stage ∉ p.attached := by
    rw [show d₁.programs = d.programs from congrArg View.programs hview₁]
    exact hd.notMem_attached hfresh
  rcases exists_deleteStage hfresh (congrArg View.stages hview₁) hunattached
    with ⟨d₂, hdelete, hview₂⟩
  unfold addStage
  simp only [completes_bind_of hcreate, hresolve]
  refine ⟨d₂, (completes_bind_of hdelete).mpr (completes_pure_iff.mpr ⟨rfl, rfl⟩),
    (hd.call hcreate).call hdelete, ?_⟩
  rw [hview₂, hview₁]
  rfl

theorem exists_addStage_resolved {source : Source} (hd : d.Consistent)
    (hp : d.programs.get? program = some p)
    (hallowed : d.failingStageCreation ≠ some d.stageCreations)
    (hresolve : resolve unit.sourceId = .ok source) :
    ∃ outcome d', Completes (addStage driver resolve program unit) d outcome d' ∧ d'.Consistent ∧
      Added d.view resolve program p unit outcome d'.view := by
  rcases exists_createStage hd hallowed unit.stage with ⟨stage, d₁, hcreate, hfresh, hview₁⟩
  have hstages₁ : d₁.stages = d.stages.insert stage ⟨"", false, ""⟩ :=
    congrArg View.stages hview₁
  have hstage₁ : d₁.stages.get? stage = some ⟨"", false, ""⟩ := by
    rw [hstages₁, Table.get?_insert_self]
  rcases exists_compileStage hstage₁ source.contents with ⟨d₂, d₃, hset, hcompile, hview₃⟩
  rw [hview₁, hstages₁, Table.insert_insert] at hview₃
  have hstages₃ : d₃.stages = d.stages.insert stage (compiledStage ⟨source.contents, false, ""⟩) :=
    congrArg View.stages hview₃
  have hprograms₃ : d₃.programs = d.programs := congrArg View.programs hview₃
  have hd₃ := ((hd.call hcreate).call hset).call hcompile
  have hstage₃ : d₃.stages.get? stage = some (compiledStage ⟨source.contents, false, ""⟩) := by
    rw [hstages₃, Table.get?_insert_self]
  have hunattached := hd.notMem_attached hfresh
  unfold addStage
  simp only [completes_bind_of hcreate, hresolve, completes_bind_of hset,
    completes_bind_of hcompile,
    completes_bind_of (completes_compileStatus_iff.mpr ⟨_, hstage₃, rfl, rfl⟩)]
  split
  . next hcompiled =>
    rcases exists_attachStage hstage₃ hcompiled (hprograms₃ ▸ hp)
      (hunattached p (Table.mem_values_of_get? hp)) with ⟨d₄, hattach, hview₄⟩
    refine ⟨_, d₄, (completes_bind_of hattach).mpr (completes_pure_iff.mpr ⟨rfl, rfl⟩),
      hd₃.call hattach, ?_⟩
    rw [hview₄, hview₃]
    exact .attached ⟨hallowed, source, hresolve, compiled_iff.mp hcompiled⟩ hfresh
  . next hrejected =>
    rcases exists_deleteStage hfresh hstages₃ (hprograms₃ ▸ hunattached)
      with ⟨d₄, hdelete, hview₄⟩
    simp only [completes_bind_of (completes_compileLog_iff.mpr ⟨_, hstage₃, rfl, rfl⟩)]
    refine ⟨_, d₄, (completes_bind_of hdelete).mpr (completes_pure_iff.mpr ⟨rfl, rfl⟩),
      hd₃.call hdelete, ?_⟩
    rw [hview₄, hview₃]
    apply Added.failed
    rintro ⟨_, source', hsource, hlines⟩
    rw [hresolve] at hsource
    cases hsource
    exact hrejected (compiled_iff.mpr hlines)

/--
Adding a unit is no misuse, whatever its source is.
-/
theorem exists_addStage (hd : d.Consistent) (hp : d.programs.get? program = some p)
    (resolve : Resolver ε) (unit : ShaderUnit) :
    ∃ outcome d', Completes (addStage driver resolve program unit) d outcome d' ∧ d'.Consistent ∧
      Added d.view resolve program p unit outcome d'.view := by
  by_cases hallowed : d.failingStageCreation = some d.stageCreations
  . rcases exists_addStage_refused hd hallowed resolve program unit with ⟨d', hadd, hd', hview⟩
    refine ⟨_, d', hadd, hd', ?_⟩
    rw [hview]
    exact .failed fun hattachable => hattachable.1 hallowed
  . cases hresolve : resolve unit.sourceId with
    | error cause =>
      rcases exists_addStage_unresolved hd hallowed hresolve program with ⟨d', hadd, hd', hview⟩
      refine ⟨_, d', hadd, hd', ?_⟩
      rw [hview]
      apply Added.failed
      rintro ⟨_, source, hsource, _⟩
      rw [hresolve] at hsource
      cases hsource
    | ok source => exact exists_addStage_resolved hd hp hallowed hresolve

/--
What there is during a build: the objects of `before`, and next to them the program and its stages.
-/
def strictSite (before : StrictDriver) (attempts : Nat) (program : ProgramHandle)
    (p : StrictProgram) (built : List (StageHandle × StrictStage)) : View :=
  ((before.view.withStages (before.stages.insertAll built)).tried attempts).withProgram program p

/--
The objects of a build have names that no other objects have, and the program has exactly the
stages of the build attached.
-/
structure IsStrictSite (before : StrictDriver) (program : ProgramHandle) (p : StrictProgram)
    (built : List (StageHandle × StrictStage)) : Prop where
  program_fresh : before.programs.get? program = none
  stages_fresh : before.stages.Fresh built
  attached_eq : p.attached = built.map Prod.fst

/--
The attempt that is to fail is none of `n` attempts.
-/
def Spared (failing : Option Nat) (start n : Nat) : Prop :=
  ∀ index, failing = some index → ¬(start ≤ index ∧ index < start + n)

theorem spared_zero (failing : Option Nat) (start : Nat) : Spared failing start 0 := by
  intro index _
  omega

theorem spared_succ_iff {failing : Option Nat} {start n : Nat} :
    Spared failing start (n + 1) ↔ failing ≠ some start ∧ Spared failing (start + 1) n := by
  constructor
  . intro h
    refine ⟨fun heq => h start heq (by omega), fun index heq hmem => h index heq (by omega)⟩
  . rintro ⟨hne, h⟩ index heq hmem
    have hindex : index ≠ start := by
      rintro rfl
      exact hne heq
    exact h index heq (by omega)

theorem IsStrictSite.concat {built : List (StageHandle × StrictStage)} {o : StrictStage}
    (hsite : IsStrictSite before program p built)
    (hfresh : (before.stages.insertAll built).get? stage = none) :
    IsStrictSite before program { p with attached := p.attached ++ [stage] }
      (built ++ [(stage, o)]) where
  program_fresh := hsite.program_fresh
  stages_fresh := Table.fresh_concat_iff.mpr ⟨hsite.stages_fresh, hfresh⟩
  attached_eq := by
    rw [hsite.attached_eq, List.map_append]
    rfl

theorem strictSite_concat {attempts : Nat} {built : List (StageHandle × StrictStage)}
    {o : StrictStage} {p' : StrictProgram} :
    strictSite before (attempts + 1) program p' (built ++ [(stage, o)])
      =
    let v := strictSite before attempts program p built
    ((v.withStages (v.stages.insert stage o)).tried 1).withProgram program p' := by
  unfold strictSite View.withStages View.withProgram View.tried
  dsimp only
  rw [Table.insertAll_concat, Table.insert_insert]
  rfl

/--
Adding units is no misuse. It comes to the end of them only if each gets a stage that compiles.
-/
theorem exists_addStages {attempts : Nat} {built : List (StageHandle × StrictStage)}
    (hd : d.Consistent) (hsite : IsStrictSite before program p built)
    (hview : d.view = strictSite before attempts program p built) (resolve : Resolver ε)
    (units : List ShaderUnit) :
    ∃ (built' : List (StageHandle × StrictStage)) (outcome : Except (BuildError ε) Unit)
      (p' : StrictProgram) (attempts' : Nat) (d' : StrictDriver),
      Completes (addStages driver resolve program (built.map Prod.fst).reverse units) d
        ((built'.map Prod.fst).reverse, outcome) d' ∧
      d'.Consistent ∧ IsStrictSite before program p' built' ∧
      d'.view = strictSite before attempts' program p' built' ∧
      (outcome = .ok () → built'.length = built.length + units.length) ∧
      (outcome = .ok () ↔
        Spared before.failingStageCreation (before.stageCreations + attempts) units.length ∧
          ∀ unit ∈ units, Compiles resolve unit) := by
  induction units generalizing d attempts p built with
  | nil =>
    refine ⟨built, .ok (), p, attempts, d, completes_pure_iff.mpr ⟨rfl, rfl⟩, hd, hsite, hview,
      fun _ => rfl, ?_⟩
    simp [spared_zero]
  | cons unit rest ih =>
    rcases exists_addStage hd (get?_of_view hview) resolve unit
      with ⟨outcome, d₁, hadd, hd₁, hadded⟩
    generalize hview₁ : d₁.view = v₁ at hadded
    rw [hview] at hadded
    unfold addStages
    simp only [completes_bind_of hadd]
    rw [List.length_cons, spared_succ_iff, List.forall_mem_cons]
    cases hadded with
    | @failed e hnot =>
      refine ⟨built, .error e, p, attempts + 1, d₁, completes_pure_iff.mpr ⟨rfl, rfl⟩, hd₁, hsite,
        hview₁, ?_, ?_⟩
      . intro hok
        cases hok
      . constructor
        . intro hok
          cases hok
        . rintro ⟨⟨hallowed, _⟩, hcompiles, _⟩
          exact absurd ⟨hallowed, hcompiles⟩ hnot
    | @attached stage o hattachable hfresh =>
      -- the stage is put before the others here, since they are released from the last one on
      have hlist : stage :: (built.map Prod.fst).reverse
          = ((built ++ [(stage, o)]).map Prod.fst).reverse := by simp
      rw [← strictSite_concat] at hview₁
      rcases ih hd₁ (hsite.concat hfresh) hview₁
        with ⟨built', outcome, p', attempts', d', hadds, hd', hsite', hview', hlength, hok⟩
      refine ⟨built', outcome, p', attempts', d', ?_, hd', hsite', hview', ?_, ?_⟩
      . rw [← hlist] at hadds
        exact hadds
      . intro houtcome
        rw [hlength houtcome, List.length_append, List.length_singleton]
        omega
      . rw [hok, ← Nat.add_assoc]
        constructor
        . rintro ⟨hspared, hcompiles⟩
          exact ⟨⟨hattachable.1, hspared⟩, hattachable.2, hcompiles⟩
        . rintro ⟨⟨_, hspared⟩, _, hcompiles⟩
          exact ⟨hspared, hcompiles⟩

theorem exists_linkProgram (hp : d.programs.get? program = some p) :
    ∃ d₁, Completes (driver (.linkProgram program)) d () d₁ ∧
      d₁.view = d.view.withProgram program (linkedProgram d.linkFailure p) :=
  ⟨_, completes_linkProgram_iff.mpr ⟨p, hp, rfl⟩, rfl⟩

theorem exists_validateProgram (hp : d.programs.get? program = some p) :
    ∃ d₁, Completes (driver (.validateProgram program)) d () d₁ ∧
      d₁.view = d.view.withProgram program (validatedProgram d.validationFailure p) :=
  ⟨_, completes_validateProgram_iff.mpr ⟨p, hp, rfl⟩, rfl⟩

theorem linked_iff {failure : Option String} :
    (linkedProgram failure p).linked = true ↔ failure = none ∧ p.attached ≠ [] := by
  unfold linkedProgram
  simp

/--
Linking and validating is no misuse, and changes no attachments.
-/
theorem exists_finish (hd : d.Consistent) (hp : d.programs.get? program = some p) :
    ∃ (outcome : Except (BuildError ε) Unit) (p' : StrictProgram) (d' : StrictDriver),
      Completes (finish driver program) d outcome d' ∧ d'.Consistent ∧
      p'.attached = p.attached ∧ d'.view = d.view.withProgram program p' ∧
      (outcome = .ok () → p' = ⟨p.attached, true, true, ""⟩) ∧
      (outcome = .ok () ↔
        d.linkFailure = none ∧ p.attached ≠ [] ∧ d.validationFailure = none) := by
  rcases exists_linkProgram hp with ⟨d₁, hlink, hview₁⟩
  have hp₁ := get?_of_view hview₁
  have hd₁ := hd.call hlink
  have hfailure : d₁.validationFailure = d.validationFailure :=
    congrArg View.validationFailure hview₁
  unfold finish
  simp only [completes_bind_of hlink,
    completes_bind_of (completes_linkStatus_iff.mpr ⟨_, hp₁, rfl, rfl⟩)]
  cases hlinked : (linkedProgram d.linkFailure p).linked with
  | false =>
    have hunlinked : ¬(d.linkFailure = none ∧ p.attached ≠ []) := by
      rw [← linked_iff, hlinked]
      exact Bool.false_ne_true
    simp only [Bool.not_false, if_true,
      completes_bind_of (completes_programLog_iff.mpr ⟨_, hp₁, rfl, rfl⟩)]
    refine ⟨_, _, d₁, completes_pure_iff.mpr ⟨rfl, rfl⟩, hd₁, ?_, hview₁, ?_, ?_⟩
    . rfl
    . intro hok
      cases hok
    . constructor
      . intro hok
        cases hok
      . rintro ⟨hlink, hattached, _⟩
        exact absurd ⟨hlink, hattached⟩ hunlinked
  | true =>
    rcases linked_iff.mp hlinked with ⟨hlinkFailure, hattached⟩
    rcases exists_validateProgram hp₁ with ⟨d₂, hvalidate, hview₂⟩
    rw [hview₁, hfailure, View.withProgram_withProgram] at hview₂
    have hp₂ := get?_of_view hview₂
    have hd₂ := hd₁.call hvalidate
    simp only [Bool.not_true, Bool.false_eq_true, if_false, completes_bind_of hvalidate,
      completes_bind_of (completes_validateStatus_iff.mpr ⟨_, hp₂, rfl, rfl⟩)]
    cases hvalid : d.validationFailure with
    | some log =>
      simp only [validatedProgram, Option.isNone_some, Bool.and_false, Bool.not_false, if_true,
        completes_bind_of (completes_programLog_iff.mpr ⟨_, hp₂, rfl, rfl⟩)]
      refine ⟨_, _, d₂, completes_pure_iff.mpr ⟨rfl, rfl⟩, hd₂, ?_, hview₂, ?_, ?_⟩
      . rfl
      . intro hok
        cases hok
      . constructor
        . intro hok
          cases hok
        . rintro ⟨_, _, hvalid⟩
          cases hvalid
    | none =>
      rw [hvalid] at hview₂
      simp only [validatedProgram, hlinked, Option.isNone_none, Bool.and_true, Bool.not_true,
        Bool.false_eq_true, if_false]
      refine ⟨_, _, d₂, completes_pure_iff.mpr ⟨rfl, rfl⟩, hd₂, ?_, hview₂, ?_, ?_⟩
      . rfl
      . intro _
        unfold validatedProgram
        rw [hlinked]
        rfl
      . exact ⟨fun _ => ⟨hlinkFailure, hattached, trivial⟩, fun _ => rfl⟩

/--
Taking the stages off the program again, from the last one on, is no misuse. It leaves none of them.
-/
theorem exists_release {attempts : Nat} {built : List (StageHandle × StrictStage)}
    (hbefore : before.Consistent) (hd : d.Consistent) (hsite : IsStrictSite before program p built)
    (hview : d.view = strictSite before attempts program p built) :
    ∃ d', Completes (release driver program (built.map Prod.fst).reverse) d () d' ∧
      d'.Consistent ∧
      d'.view = strictSite before attempts program { p with attached := [] } [] := by
  induction built using List.reverseRecOn generalizing d p with
  | nil =>
    refine ⟨d, completes_pure_iff.mpr ⟨rfl, rfl⟩, hd, ?_⟩
    have hattached : p.attached = [] := hsite.attached_eq
    rw [hview, ← hattached]
  | append_singleton rest entry ih =>
    rcases entry with ⟨stage, o⟩
    rcases Table.fresh_concat_iff.mp hsite.stages_fresh with ⟨hfresh, hget⟩
    rcases Table.get?_insertAll_eq_none_iff.mp hget with ⟨hget₀, hnotMem⟩
    have hattached : p.attached = rest.map Prod.fst ++ [stage] := by
      rw [hsite.attached_eq, List.map_append]
      rfl
    have herase : p.attached.erase stage = rest.map Prod.fst := by
      rw [hattached, List.erase_append_right _ hnotMem]
      simp
    have hmem : stage ∈ p.attached := by simp [hattached]
    rcases exists_detachStage (get?_of_view hview) hmem with ⟨d₁, hdetach, hview₁⟩
    rw [hview, herase] at hview₁
    have hunattached : ∀ p₁ ∈ d₁.programs.values, stage ∉ p₁.attached := by
      intro p₁ hp₁
      have hprograms₁ : d₁.programs = (before.programs.insert program p).insert program _ :=
        congrArg View.programs hview₁
      rw [hprograms₁, Table.insert_insert] at hp₁
      rcases Table.mem_values_insert hp₁ with rfl | hp₁
      . exact hnotMem
      . exact hbefore.notMem_attached hget₀ p₁ hp₁
    have hstages₁ : d₁.stages = (before.stages.insertAll rest).insert stage o := by
      rw [← Table.insertAll_concat]
      exact congrArg View.stages hview₁
    rcases exists_deleteStage hget hstages₁ hunattached with ⟨d₂, hdelete, hview₂⟩
    have hsite₂ : IsStrictSite before program { p with attached := rest.map Prod.fst } rest :=
      ⟨hsite.program_fresh, hfresh, rfl⟩
    have hview' : d₂.view
        = strictSite before attempts program { p with attached := rest.map Prod.fst } rest := by
      rw [hview₂, hview₁]
      exact View.withProgram_withProgram
        ((before.view.withStages (before.stages.insertAll rest)).tried attempts) program p _
    rcases ih ((hd.call hdetach).call hdelete) hsite₂ hview' with ⟨d', hrelease, hd', hview'⟩
    refine ⟨d', ?_, hd', hview'⟩
    rw [List.map_append, List.reverse_append]
    exact (completes_bind_of hdetach).mpr ((completes_bind_of hdelete).mpr hrelease)

theorem exists_deleteProgram {programs : Table ProgramHandle StrictProgram}
    (hfresh : programs.get? program = none) (hprograms : d.programs = programs.insert program p)
    (hattached : p.attached = []) :
    ∃ d₁, Completes (driver (.deleteProgram program)) d () d₁ ∧
      d₁.stages = d.stages ∧ d₁.programs = programs := by
  refine ⟨_, completes_deleteProgram_iff.mpr ⟨p, ?_, hattached, rfl⟩, rfl, ?_⟩
  . rw [hprograms, Table.get?_insert_self]
  . rw [← Table.erase_insert hfresh p, ← hprograms]
    rfl

/--
Whatever came of a build, it can be brought to its end: the stages are gone, and so is the program
if the build failed.
-/
theorem exists_conclude {attempts : Nat} {built : List (StageHandle × StrictStage)}
    (hbefore : before.Consistent) (hd : d.Consistent) (hsite : IsStrictSite before program p built)
    (hview : d.view = strictSite before attempts program p built)
    (outcome : Except (BuildError ε) Unit) :
    ∃ d', Completes
        (do
          release driver program (built.map Prod.fst).reverse
          match outcome with
          | .ok () => return .ok program
          | .error e =>
            driver (.deleteProgram program)
            return .error e)
        d (outcome.map fun _ => program) d' ∧
      d'.stages = before.stages ∧
      d'.programs = match outcome with
        | .ok () => before.programs.insert program { p with attached := [] }
        | .error _ => before.programs := by
  rcases exists_release hbefore hd hsite hview with ⟨d₁, hrelease, _, hview₁⟩
  have hstages₁ : d₁.stages = before.stages := congrArg View.stages hview₁
  have hprograms₁ : d₁.programs = before.programs.insert program { p with attached := [] } :=
    congrArg View.programs hview₁
  simp only [completes_bind_of hrelease]
  cases outcome with
  | ok _ => exact ⟨d₁, completes_pure_iff.mpr ⟨rfl, rfl⟩, hstages₁, hprograms₁⟩
  | error e =>
    rcases exists_deleteProgram hsite.program_fresh hprograms₁ rfl
      with ⟨d₂, hdelete, hstages₂, hprograms₂⟩
    exact ⟨d₂, (completes_bind_of hdelete).mpr (completes_pure_iff.mpr ⟨rfl, rfl⟩),
      hstages₂.trans hstages₁, hprograms₂⟩

theorem exists_createProgram (hd : d.Consistent) (hallowed : d.failsProgramCreation = false) :
    ∃ program d₁, Completes (driver .createProgram) d (some program) d₁ ∧
      IsStrictSite d program ⟨[], false, false, ""⟩ [] ∧
      d₁.view = strictSite d 0 program ⟨[], false, false, ""⟩ [] := by
  refine ⟨⟨d.lastProgram + 1, Nat.succ_pos _⟩, _,
    completes_createProgram_iff.mpr (.inr ⟨hallowed, _, rfl, rfl, rfl⟩), ⟨?_, trivial, rfl⟩, rfl⟩
  exact hd.program_fresh (Nat.lt_succ_self _)

/--
A build never misuses the driver, in whatever state the driver is, and whatever the driver is made
to fail at. The objects that were there before the build are there after it, as they were. There is
one more object only if the build succeeds: the program, which has no stages attached. It succeeds
exactly if the program and each of the stages can be created, each source is found and compiles,
there is at least one, and the driver is not made to fail at the link or the validation.
-/
theorem run_completes (h : d.Reachable) (resolve : Resolver ε) (descriptor : Descriptor) :
    ∃ result d', Completes (run driver resolve descriptor) d result d' ∧
      d'.stages = d.stages ∧
      (match result with
        | .error _ => d'.programs = d.programs
        | .ok program =>
          d.programs.get? program = none ∧
            d'.programs = d.programs.insert program
              { attached := [], linked := true, validated := true, log := "" }) ∧
      ((∃ program, result = .ok program) ↔
        d.failsProgramCreation = false ∧ descriptor.units ≠ [] ∧
          Spared d.failingStageCreation d.stageCreations descriptor.units.length ∧
          (∀ unit ∈ descriptor.units, Compiles resolve unit) ∧
          d.linkFailure = none ∧ d.validationFailure = none) := by
  have hd := h.consistent
  unfold run
  cases hfails : d.failsProgramCreation with
  | true =>
    have hcreate := completes_createProgram_iff.mpr (.inl ⟨hfails, rfl, rfl⟩)
    refine ⟨_, _, (completes_bind_of hcreate).mpr (completes_pure_iff.mpr ⟨rfl, rfl⟩), rfl, rfl, ?_⟩
    simp
  | false =>
    rcases exists_createProgram hd hfails with ⟨program, d₁, hcreate, hsite₁, hview₁⟩
    rcases exists_addStages (hd.call hcreate) hsite₁ hview₁ resolve descriptor.units
      with ⟨built, added, p, attempts, d₂, hadd, hd₂, hsite₂, hview₂, hlength, hadded⟩
    rw [List.map_nil, List.reverse_nil] at hadd
    simp only [completes_bind_of hcreate, completes_bind_of hadd]
    cases added with
    | error e =>
      rcases exists_conclude hd hd₂ hsite₂ hview₂ (.error e)
        with ⟨d', hconclude, hstages, hprograms⟩
      simp only [pure_bind]
      refine ⟨.error e, d', hconclude, hstages, hprograms, ?_⟩
      constructor
      . rintro ⟨program', hok⟩
        cases hok
      . rintro ⟨_, _, hspared, hcompiles, _⟩
        cases hadded.mpr ⟨hspared, hcompiles⟩
    | ok _ =>
      rcases exists_finish hd₂ (get?_of_view hview₂)
        with ⟨outcome, p', d₃, hfinish, hd₃, hattached, hview₃, hbuilt, hfinished⟩
      rw [hview₂] at hview₃
      have hsite₃ : IsStrictSite d program p' built :=
        ⟨hsite₂.program_fresh, hsite₂.stages_fresh, hattached.trans hsite₂.attached_eq⟩
      rcases exists_conclude hd hd₃ hsite₃ (hview₃.trans (View.withProgram_withProgram _ _ _ _))
        outcome with ⟨d', hconclude, hstages, hprograms⟩
      refine ⟨_, d', (completes_bind_of hfinish).mpr hconclude, hstages, ?_, ?_⟩
      . cases outcome with
        | error e => exact hprograms
        | ok _ =>
          rw [hbuilt rfl] at hprograms
          exact ⟨hsite₁.program_fresh, hprograms⟩
      . have hresult : (∃ program', outcome.map (fun _ => program) = .ok program')
            ↔ outcome = .ok () := by
          cases outcome with
          | error e => simp [Except.map]
          | ok _ => simp [Except.map]
        have hnonempty : p.attached ≠ [] ↔ descriptor.units ≠ [] := by
          rw [hsite₂.attached_eq, ← List.length_pos_iff, ← List.length_pos_iff, List.length_map,
            hlength rfl, List.length_nil, Nat.zero_add]
        have hlink : d₂.linkFailure = d.linkFailure := congrArg View.linkFailure hview₂
        have hvalidation : d₂.validationFailure = d.validationFailure :=
          congrArg View.validationFailure hview₂
        rw [hresult, hfinished, hnonempty, hlink, hvalidation]
        rcases hadded.mp rfl with ⟨hspared, hcompiles⟩
        constructor
        . rintro ⟨hlinked, hunits, hvalid⟩
          exact ⟨trivial, hunits, hspared, hcompiles, hlinked, hvalid⟩
        . rintro ⟨_, hunits, _, _, hlinked, hvalid⟩
          exact ⟨hlinked, hunits, hvalid⟩

/--
Builds next to a program that has a stage attached, where the third attempt to create a stage fails.
-/
theorem run_completes_refused_stage :
    let program : ProgramHandle := ⟨1, by decide⟩
    let stage : StageHandle := ⟨1, by decide⟩
    let resolve : Resolver Unit := fun _ => .ok ⟨"", []⟩
    ∃ d : StrictDriver, d.Reachable ∧
      d.programs.get? program = some ⟨[stage], false, false, ""⟩ ∧
      (∃ built d', Completes (run driver resolve ⟨[⟨.vertex, "a.vert"⟩]⟩) d (.ok built) d') ∧
      ∃ e d', Completes
          (run driver resolve ⟨[⟨.vertex, "a.vert"⟩, ⟨.fragment, "b.frag"⟩]⟩) d (.error e) d' ∧
        d'.stages = d.stages ∧ d'.programs = d.programs := by
  intro program stage resolve
  let d₁ := (new.withNewProgram program).recorded ⟨.createProgram, some program⟩
  let d₂ := (d₁.withNewStage stage .compute).recorded ⟨.createStage .compute, some stage⟩
  let d₃ := (d₂.withStage stage (compiledStage ⟨"", false, ""⟩)).recorded ⟨.compileStage stage, ()⟩
  let d₄ := (d₃.withProgram program ⟨[stage], false, false, ""⟩).recorded
    ⟨.attachStage program stage, ()⟩
  have h₁ : Completes (driver .createProgram) new (some program) d₁ := rfl
  have h₂ : Completes (driver (.createStage .compute)) d₁ (some stage) d₂ := rfl
  have h₃ : Completes (driver (.compileStage stage)) d₂ () d₃ := rfl
  have h₄ : Completes (driver (.attachStage program stage)) d₃ () d₄ := rfl
  have hreachable := ((((Reachable.new.call h₁).call h₂).call h₃).call h₄).failStageCreationAt 2
  refine ⟨_, hreachable, rfl, ?_, ?_⟩
  . rcases run_completes hreachable resolve ⟨[⟨.vertex, "a.vert"⟩]⟩
      with ⟨result, d', hrun, _, _, hok⟩
    have hsucceeds : ∃ built, result = .ok built := by
      apply hok.mpr
      refine ⟨rfl, by simp, ?_, ?_, rfl, rfl⟩
      . rintro _ ⟨⟩
        decide
      . intro unit _
        refine ⟨_, rfl, ?_⟩
        intro line hline
        cases hline
    rcases hsucceeds with ⟨built, rfl⟩
    exact ⟨built, d', hrun⟩
  . rcases run_completes hreachable resolve ⟨[⟨.vertex, "a.vert"⟩, ⟨.fragment, "b.frag"⟩]⟩
      with ⟨result, d', hrun, hstages, hprograms, hok⟩
    cases result with
    | error e => exact ⟨e, d', hrun, hstages, hprograms⟩
    | ok built =>
      have hspared := (hok.mp ⟨built, rfl⟩).2.2.1 2 rfl
      exact absurd (by decide) hspared

end Build
end ShaderBuild
