import ShaderBuild.Driver.Strict

/-!
This module contains when the strict driver takes a call, and what it does then. A call that it does
not take is a misuse.
-/

namespace ShaderBuild
namespace StrictDriver

variable {α β : Type}

/--
From the first state the run comes to the value and to the second state, without a misuse.
-/
def Completes (x : Run α) (d : StrictDriver) (a : α) (d' : StrictDriver) : Prop :=
  x.run.run d = (.ok a, d')

variable {d d' : StrictDriver} {a : α} {b : β}

theorem completes_bind_iff {x : Run α} {f : α → Run β} :
    Completes (x >>= f) d b d' ↔ ∃ a d₁, Completes x d a d₁ ∧ Completes (f a) d₁ b d' := by
  unfold Completes
  rw [ExceptT.run_bind, StateT.run_bind]
  generalize x.run.run d = result
  rcases result with ⟨outcome, d₁⟩
  cases outcome with
  | error misuse =>
    constructor
    . intro h
      cases h
    . rintro ⟨a, d₂, h, _⟩
      cases h
  | ok a =>
    constructor
    . intro h
      exact ⟨a, d₁, rfl, h⟩
    . rintro ⟨a, d₂, h, hf⟩
      cases h
      exact hf

theorem completes_bind_of {x : Run α} {f : α → Run β} {d₁ : StrictDriver}
    (h : Completes x d a d₁) : Completes (x >>= f) d b d' ↔ Completes (f a) d₁ b d' := by
  rw [completes_bind_iff]
  constructor
  . rintro ⟨a', d₂, h', hf⟩
    unfold Completes at h h'
    rw [h] at h'
    cases h'
    exact hf
  . intro hf
    exact ⟨a, d₁, h, hf⟩

theorem completes_pure_iff {a' : α} : Completes (pure a) d a' d' ↔ a = a' ∧ d = d' := by
  constructor
  . intro h
    cases h
    exact ⟨rfl, rfl⟩
  . rintro ⟨rfl, rfl⟩
    rfl

theorem completes_get_bind_iff {f : StrictDriver → Run β} :
    Completes (get >>= f) d b d' ↔ Completes (f d) d b d' :=
  Iff.rfl

theorem completes_set_bind_iff {d₁ : StrictDriver} {f : PUnit → Run β} :
    Completes (set d₁ >>= f) d b d' ↔ Completes (f ⟨⟩) d₁ b d' :=
  Iff.rfl

theorem completes_require_bind_iff {misuse : Misuse} {value? : Option α} {f : α → Run β} :
    Completes (require misuse value? >>= f) d b d'
      ↔
    ∃ value, value? = some value ∧ Completes (f value) d b d' := by
  cases value? with
  | none =>
    constructor
    . intro h
      cases h
    . rintro ⟨_, h, _⟩
      cases h
  | some value =>
    constructor
    . intro h
      exact ⟨value, rfl, h⟩
    . rintro ⟨_, heq, h⟩
      cases heq
      exact h

/--
A run gets past a test that stops it only if the test fails.
-/
theorem completes_unless_iff {c : Prop} [Decidable c] {misuse : Misuse} {f : PUnit → Run β}
    {x : Run β} :
    Completes (if c then throw misuse >>= f else x) d b d' ↔ ¬c ∧ Completes x d b d' := by
  by_cases hc : c
  . rw [if_pos hc]
    constructor
    . intro h
      cases h
    . rintro ⟨h, _⟩
      exact absurd hc h
  . rw [if_neg hc]
    exact (and_iff_right hc).symm

/--
The state with one more call on record.
-/
def recorded (d : StrictDriver) (event : Event) : StrictDriver :=
  { d with events := d.events ++ [event] }

/--
The state with another stage object under a name.
-/
def withStage (d : StrictDriver) (stage : StageHandle) (o : StrictStage) : StrictDriver :=
  { d with stages := d.stages.insert stage o }

/--
The state with another program object under a name.
-/
def withProgram (d : StrictDriver) (program : ProgramHandle) (p : StrictProgram) : StrictDriver :=
  { d with programs := d.programs.insert program p }

/--
What a compile makes of a stage object.
-/
def compiledStage (o : StrictStage) : StrictStage where
  source := o.source
  compiled := (errorLines o.source).isEmpty
  log :=
    if (errorLines o.source).isEmpty then ""
    else "Shader info log:\n" ++ Text.join "\n" (errorLines o.source)

/--
What a link makes of a program object, given the log of a link that is to fail.
-/
def linkedProgram (failure : Option String) (p : StrictProgram) : StrictProgram :=
  { p with
    linked := failure.isNone && !p.attached.isEmpty
    log := failure.getD "" }

/--
What a validation makes of a program object, given the log of a validation that is to fail.
-/
def validatedProgram (failure : Option String) (p : StrictProgram) : StrictProgram :=
  { p with
    validated := p.linked && failure.isNone
    log := failure.getD "" }

theorem completes_record_iff {call : Call} {answer : call.Answer} {u : Unit} :
    Completes (record call answer) d u d' ↔ d' = d.recorded ⟨call, answer⟩ := by
  constructor
  . intro h
    cases h
    rfl
  . rintro rfl
    rfl

variable {stage : StageHandle} {program : ProgramHandle} {kind : Stage} {text : String}

/--
The state with one more program object, under the next name.
-/
def withNewProgram (d : StrictDriver) (program : ProgramHandle) : StrictDriver :=
  { d with lastProgram := d.lastProgram + 1 }.withProgram program ⟨[], false, false, ""⟩

/--
The state with one more stage object, under the next name.
-/
def withNewStage (d : StrictDriver) (stage : StageHandle) (kind : Stage) : StrictDriver :=
  { d with
    lastStage := d.lastStage + 1
    stageTypes := d.stageTypes.insert stage kind
    stageCreations := d.stageCreations + 1 }.withStage stage ⟨"", false, ""⟩

theorem completes_createProgram_iff {program? : Option ProgramHandle} :
    Completes (driver .createProgram) d program? d'
      ↔
    (d.failsProgramCreation = true ∧ program? = none ∧
        d' = d.recorded ⟨.createProgram, none⟩) ∨
      (d.failsProgramCreation = false ∧ ∃ program : ProgramHandle,
        program.raw = d.lastProgram + 1 ∧ program? = some program ∧
          d' = (d.withNewProgram program).recorded ⟨.createProgram, some program⟩) := by
  show Completes createProgram d program? d' ↔ _
  unfold createProgram ProgramHandle.ofRaw?
  rw [completes_get_bind_iff, dif_pos (Nat.succ_pos _)]
  by_cases hfails : d.failsProgramCreation = true
  . simp only [if_pos hfails]
    constructor
    . intro h
      cases h
      exact .inl ⟨hfails, rfl, rfl⟩
    . rintro (⟨_, rfl, rfl⟩ | ⟨hnot, _⟩)
      . rfl
      . rw [hnot] at hfails
        cases hfails
  . simp only [if_neg hfails]
    rw [Bool.not_eq_true] at hfails
    constructor
    . intro h
      cases h
      exact .inr ⟨hfails, _, rfl, rfl, rfl⟩
    . rintro (⟨heq, _⟩ | ⟨_, ⟨raw, hpos⟩, rfl, rfl, rfl⟩)
      . rw [hfails] at heq
        cases heq
      . rfl

theorem completes_createStage_iff {stage? : Option StageHandle} :
    Completes (driver (.createStage kind)) d stage? d'
      ↔
    (d.failingStageCreation = some d.stageCreations ∧ stage? = none ∧
        d' = { d with stageCreations := d.stageCreations + 1 }.recorded
          ⟨.createStage kind, none⟩) ∨
      (d.failingStageCreation ≠ some d.stageCreations ∧ ∃ stage : StageHandle,
        stage.raw = d.lastStage + 1 ∧ stage? = some stage ∧
          d' = (d.withNewStage stage kind).recorded ⟨.createStage kind, some stage⟩) := by
  show Completes (createStage kind) d stage? d' ↔ _
  unfold createStage StageHandle.ofRaw?
  rw [completes_get_bind_iff, dif_pos (Nat.succ_pos _)]
  by_cases hfails : d.failingStageCreation = some d.stageCreations
  . simp only [if_pos hfails]
    constructor
    . intro h
      cases h
      exact .inl ⟨hfails, rfl, rfl⟩
    . rintro (⟨_, rfl, rfl⟩ | ⟨hne, _⟩)
      . rfl
      . exact absurd hfails hne
  . simp only [if_neg hfails]
    constructor
    . intro h
      cases h
      exact .inr ⟨hfails, _, rfl, rfl, rfl⟩
    . rintro (⟨heq, _⟩ | ⟨_, ⟨raw, hpos⟩, rfl, rfl, rfl⟩)
      . exact absurd heq hfails
      . rfl

theorem completes_setSource_iff {u : Unit} :
    Completes (driver (.setSource stage text)) d u d'
      ↔
    ∃ o, d.stages.get? stage = some o ∧
      d' = (d.withStage stage { o with source := text }).recorded ⟨.setSource stage text, ()⟩ := by
  show Completes (setSource stage text) d u d' ↔ _
  unfold setSource
  simp only [completes_get_bind_iff, completes_require_bind_iff, completes_set_bind_iff,
    completes_record_iff]
  rfl

theorem completes_compileStage_iff {u : Unit} :
    Completes (driver (.compileStage stage)) d u d'
      ↔
    ∃ o, d.stages.get? stage = some o ∧
      d' = (d.withStage stage (compiledStage o)).recorded ⟨.compileStage stage, ()⟩ := by
  show Completes (compileStage stage) d u d' ↔ _
  unfold compileStage
  simp only [completes_get_bind_iff, completes_require_bind_iff, completes_set_bind_iff,
    completes_record_iff]
  rfl

theorem completes_compileStatus_iff {status : Bool} :
    Completes (driver (.compileStatus stage)) d status d'
      ↔
    ∃ o, d.stages.get? stage = some o ∧ o.compiled = status ∧ d = d' := by
  show Completes (compileStatus stage) d status d' ↔ _
  unfold compileStatus
  simp only [completes_get_bind_iff, completes_require_bind_iff, completes_pure_iff]

theorem completes_compileLog_iff {log : String} :
    Completes (driver (.compileLog stage)) d log d'
      ↔
    ∃ o, d.stages.get? stage = some o ∧ o.log = log ∧ d = d' := by
  show Completes (compileLog stage) d log d' ↔ _
  unfold compileLog
  simp only [completes_get_bind_iff, completes_require_bind_iff, completes_pure_iff]

theorem completes_attachStage_iff {u : Unit} :
    Completes (driver (.attachStage program stage)) d u d'
      ↔
    ∃ o p, d.stages.get? stage = some o ∧ o.compiled = true ∧
      d.programs.get? program = some p ∧ stage ∉ p.attached ∧
        d' = (d.withProgram program { p with attached := p.attached ++ [stage] }).recorded
          ⟨.attachStage program stage, ()⟩ := by
  show Completes (attachStage program stage) d u d' ↔ _
  unfold attachStage
  simp only [completes_get_bind_iff, completes_require_bind_iff, completes_unless_iff,
    completes_set_bind_iff, completes_record_iff, Bool.not_eq_true', Bool.not_eq_false]
  constructor
  . rintro ⟨o, ho, hcompiled, p, hp, hattached, rfl⟩
    exact ⟨o, p, ho, hcompiled, hp, hattached, rfl⟩
  . rintro ⟨o, p, ho, hcompiled, hp, hattached, rfl⟩
    exact ⟨o, ho, hcompiled, p, hp, hattached, rfl⟩

theorem completes_detachStage_iff {u : Unit} :
    Completes (driver (.detachStage program stage)) d u d'
      ↔
    ∃ p, d.programs.get? program = some p ∧ stage ∈ p.attached ∧
      d' = (d.withProgram program { p with attached := p.attached.erase stage }).recorded
        ⟨.detachStage program stage, ()⟩ := by
  show Completes (detachStage program stage) d u d' ↔ _
  unfold detachStage
  simp only [completes_get_bind_iff, completes_require_bind_iff, completes_unless_iff,
    completes_set_bind_iff, completes_record_iff, Decidable.not_not]
  rfl

theorem completes_deleteStage_iff {u : Unit} :
    Completes (driver (.deleteStage stage)) d u d'
      ↔
    ∃ o, d.stages.get? stage = some o ∧ (∀ p ∈ d.programs.values, stage ∉ p.attached) ∧
      d' = { d with stages := d.stages.erase stage }.recorded ⟨.deleteStage stage, ()⟩ := by
  show Completes (deleteStage stage) d u d' ↔ _
  unfold deleteStage
  simp only [completes_get_bind_iff, completes_require_bind_iff, completes_unless_iff,
    completes_set_bind_iff, completes_record_iff, List.any_eq_true, decide_eq_true_iff, not_exists,
    not_and]

theorem completes_linkProgram_iff {u : Unit} :
    Completes (driver (.linkProgram program)) d u d'
      ↔
    ∃ p, d.programs.get? program = some p ∧
      d' = (d.withProgram program (linkedProgram d.linkFailure p)).recorded
        ⟨.linkProgram program, ()⟩ := by
  show Completes (linkProgram program) d u d' ↔ _
  unfold linkProgram
  simp only [completes_get_bind_iff, completes_require_bind_iff, completes_set_bind_iff,
    completes_record_iff]
  rfl

theorem completes_linkStatus_iff {status : Bool} :
    Completes (driver (.linkStatus program)) d status d'
      ↔
    ∃ p, d.programs.get? program = some p ∧ p.linked = status ∧ d = d' := by
  show Completes (linkStatus program) d status d' ↔ _
  unfold linkStatus
  simp only [completes_get_bind_iff, completes_require_bind_iff, completes_pure_iff]

theorem completes_programLog_iff {log : String} :
    Completes (driver (.programLog program)) d log d'
      ↔
    ∃ p, d.programs.get? program = some p ∧ p.log = log ∧ d = d' := by
  show Completes (programLog program) d log d' ↔ _
  unfold programLog
  simp only [completes_get_bind_iff, completes_require_bind_iff, completes_pure_iff]

theorem completes_validateProgram_iff {u : Unit} :
    Completes (driver (.validateProgram program)) d u d'
      ↔
    ∃ p, d.programs.get? program = some p ∧
      d' = (d.withProgram program (validatedProgram d.validationFailure p)).recorded
        ⟨.validateProgram program, ()⟩ := by
  show Completes (validateProgram program) d u d' ↔ _
  unfold validateProgram
  simp only [completes_get_bind_iff, completes_require_bind_iff, completes_set_bind_iff,
    completes_record_iff]
  rfl

theorem completes_validateStatus_iff {status : Bool} :
    Completes (driver (.validateStatus program)) d status d'
      ↔
    ∃ p, d.programs.get? program = some p ∧ p.validated = status ∧ d = d' := by
  show Completes (validateStatus program) d status d' ↔ _
  unfold validateStatus
  simp only [completes_get_bind_iff, completes_require_bind_iff, completes_pure_iff]

theorem completes_deleteProgram_iff {u : Unit} :
    Completes (driver (.deleteProgram program)) d u d'
      ↔
    ∃ p, d.programs.get? program = some p ∧ p.attached = [] ∧
      d' = { d with programs := d.programs.erase program }.recorded
        ⟨.deleteProgram program, ()⟩ := by
  show Completes (deleteProgram program) d u d' ↔ _
  unfold deleteProgram
  simp only [completes_get_bind_iff, completes_require_bind_iff, completes_unless_iff,
    completes_set_bind_iff, completes_record_iff, Bool.not_eq_true', Bool.not_eq_false,
    List.isEmpty_iff]

end StrictDriver
end ShaderBuild
