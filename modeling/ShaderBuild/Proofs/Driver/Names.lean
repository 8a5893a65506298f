import ShaderBuild.Proofs.Driver.Teardown

/-!
This module contains how the software driver gives out names. Names are counted up, so none is given
out twice. A handle whose object is gone stays without an object, and calls with such a handle find
nothing to work on.
-/

namespace ShaderBuild

namespace Call

/--
The stage object that the call names.
-/
def stage? : Call → Option StageHandle
  | setSource stage _ | compileStage stage | compileStatus stage | compileLog stage
  | attachStage _ stage | detachStage _ stage | deleteStage stage => some stage
  | _ => none

/--
The program object that the call names.
-/
def program? : Call → Option ProgramHandle
  | attachStage program _ | detachStage program _ | linkProgram program | linkStatus program
  | programLog program | validateProgram program | validateStatus program
  | deleteProgram program => some program
  | _ => none

/--
The answer to a call that finds nothing: no object, a status that is false, or an empty log.
-/
def nullAnswer : (call : Call) → call.Answer
  | createProgram | createStage _ => none
  | compileStatus _ | linkStatus _ | validateStatus _ => false
  | compileLog _ | programLog _ => ""
  | setSource _ _ | compileStage _ | attachStage _ _ | detachStage _ _ | deleteStage _
  | linkProgram _ | validateProgram _ | deleteProgram _ => ()

end Call

/--
The name that is given to a new object.
-/
def Event.name? : Event → Option Nat
  | ⟨.createProgram, program?⟩ => program?.map ProgramHandle.raw
  | ⟨.createStage _, stage?⟩ => stage?.map StageHandle.raw
  | _ => none

namespace SoftDriver

variable {d d' : SoftDriver} {frontEnd : FrontEnd} {program : ProgramHandle} {stage : StageHandle}

/--
A call gives out the next name, or it gives out none.
-/
theorem name?_of_call (event : Event)
    (h : (driver frontEnd event.call).run d = (event.answer, d')) :
    event.name? = none ∧ d'.lastName = d.lastName ∨
      event.name? = some d'.lastName ∧ d'.lastName = d.lastName + 1 ∧
        d'.lastName < Text.wordLimit := by
  have hafter : ((driver frontEnd event.call).run d).2 = d' := by rw [h]
  rcases event with ⟨call, answer⟩
  cases call with
  | createProgram =>
    change d.createProgram = (answer, d') at h
    unfold createProgram hasName at h
    split at h
    . next hname =>
      cases h
      exact .inr ⟨rfl, rfl, of_decide_eq_true hname⟩
    . cases h
      exact .inl ⟨rfl, rfl⟩
  | createStage kind =>
    change d.createStage kind = (answer, d') at h
    unfold createStage hasName at h
    split at h
    . next hname =>
      rw [Bool.and_eq_true] at hname
      cases h
      exact .inr ⟨rfl, rfl, of_decide_eq_true hname.2⟩
    . cases h
      exact .inl ⟨rfl, rfl⟩
  | _ =>
    refine .inl ⟨rfl, ?_⟩
    rw [← hafter]
    exact (NothingNew.call d frontEnd rfl).lastName_eq

theorem names_of_replays {trace : List Event} (h : Replays (driver frontEnd) d trace d') :
    ∃ n, d'.lastName = d.lastName + n ∧
      trace.filterMap Event.name? = List.range' (d.lastName + 1) n := by
  induction h with
  | nil => exact ⟨0, rfl, rfl⟩
  | cons hcall _ ih =>
    rcases ih with ⟨n, hlast, hnames⟩
    rcases name?_of_call _ hcall with ⟨hname, heq⟩ | ⟨hname, heq, _⟩
    . refine ⟨n, by omega, ?_⟩
      rw [List.filterMap_cons_none hname, hnames, heq]
    . refine ⟨n + 1, by omega, ?_⟩
      rw [List.filterMap_cons_some hname, hnames, heq, List.range'_succ]

theorem lastName_of_replays {trace : List Event} (h : Replays (driver frontEnd) d trace d') :
    d'.lastName = d.lastName + (trace.filterMap Event.name?).length := by
  rcases names_of_replays h with ⟨n, hlast, hnames⟩
  rw [hlast, hnames, List.length_range']

theorem Reachable.lastName_lt (h : Reachable frontEnd d) : d.lastName < Text.wordLimit := by
  induction h with
  | new => decide
  | @call d call _ ih =>
    cases hcall : (driver frontEnd call).run d with
    | mk answer d' =>
      rcases name?_of_call ⟨call, answer⟩ hcall with ⟨_, heq⟩ | ⟨_, _, hlt⟩
      . dsimp only
        rw [heq]
        exact ih
      . exact hlt

theorem createProgram_eq_none_iff (hlt : d.lastName < Text.wordLimit) :
    d.createProgram.1 = none ↔ d.lastName + 1 = Text.wordLimit := by
  unfold createProgram hasName
  split
  . next hname =>
    have := of_decide_eq_true hname
    simp
    omega
  . next hname =>
    have := of_decide_eq_false (eq_false_of_ne_true hname)
    simp
    omega

theorem createStage_eq_none_iff (hlt : d.lastName < Text.wordLimit) (kind : Stage) :
    (d.createStage kind).1 = none
      ↔
    kind.isParsable = false ∨ d.lastName + 1 = Text.wordLimit := by
  unfold createStage hasName
  split
  . next hallowed =>
    rw [Bool.and_eq_true, decide_eq_true_iff] at hallowed
    simp [hallowed.1]
    omega
  . next hrefused =>
    rw [Bool.and_eq_true, decide_eq_true_iff, not_and_or, Bool.not_eq_true] at hrefused
    rcases hrefused with hunparsable | hname
    . simp [hunparsable]
    . have heq : d.lastName + 1 = Text.wordLimit := by omega
      simp [heq]

theorem stage_gone_of_call (call : Call) (hle : stage.raw ≤ d.lastName)
    (hgone : d.stages.get? stage = none) :
    ((driver frontEnd call).run d).2.stages.get? stage = none := by
  cases call with
  | createProgram =>
    show d.createProgram.2.stages.get? stage = none
    unfold createProgram
    split
    . exact hgone
    . exact hgone
  | createStage kind =>
    show (d.createStage kind).2.stages.get? stage = none
    unfold createStage
    split
    . rw [Table.get?_insert, if_neg]
      . exact hgone
      . rintro rfl
        dsimp only at hle
        omega
    . exact hgone
  | _ => exact (NothingNew.call d frontEnd rfl).stage_gone hgone

theorem program_gone_of_call (call : Call) (hle : program.raw ≤ d.lastName)
    (hgone : d.programs.get? program = none) :
    ((driver frontEnd call).run d).2.programs.get? program = none := by
  cases call with
  | createProgram =>
    show d.createProgram.2.programs.get? program = none
    unfold createProgram
    split
    . rw [Table.get?_insert, if_neg]
      . exact hgone
      . rintro rfl
        dsimp only at hle
        omega
    . exact hgone
  | createStage kind =>
    show (d.createStage kind).2.programs.get? program = none
    unfold createStage
    split
    . exact hgone
    . exact hgone
  | _ => exact (NothingNew.call d frontEnd rfl).program_gone hgone

theorem gone_of_replays {trace : List Event} (h : Replays (driver frontEnd) d trace d') :
    (∀ stage : StageHandle, stage.raw ≤ d.lastName → d.stages.get? stage = none →
        d'.stages.get? stage = none) ∧
      (∀ program : ProgramHandle, program.raw ≤ d.lastName → d.programs.get? program = none →
        d'.programs.get? program = none) := by
  induction h with
  | nil => exact ⟨fun _ _ hgone => hgone, fun _ _ hgone => hgone⟩
  | @cons d₁ d₂ _ event _ hcall _ ih =>
    have hle : d₁.lastName ≤ d₂.lastName := by
      rcases name?_of_call event hcall with ⟨_, heq⟩ | ⟨_, heq, _⟩
      . omega
      . omega
    have hafter := congrArg Prod.snd hcall
    dsimp only at hafter
    constructor
    . intro stage hgiven hgone
      apply ih.1 stage (by omega)
      rw [← hafter]
      exact stage_gone_of_call event.call hgiven hgone
    . intro program hgiven hgone
      apply ih.2 program (by omega)
      rw [← hafter]
      exact program_gone_of_call event.call hgiven hgone

theorem releaseUnused_of_gone (hgone : d.stages.get? stage = none) : d.releaseUnused stage = d := by
  unfold releaseUnused
  rw [hgone]

theorem modify_stage_of_gone (hgone : d.stages.get? stage = none)
    (f : StageObject → StageObject) : { d with stages := d.stages.modify stage f } = d := by
  rw [Table.modify_of_fresh hgone]

theorem modify_program_of_gone (hgone : d.programs.get? program = none)
    (f : ProgramObject → ProgramObject) :
    { d with programs := d.programs.modify program f } = d := by
  rw [Table.modify_of_fresh hgone]

/--
A call that names a stage that does not exist has no effect. No program has such a stage attached,
so there is nothing to detach either.
-/
theorem Consistent.call_of_stage_gone (h : d.Consistent) (frontEnd : FrontEnd) {call : Call}
    (hcall : call.stage? = some stage) (hgone : d.stages.get? stage = none) :
    (driver frontEnd call).run d = (call.nullAnswer, d) := by
  cases call with
  | setSource | compileStage =>
    cases hcall
    exact congrArg (Prod.mk ()) (modify_stage_of_gone hgone _)
  | compileStatus =>
    cases hcall
    show (d.compileStatus stage, d) = (false, d)
    unfold compileStatus
    rw [hgone]
  | compileLog =>
    cases hcall
    show (d.compileLog stage, d) = ("", d)
    unfold compileLog
    rw [hgone]
  | attachStage program =>
    cases hcall
    show ((), d.attachStage program stage) = ((), d)
    unfold SoftDriver.attachStage
    rw [hgone]
    cases d.programs.get? program with
    | none => rfl
    | some o => rfl
  | detachStage program =>
    cases hcall
    show ((), d.detachStage program stage) = ((), d)
    unfold SoftDriver.detachStage
    cases ho : d.programs.get? program with
    | none => rfl
    | some o =>
      dsimp only
      rw [if_neg]
      intro hattached
      rcases h.stage_of_attached ho hattached with ⟨s, hs⟩
      rw [hgone] at hs
      cases hs
  | deleteStage =>
    cases hcall
    show ((), d.deleteStage stage) = ((), d)
    unfold SoftDriver.deleteStage
    rw [modify_stage_of_gone hgone, releaseUnused_of_gone hgone]
  | _ => cases hcall

theorem call_of_program_gone (frontEnd : FrontEnd) {call : Call}
    (hcall : call.program? = some program) (hgone : d.programs.get? program = none) :
    (driver frontEnd call).run d = (call.nullAnswer, d) := by
  cases call with
  | attachStage _ stage =>
    cases hcall
    show ((), d.attachStage program stage) = ((), d)
    unfold attachStage
    rw [hgone]
  | detachStage _ stage =>
    cases hcall
    show ((), d.detachStage program stage) = ((), d)
    unfold detachStage
    rw [hgone]
  | linkProgram | validateProgram =>
    cases hcall
    exact congrArg (Prod.mk ()) (modify_program_of_gone hgone _)
  | linkStatus =>
    cases hcall
    show (d.linkStatus program, d) = (false, d)
    unfold linkStatus
    rw [hgone]
  | programLog =>
    cases hcall
    show (d.programLog program, d) = ("", d)
    unfold programLog
    rw [hgone]
  | validateStatus =>
    cases hcall
    show (d.validateStatus program, d) = (false, d)
    unfold validateStatus
    rw [hgone]
  | deleteProgram =>
    cases hcall
    show ((), d.deleteProgram program) = ((), d)
    unfold deleteProgram
    rw [hgone]
  | _ => cases hcall

/--
The names that are given out in a run are counted up from one, whatever they are given to. A
creation is refused for a stage that cannot be parsed or if all names are used up, and a refused one
has no effect. Once an object is gone whose name was given out, its handle names no object in any
continuation of the run, and no call with it has any effect or finds anything.
-/
theorem names_never_reused {first second : List Event}
    (hfirst : Replays (driver frontEnd) new first d)
    (hsecond : Replays (driver frontEnd) d second d') :
    (first.filterMap Event.name? = List.range' 1 d.lastName ∧ d.lastName < Text.wordLimit) ∧
      (d.createProgram.1 = none ↔ d.lastName + 1 = Text.wordLimit) ∧
      (d.createProgram.1 = none → d.createProgram.2 = d) ∧
      (∀ kind, (d.createStage kind).1 = none ↔
        kind.isParsable = false ∨ d.lastName + 1 = Text.wordLimit) ∧
      (∀ kind, (d.createStage kind).1 = none → (d.createStage kind).2 = d) ∧
      (∀ stage : StageHandle, stage.raw ∈ first.filterMap Event.name? →
        d.stages.get? stage = none →
          d'.stages.get? stage = none ∧
            ∀ call : Call, call.stage? = some stage →
              (driver frontEnd call).run d' = (call.nullAnswer, d')) ∧
      (∀ program : ProgramHandle, program.raw ∈ first.filterMap Event.name? →
        d.programs.get? program = none →
          d'.programs.get? program = none ∧
            ∀ call : Call, call.program? = some program →
              (driver frontEnd call).run d' = (call.nullAnswer, d')) := by
  have hreachable : Reachable frontEnd d := Reachable.new.replays hfirst
  have hlt := hreachable.lastName_lt
  have hconsistent := (hreachable.replays hsecond).consistent
  have hgone := gone_of_replays hsecond
  have hnames : first.filterMap Event.name? = List.range' 1 d.lastName := by
    rcases names_of_replays hfirst with ⟨n, hlast, hnames⟩
    rw [hnames, hlast]
    simp [SoftDriver.new]
  have hgiven {n : Nat} (hmem : n ∈ first.filterMap Event.name?) : n ≤ d.lastName := by
    rw [hnames, List.mem_range'_1] at hmem
    omega
  refine ⟨⟨hnames, hlt⟩, createProgram_eq_none_iff hlt, ?_, createStage_eq_none_iff hlt, ?_, ?_, ?_⟩
  . intro hrefused
    exact createProgram_eq_none (Prod.ext hrefused rfl)
  . intro kind hrefused
    exact createStage_eq_none (Prod.ext hrefused rfl)
  . intro stage hmem hfreed
    have hfreed' := hgone.1 stage (hgiven hmem) hfreed
    refine ⟨hfreed', ?_⟩
    intro call hcall
    exact hconsistent.call_of_stage_gone frontEnd hcall hfreed'
  . intro program hmem hdeleted
    have hdeleted' := hgone.2 program (hgiven hmem) hdeleted
    refine ⟨hdeleted', ?_⟩
    intro call hcall
    exact call_of_program_gone frontEnd hcall hdeleted'

/--
The name of a stage that was freed when it was detached is not used for the next stage, and it
cannot be attached again.
-/
theorem names_never_reused_freed_stage :
    let frontEnd : FrontEnd := fun _ _ => .ok ⟨[], none⟩
    let program : ProgramHandle := ⟨1, by decide⟩
    let stage : StageHandle := ⟨2, by decide⟩
    let other : StageHandle := ⟨3, by decide⟩
    let first : List Event := [⟨.createProgram, some program⟩, ⟨.createStage .geometry, none⟩,
      ⟨.createStage .vertex, some stage⟩, ⟨.attachStage program stage, ()⟩,
      ⟨.deleteStage stage, ()⟩, ⟨.detachStage program stage, ()⟩]
    let second : List Event := [⟨.createStage .vertex, some other⟩]
    ∃ d d', Replays (driver frontEnd) new first d ∧ Replays (driver frontEnd) d second d' ∧
      first.filterMap Event.name? = [1, 2] ∧ d'.stages.get? stage = none ∧
        (driver frontEnd (.attachStage program stage)).run d' = ((), d') := by
  intro frontEnd program stage other first second
  have hruns : ∃ d d', Replays (driver frontEnd) new first d ∧
      Replays (driver frontEnd) d second d' ∧ d.stages.get? stage = none :=
    ⟨_, _, .cons rfl (.cons rfl (.cons rfl (.cons rfl (.cons rfl (.cons rfl (.nil _)))))),
      .cons rfl (.nil _), rfl⟩
  rcases hruns with ⟨d, d', hfirst, hsecond, hfreed⟩
  have hnames : first.filterMap Event.name? = [1, 2] := rfl
  have hmem : stage.raw ∈ first.filterMap Event.name? := by
    rw [hnames]
    decide
  have h := (names_never_reused hfirst hsecond).2.2.2.2.2.1 stage hmem hfreed
  exact ⟨d, d', hfirst, hsecond, hnames, h.1, h.2 (.attachStage program stage) rfl⟩

end SoftDriver
end ShaderBuild
