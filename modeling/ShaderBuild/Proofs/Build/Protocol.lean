import ShaderBuild.Build
import ShaderBuild.Proofs.Driver.Trace

/-!
This module contains the protocol between a build and its driver: which calls are made in which
order, depending on the answers and on nothing else. Every build keeps to it, and whatever the
answers are, it leaves the build no choice.
-/

namespace ShaderBuild

namespace Build

variable {ε : Type}

/--
The calls for one unit, and the stage that they attach or the reason why they attach none.
-/
inductive UnitTrace (resolve : Resolver ε) (program : ProgramHandle) (unit : ShaderUnit) :
    List Event → Except (BuildError ε) StageHandle → Prop
  | refused :
    UnitTrace resolve program unit [⟨.createStage unit.stage, none⟩]
      (.error (.stageCreation unit.stage))
  | unresolved {stage : StageHandle} {cause : ε} :
    resolve unit.sourceId = .error cause →
      UnitTrace resolve program unit
        [⟨.createStage unit.stage, some stage⟩, ⟨.deleteStage stage, ()⟩]
        (.error (.template unit.sourceId cause))
  | rejected {stage : StageHandle} {source : Source} {log : String} :
    resolve unit.sourceId = .ok source →
      UnitTrace resolve program unit
        [⟨.createStage unit.stage, some stage⟩, ⟨.setSource stage source.contents, ()⟩,
          ⟨.compileStage stage, ()⟩, ⟨.compileStatus stage, false⟩, ⟨.compileLog stage, log⟩,
          ⟨.deleteStage stage, ()⟩]
        (.error (.stageCompile unit.stage unit.sourceId (source.remapLog log)))
  | attached {stage : StageHandle} {source : Source} :
    resolve unit.sourceId = .ok source →
      UnitTrace resolve program unit
        [⟨.createStage unit.stage, some stage⟩, ⟨.setSource stage source.contents, ()⟩,
          ⟨.compileStage stage, ()⟩, ⟨.compileStatus stage, true⟩,
          ⟨.attachStage program stage, ()⟩]
        (.ok stage)

/--
The calls for units up to the first that fails, and the stages that they attach in this order.
-/
inductive UnitsTrace (resolve : Resolver ε) (program : ProgramHandle) :
    List ShaderUnit → List Event → List StageHandle → Except (BuildError ε) Unit → Prop
  | done : UnitsTrace resolve program [] [] [] (.ok ())
  | failed {unit : ShaderUnit} {rest : List ShaderUnit} {trace : List Event}
      {e : BuildError ε} :
    UnitTrace resolve program unit trace (.error e) →
      UnitsTrace resolve program (unit :: rest) trace [] (.error e)
  | next {unit : ShaderUnit} {rest : List ShaderUnit} {first others : List Event}
      {stage : StageHandle} {stages : List StageHandle} {outcome : Except (BuildError ε) Unit} :
    UnitTrace resolve program unit first (.ok stage) →
      UnitsTrace resolve program rest others stages outcome →
        UnitsTrace resolve program (unit :: rest) (first ++ others) (stage :: stages) outcome

/--
The calls that link and validate a program. The log is read right after a status that is false.
-/
inductive FinishTrace (program : ProgramHandle) : List Event → Except (BuildError ε) Unit → Prop
  | unlinked {log : String} :
    FinishTrace program
      [⟨.linkProgram program, ()⟩, ⟨.linkStatus program, false⟩, ⟨.programLog program, log⟩]
      (.error (.link log))
  | invalid {log : String} :
    FinishTrace program
      [⟨.linkProgram program, ()⟩, ⟨.linkStatus program, true⟩, ⟨.validateProgram program, ()⟩,
        ⟨.validateStatus program, false⟩, ⟨.programLog program, log⟩]
      (.error (.validation log))
  | valid :
    FinishTrace program
      [⟨.linkProgram program, ()⟩, ⟨.linkStatus program, true⟩, ⟨.validateProgram program, ()⟩,
        ⟨.validateStatus program, true⟩]
      (.ok ())

/--
The calls that detach stages and delete them, the latest attached first.
-/
def releaseTrace (program : ProgramHandle) (stages : List StageHandle) : List Event :=
  stages.reverse.flatMap fun stage => [⟨.detachStage program stage, ()⟩, ⟨.deleteStage stage, ()⟩]

theorem releaseTrace_concat (program : ProgramHandle) (stages : List StageHandle)
    (stage : StageHandle) :
    releaseTrace program (stages ++ [stage])
      =
    ⟨.detachStage program stage, ()⟩ :: ⟨.deleteStage stage, ()⟩ ::
      releaseTrace program stages := by
  unfold releaseTrace
  rw [List.reverse_concat, List.flatMap_cons]
  rfl

/--
The calls of a build, and what comes of it. The program is deleted, as the last call, if and only if
an error is reported for it.
-/
inductive Trace (resolve : Resolver ε) (units : List ShaderUnit) :
    List Event → Except (BuildError ε) ProgramHandle → Prop
  | refused :
    Trace resolve units [⟨.createProgram, none⟩] (.error .programCreation)
  | unitFailed {program : ProgramHandle} {trace : List Event} {stages : List StageHandle}
      {e : BuildError ε} :
    UnitsTrace resolve program units trace stages (.error e) →
      Trace resolve units
        ([⟨.createProgram, some program⟩] ++ trace ++ releaseTrace program stages ++
          [⟨.deleteProgram program, ()⟩])
        (.error e)
  | programFailed {program : ProgramHandle} {trace finish : List Event}
      {stages : List StageHandle} {e : BuildError ε} :
    UnitsTrace resolve program units trace stages (.ok ()) →
      FinishTrace program finish (.error e) →
        Trace resolve units
          ([⟨.createProgram, some program⟩] ++ trace ++ finish ++ releaseTrace program stages ++
            [⟨.deleteProgram program, ()⟩])
          (.error e)
  | built {program : ProgramHandle} {trace finish : List Event} {stages : List StageHandle} :
    UnitsTrace resolve program units trace stages (.ok ()) →
      FinishTrace (ε := ε) program finish (.ok ()) →
        Trace resolve units
          ([⟨.createProgram, some program⟩] ++ trace ++ finish ++ releaseTrace program stages)
          (.ok program)

variable {σ : Type} {driver : Driver (StateM σ)} {resolve : Resolver ε} {program : ProgramHandle}

theorem exists_unitTrace {unit : ShaderUnit} {s s' : σ}
    {outcome : Except (BuildError ε) StageHandle}
    (h : (addStage driver resolve program unit).run s = (outcome, s')) :
    ∃ trace, UnitTrace resolve program unit trace outcome ∧ Replays driver s trace s' := by
  unfold addStage at h
  rw [run_bind_eq_iff] at h
  rcases h with ⟨stage?, s₁, hcreate, h⟩
  cases stage? with
  | none =>
    dsimp only at h
    rw [run_pure_eq_iff] at h
    rcases h with ⟨rfl, rfl⟩
    exact ⟨_, .refused, .cons hcreate (.nil _)⟩
  | some stage =>
    dsimp only at h
    cases hresolve : resolve unit.sourceId with
    | error cause =>
      simp only [hresolve, run_bind_eq_iff, run_pure_eq_iff] at h
      rcases h with ⟨_, s₂, hdelete, rfl, rfl⟩
      exact ⟨_, .unresolved hresolve, .cons hcreate (.cons hdelete (.nil _))⟩
    | ok source =>
      simp only [hresolve, run_bind_eq_iff] at h
      rcases h with ⟨_, s₂, hset, _, s₃, hcompile, status, s₄, hstatus, h⟩
      cases status with
      | true =>
        simp only [if_true, run_bind_eq_iff, run_pure_eq_iff] at h
        rcases h with ⟨_, s₅, hattach, rfl, rfl⟩
        exact ⟨_, .attached hresolve, .cons hcreate (.cons hset (.cons hcompile (.cons hstatus
          (.cons hattach (.nil _)))))⟩
      | false =>
        simp only [Bool.false_eq_true, if_false, run_bind_eq_iff, run_pure_eq_iff] at h
        rcases h with ⟨log, s₅, hlog, _, s₆, hdelete, rfl, rfl⟩
        exact ⟨_, .rejected hresolve, .cons hcreate (.cons hset (.cons hcompile (.cons hstatus
          (.cons hlog (.cons hdelete (.nil _))))))⟩

theorem addStage_of_unitTrace {unit : ShaderUnit} {s s' : σ} {trace : List Event}
    {outcome : Except (BuildError ε) StageHandle}
    (htrace : UnitTrace resolve program unit trace outcome) (h : Replays driver s trace s') :
    (addStage driver resolve program unit).run s = (outcome, s') := by
  unfold addStage
  cases htrace with
  | refused =>
    simp only [Replays.cons_iff, Replays.nil_iff] at h
    rcases h with ⟨s₁, hcreate, rfl⟩
    rw [run_bind_of_run hcreate]
    rfl
  | unresolved hresolve =>
    simp only [Replays.cons_iff, Replays.nil_iff] at h
    rcases h with ⟨s₁, hcreate, s₂, hdelete, rfl⟩
    rw [run_bind_of_run hcreate]
    dsimp only
    rw [hresolve]
    dsimp only
    rw [run_bind_of_run hdelete]
    rfl
  | rejected hresolve =>
    simp only [Replays.cons_iff, Replays.nil_iff] at h
    rcases h with ⟨s₁, hcreate, s₂, hset, s₃, hcompile, s₄, hstatus, s₅, hlog, s₆, hdelete, rfl⟩
    rw [run_bind_of_run hcreate]
    dsimp only
    rw [hresolve]
    dsimp only
    rw [run_bind_of_run hset, run_bind_of_run hcompile, run_bind_of_run hstatus]
    rw [if_neg Bool.false_ne_true, run_bind_of_run hlog, run_bind_of_run hdelete]
    rfl
  | attached hresolve =>
    simp only [Replays.cons_iff, Replays.nil_iff] at h
    rcases h with ⟨s₁, hcreate, s₂, hset, s₃, hcompile, s₄, hstatus, s₅, hattach, rfl⟩
    rw [run_bind_of_run hcreate]
    dsimp only
    rw [hresolve]
    dsimp only
    rw [run_bind_of_run hset, run_bind_of_run hcompile, run_bind_of_run hstatus]
    rw [if_pos rfl, run_bind_of_run hattach]
    rfl

theorem exists_unitsTrace {attached attached' : List StageHandle} {units : List ShaderUnit}
    {s s' : σ} {outcome : Except (BuildError ε) Unit}
    (h : (addStages driver resolve program attached units).run s = ((attached', outcome), s')) :
    ∃ trace stages, UnitsTrace resolve program units trace stages outcome ∧
      attached' = stages.reverse ++ attached ∧ Replays driver s trace s' := by
  induction units generalizing attached s with
  | nil =>
    unfold addStages at h
    rw [run_pure_eq_iff] at h
    rcases h with ⟨heq, rfl⟩
    injection heq with hattached houtcome
    rw [← hattached, ← houtcome]
    exact ⟨[], [], .done, rfl, .nil _⟩
  | cons unit rest ih =>
    unfold addStages at h
    rw [run_bind_eq_iff] at h
    rcases h with ⟨first, s₁, hfirst, h⟩
    rcases exists_unitTrace hfirst with ⟨trace, htrace, hreplays⟩
    cases first with
    | error e =>
      dsimp only at h
      rw [run_pure_eq_iff] at h
      rcases h with ⟨heq, rfl⟩
      injection heq with hattached houtcome
      rw [← hattached, ← houtcome]
      exact ⟨trace, [], .failed htrace, rfl, hreplays⟩
    | ok stage =>
      dsimp only at h
      rcases ih h with ⟨others, stages, hothers, hattached, hrest⟩
      refine ⟨trace ++ others, stage :: stages, .next htrace hothers, ?_, hreplays.append hrest⟩
      rw [hattached, List.reverse_cons, List.append_assoc, List.singleton_append]

theorem addStages_of_unitsTrace {attached stages : List StageHandle} {units : List ShaderUnit}
    {s s' : σ} {trace : List Event} {outcome : Except (BuildError ε) Unit}
    (htrace : UnitsTrace resolve program units trace stages outcome)
    (h : Replays driver s trace s') :
    (addStages driver resolve program attached units).run s
      =
    ((stages.reverse ++ attached, outcome), s') := by
  induction htrace generalizing attached s with
  | done =>
    rw [Replays.nil_iff] at h
    rw [h]
    rfl
  | failed hunit =>
    unfold addStages
    rw [run_bind_of_run (addStage_of_unitTrace hunit h)]
    rfl
  | next hunit _ ih =>
    rw [Replays.append_iff] at h
    rcases h with ⟨s₁, hfirst, hothers⟩
    unfold addStages
    rw [run_bind_of_run (addStage_of_unitTrace hunit hfirst)]
    dsimp only
    rw [ih hothers, List.reverse_cons, List.append_assoc, List.singleton_append]

theorem exists_finishTrace {s s' : σ} {outcome : Except (BuildError ε) Unit}
    (h : (finish driver program).run s = (outcome, s')) :
    ∃ trace, FinishTrace program trace outcome ∧ Replays driver s trace s' := by
  unfold finish at h
  simp only [run_bind_eq_iff] at h
  rcases h with ⟨_, s₁, hlink, linked, s₂, hlinked, h⟩
  cases linked with
  | false =>
    simp only [Bool.not_false, if_true, run_bind_eq_iff, run_pure_eq_iff] at h
    rcases h with ⟨log, s₃, hlog, rfl, rfl⟩
    exact ⟨_, .unlinked, .cons hlink (.cons hlinked (.cons hlog (.nil _)))⟩
  | true =>
    simp only [Bool.not_true, Bool.false_eq_true, if_false, run_bind_eq_iff] at h
    rcases h with ⟨_, s₃, hvalidate, valid, s₄, hvalid, h⟩
    cases valid with
    | false =>
      simp only [Bool.not_false, if_true, run_bind_eq_iff, run_pure_eq_iff] at h
      rcases h with ⟨log, s₅, hlog, rfl, rfl⟩
      exact ⟨_, .invalid, .cons hlink (.cons hlinked (.cons hvalidate (.cons hvalid
        (.cons hlog (.nil _)))))⟩
    | true =>
      simp only [Bool.not_true, Bool.false_eq_true, if_false, run_pure_eq_iff] at h
      rcases h with ⟨rfl, rfl⟩
      exact ⟨_, .valid, .cons hlink (.cons hlinked (.cons hvalidate (.cons hvalid (.nil _))))⟩

theorem finish_of_finishTrace {s s' : σ} {trace : List Event}
    {outcome : Except (BuildError ε) Unit} (htrace : FinishTrace program trace outcome)
    (h : Replays driver s trace s') : (finish driver program).run s = (outcome, s') := by
  unfold finish
  cases htrace with
  | unlinked =>
    simp only [Replays.cons_iff, Replays.nil_iff] at h
    rcases h with ⟨s₁, hlink, s₂, hlinked, s₃, hlog, rfl⟩
    rw [run_bind_of_run hlink, run_bind_of_run hlinked]
    exact run_bind_of_run hlog
  | invalid =>
    simp only [Replays.cons_iff, Replays.nil_iff] at h
    rcases h with ⟨s₁, hlink, s₂, hlinked, s₃, hvalidate, s₄, hvalid, s₅, hlog, rfl⟩
    rw [run_bind_of_run hlink, run_bind_of_run hlinked]
    simp only [Bool.not_true, Bool.false_eq_true, if_false]
    rw [run_bind_of_run hvalidate, run_bind_of_run hvalid]
    exact run_bind_of_run hlog
  | valid =>
    simp only [Replays.cons_iff, Replays.nil_iff] at h
    rcases h with ⟨s₁, hlink, s₂, hlinked, s₃, hvalidate, s₄, hvalid, rfl⟩
    rw [run_bind_of_run hlink, run_bind_of_run hlinked]
    simp only [Bool.not_true, Bool.false_eq_true, if_false]
    rw [run_bind_of_run hvalidate, run_bind_of_run hvalid]
    rfl

theorem release_run_iff {stages : List StageHandle} {s s' : σ} :
    (release driver program stages.reverse).run s = ((), s')
      ↔
    Replays driver s (releaseTrace program stages) s' := by
  unfold releaseTrace
  -- the stages are released from the end, which is the order to induct in
  generalize stages.reverse = stages
  induction stages generalizing s with
  | nil =>
    unfold release
    rw [run_pure_eq_iff]
    simp
  | cons stage rest ih =>
    unfold release
    simp only [run_bind_eq_iff, List.flatMap_cons, List.cons_append, List.nil_append,
      Replays.cons_iff, ih]
    constructor
    . rintro ⟨_, s₁, hdetach, _, s₂, hdelete, hrest⟩
      exact ⟨s₁, hdetach, s₂, hdelete, hrest⟩
    . rintro ⟨s₁, hdetach, s₂, hdelete, hrest⟩
      exact ⟨_, s₁, hdetach, _, s₂, hdelete, hrest⟩

theorem exists_trace {descriptor : Descriptor} {s s' : σ}
    {result : Except (BuildError ε) ProgramHandle}
    (h : (run driver resolve descriptor).run s = (result, s')) :
    ∃ trace, Trace resolve descriptor.units trace result ∧ Replays driver s trace s' := by
  unfold run at h
  rw [run_bind_eq_iff] at h
  rcases h with ⟨program?, s₁, hcreate, h⟩
  cases program? with
  | none =>
    dsimp only at h
    rw [run_pure_eq_iff] at h
    rcases h with ⟨rfl, rfl⟩
    exact ⟨_, .refused, .cons hcreate (.nil _)⟩
  | some program =>
    dsimp only at h
    have hcreated : Replays driver s [⟨.createProgram, some program⟩] s₁ := .cons hcreate (.nil _)
    rw [run_bind_eq_iff] at h
    rcases h with ⟨⟨attached, added⟩, s₂, hadd, h⟩
    rcases exists_unitsTrace hadd with ⟨trace, stages, hunits, rfl, hadded⟩
    rw [List.append_nil] at h
    cases added with
    | error e =>
      simp only [pure_bind, run_bind_eq_iff, run_pure_eq_iff] at h
      rcases h with ⟨_, s₃, hrelease, _, s₄, hdelete, rfl, rfl⟩
      have hreleased := release_run_iff.mp hrelease
      have hdeleted : Replays driver s₃ [⟨.deleteProgram program, ()⟩] s₄ := .cons hdelete (.nil _)
      exact ⟨_, .unitFailed hunits, ((hcreated.append hadded).append hreleased).append hdeleted⟩
    | ok _ =>
      simp only [run_bind_eq_iff] at h
      rcases h with ⟨outcome, s₃, hfinish, _, s₄, hrelease, h⟩
      rcases exists_finishTrace hfinish with ⟨finish, hfinished, hreplays⟩
      have hreleased := release_run_iff.mp hrelease
      have hbefore := ((hcreated.append hadded).append hreplays).append hreleased
      cases outcome with
      | error e =>
        simp only [run_bind_eq_iff, run_pure_eq_iff] at h
        rcases h with ⟨_, s₅, hdelete, rfl, rfl⟩
        have hdeleted : Replays driver s₄ [⟨.deleteProgram program, ()⟩] s₅ :=
          .cons hdelete (.nil _)
        exact ⟨_, .programFailed hunits hfinished, hbefore.append hdeleted⟩
      | ok _ =>
        simp only [run_pure_eq_iff] at h
        rcases h with ⟨rfl, rfl⟩
        exact ⟨_, .built hunits hfinished, hbefore⟩

theorem run_of_trace {descriptor : Descriptor} {s s' : σ} {trace : List Event}
    {result : Except (BuildError ε) ProgramHandle}
    (htrace : Trace resolve descriptor.units trace result) (h : Replays driver s trace s') :
    (run driver resolve descriptor).run s = (result, s') := by
  unfold run
  cases htrace with
  | refused =>
    simp only [Replays.cons_iff, Replays.nil_iff] at h
    rcases h with ⟨s₁, hcreate, rfl⟩
    rw [run_bind_of_run hcreate]
    rfl
  | unitFailed hunits =>
    simp only [Replays.append_iff, Replays.cons_iff, Replays.nil_iff] at h
    rcases h with ⟨s₃, ⟨s₂, ⟨_, ⟨s₁, hcreate, rfl⟩, hadded⟩, hreleased⟩, s₄, hdelete, rfl⟩
    rw [run_bind_of_run hcreate]
    dsimp only
    rw [run_bind_of_run (addStages_of_unitsTrace hunits hadded), List.append_nil]
    dsimp only
    rw [pure_bind, run_bind_of_run (release_run_iff.mpr hreleased)]
    dsimp only
    rw [run_bind_of_run hdelete]
    rfl
  | programFailed hunits hfinish =>
    simp only [Replays.append_iff, Replays.cons_iff, Replays.nil_iff] at h
    rcases h with ⟨s₄, ⟨s₃, ⟨s₂, ⟨_, ⟨s₁, hcreate, rfl⟩, hadded⟩, hreplays⟩, hreleased⟩, hdeleted⟩
    rcases hdeleted with ⟨s₅, hdelete, rfl⟩
    rw [run_bind_of_run hcreate]
    dsimp only
    rw [run_bind_of_run (addStages_of_unitsTrace hunits hadded), List.append_nil]
    dsimp only
    rw [run_bind_of_run (finish_of_finishTrace hfinish hreplays)]
    rw [run_bind_of_run (release_run_iff.mpr hreleased)]
    dsimp only
    rw [run_bind_of_run hdelete]
    rfl
  | built hunits hfinish =>
    simp only [Replays.append_iff, Replays.cons_iff, Replays.nil_iff] at h
    rcases h with ⟨s₃, ⟨s₂, ⟨_, ⟨s₁, hcreate, rfl⟩, hadded⟩, hreplays⟩, hreleased⟩
    rw [run_bind_of_run hcreate]
    dsimp only
    rw [run_bind_of_run (addStages_of_unitsTrace hunits hadded), List.append_nil]
    dsimp only
    rw [run_bind_of_run (finish_of_finishTrace hfinish hreplays)]
    rw [run_bind_of_run (release_run_iff.mpr hreleased)]
    rfl

/--
A build makes exactly the calls of the protocol. What a driver sees of a build is a trace of the
protocol with the answers that the driver gives, no other trace of the protocol has these answers,
and the result is the one that the protocol has for the trace.
-/
theorem run_recorded_iff_trace (driver : Driver (StateM σ)) (resolve : Resolver ε)
    (descriptor : Descriptor) (s s' : σ) (trace : List Event)
    (result : Except (BuildError ε) ProgramHandle) :
    (run (recorded driver) resolve descriptor).run (s, []) = (result, s', trace)
      ↔
    (run driver resolve descriptor).run s = (result, s') ∧
      Trace resolve descriptor.units trace result ∧ Replays driver s trace s' := by
  constructor
  . intro h
    rcases exists_trace h with ⟨trace', htrace, hreplays⟩
    rw [replays_recorded_iff, List.nil_append] at hreplays
    rcases hreplays with ⟨hreplays, rfl⟩
    exact ⟨run_of_trace htrace hreplays, htrace, hreplays⟩
  . rintro ⟨_, htrace, hreplays⟩
    apply run_of_trace htrace
    rw [replays_recorded_iff, List.nil_append]
    exact ⟨hreplays, rfl⟩

end Build
end ShaderBuild
