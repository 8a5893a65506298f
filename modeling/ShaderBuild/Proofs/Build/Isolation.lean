import ShaderBuild.Proofs.Build.Protocol
import ShaderBuild.Proofs.Driver.Fresh
import ShaderBuild.Proofs.Driver.Link

/-!
This module contains what a build leaves behind in the software driver: nothing if it fails, and
otherwise the program that it was asked for. The objects that were there before are not touched.
-/

namespace ShaderBuild
namespace Build

open SoftDriver

/--
A stage that is compiled, and attached to the program that is built and to no other one.
-/
structure BuiltStage where
  handle : StageHandle
  stage : Stage
  source : String
  parsed : ShaderModule

namespace BuiltStage

/--
The stage as an entry of the stage objects.
-/
def entry (b : BuiltStage) : StageHandle × StageObject :=
  (b.handle, ⟨b.stage, b.source, some b.parsed, "", 1, false⟩)

/--
The stage as an entry of the linked stages.
-/
def linked (b : BuiltStage) : Stage × ShaderModule :=
  (b.stage, b.parsed)

end BuiltStage

/--
The objects of `before`, and next to them the stages of a build.
-/
def withBuilt (before : SoftDriver) (name : Nat) (built : List BuiltStage) : SoftDriver :=
  { before with
    lastName := name
    stages := before.stages.insertAll (built.map BuiltStage.entry) }

/--
The state during a build: next to the objects of `before` there are the program and its stages.
-/
def site (before : SoftDriver) (name : Nat) (program : ProgramHandle) (o : ProgramObject)
    (built : List BuiltStage) : SoftDriver :=
  (withBuilt before name built).withProgram program o

/--
The objects of a build have names that no other objects have, and the program has exactly the
stages of the build attached.
-/
structure IsSite (before : SoftDriver) (program : ProgramHandle) (o : ProgramObject)
    (built : List BuiltStage) : Prop where
  program_fresh : before.programs.get? program = none
  stages_fresh : before.stages.Fresh (built.map BuiltStage.entry)
  attached_eq : o.attached = built.map BuiltStage.handle

/--
What a unit is linked as: its source is found, and the front end accepts it for the stage.
-/
inductive LinksAs {ε : Type} (frontEnd : FrontEnd) (resolve : Resolver ε) (unit : ShaderUnit) :
    Stage × ShaderModule → Prop
  | intro {source : Source} {parsed : ShaderModule} :
    resolve unit.sourceId = .ok source → frontEnd unit.stage source.contents = .ok parsed →
      LinksAs frontEnd resolve unit (unit.stage, parsed)

variable {ε : Type} {frontEnd : FrontEnd} {resolve : Resolver ε} {before d' : SoftDriver}
variable {name : Nat} {program : ProgramHandle} {o : ProgramObject} {built : List BuiltStage}

theorem site_concat (b : BuiltStage) :
    site before name program o (built ++ [b])
      =
    (site before name program o built).withStage b.handle b.entry.2 := by
  unfold site withBuilt withStage withProgram
  rw [List.map_append, List.map_singleton]
  unfold BuiltStage.entry
  rw [Table.insertAll_concat]

theorem createStage_site {stage : Stage} {handle : StageHandle}
    (hreachable : Reachable frontEnd (site before name program o built))
    (h : (driver frontEnd (.createStage stage)).run (site before name program o built)
      = (some handle, d')) :
    (site before (name + 1) program o built).stages.get? handle = none ∧
      d' = (site before (name + 1) program o built).withStage handle (.new stage) := by
  rcases createStage_eq_some h with ⟨hraw, hstate⟩
  refine ⟨?_, hstate⟩
  have hlt : (site before name program o built).lastName < handle.raw := by omega
  exact hreachable.named.stage_fresh hlt

theorem unitFailed_site {unit : ShaderUnit} {trace : List Event} {e : BuildError ε}
    (hreachable : Reachable frontEnd (site before name program o built))
    (htrace : UnitTrace resolve program unit trace (.error e))
    (h : Replays (driver frontEnd) (site before name program o built) trace d') :
    ∃ name', name ≤ name' ∧ d' = site before name' program o built := by
  cases htrace with
  | refused =>
    simp only [Replays.cons_iff, Replays.nil_iff] at h
    rcases h with ⟨s₁, hcreate, rfl⟩
    exact ⟨name, Nat.le_refl _, createStage_eq_none hcreate⟩
  | unresolved hresolve =>
    simp only [Replays.cons_iff, Replays.nil_iff] at h
    rcases h with ⟨s₁, hcreate, s₂, hdelete, rfl⟩
    rcases createStage_site hreachable hcreate with ⟨hfresh, rfl⟩
    cases hdelete
    refine ⟨name + 1, by omega, ?_⟩
    apply deleteStage_withStage hfresh
    rfl
  | rejected hresolve =>
    simp only [Replays.cons_iff, Replays.nil_iff] at h
    rcases h with ⟨s₁, hcreate, s₂, hset, s₃, hcompile, s₄, hstatus, s₅, hlog, s₆, hdelete, rfl⟩
    rcases createStage_site hreachable hcreate with ⟨hfresh, rfl⟩
    cases hset
    cases hcompile
    rcases Prod.mk.inj hstatus with ⟨hrejected, rfl⟩
    rcases Prod.mk.inj hlog with ⟨_, rfl⟩
    cases hdelete
    refine ⟨name + 1, by omega, ?_⟩
    rcases rejected_withStage hfresh hrejected with ⟨errors, _, heq⟩
    dsimp only
    rw [heq]
    apply deleteStage_withStage hfresh
    rfl

theorem IsSite.notMem_attached (hsite : IsSite before program o built) {handle : StageHandle}
    (hfresh : (site before name program o built).stages.get? handle = none) :
    handle ∉ o.attached := by
  unfold site withBuilt withProgram at hfresh
  rw [Table.get?_insertAll_eq_none_iff, List.map_map] at hfresh
  rw [hsite.attached_eq]
  exact hfresh.2

theorem IsSite.concat (hsite : IsSite before program o built) {b : BuiltStage}
    (hfresh : (site before name program o built).stages.get? b.handle = none) :
    IsSite before program { o with attached := o.attached ++ [b.handle] } (built ++ [b]) where
  program_fresh := hsite.program_fresh
  stages_fresh := by
    rw [List.map_append, List.map_singleton]
    apply Table.fresh_concat_iff.mpr
    exact ⟨hsite.stages_fresh, hfresh⟩
  attached_eq := by
    rw [List.map_append, List.map_singleton, hsite.attached_eq]

theorem unitAttached_site {unit : ShaderUnit} {trace : List Event} {handle : StageHandle}
    (hreachable : Reachable frontEnd (site before name program o built))
    (hsite : IsSite before program o built)
    (htrace : UnitTrace resolve program unit trace (.ok handle))
    (h : Replays (driver frontEnd) (site before name program o built) trace d') :
    ∃ b : BuiltStage, b.handle = handle ∧ LinksAs frontEnd resolve unit b.linked ∧
      IsSite before program { o with attached := o.attached ++ [handle] } (built ++ [b]) ∧
      d' = site before (name + 1) program { o with attached := o.attached ++ [handle] }
        (built ++ [b]) := by
  cases htrace with
  | @attached _ source hresolve =>
    simp only [Replays.cons_iff, Replays.nil_iff] at h
    rcases h with ⟨s₁, hcreate, s₂, hset, s₃, hcompile, s₄, hstatus, s₅, hattach, rfl⟩
    rcases createStage_site hreachable hcreate with ⟨hfresh, rfl⟩
    cases hset
    cases hcompile
    rcases Prod.mk.inj hstatus with ⟨haccepted, rfl⟩
    cases hattach
    rcases accepted_withStage hfresh haccepted with ⟨parsed, hparse, heq⟩
    have hconcat := hsite.concat (b := ⟨handle, unit.stage, source.contents, parsed⟩) hfresh
    refine ⟨⟨handle, unit.stage, source.contents, parsed⟩, rfl, .intro hresolve hparse, hconcat, ?_⟩
    dsimp only
    rw [heq, site_concat]
    apply attachStage_withStage (d := withBuilt before (name + 1) built)
    . exact hsite.program_fresh
    . exact hfresh
    . exact hsite.notMem_attached hfresh

theorem IsSite.of_attached_eq {o' : ProgramObject} (hsite : IsSite before program o built)
    (h : o'.attached = o.attached) : IsSite before program o' built where
  program_fresh := hsite.program_fresh
  stages_fresh := hsite.stages_fresh
  attached_eq := by rw [h, hsite.attached_eq]

theorem units_site {units : List ShaderUnit} {trace : List Event} {stages : List StageHandle}
    {outcome : Except (BuildError ε) Unit}
    (hreachable : Reachable frontEnd (site before name program o built))
    (hsite : IsSite before program o built)
    (htrace : UnitsTrace resolve program units trace stages outcome)
    (h : Replays (driver frontEnd) (site before name program o built) trace d') :
    ∃ (name' : Nat) (added : List BuiltStage), name ≤ name' ∧
      added.map BuiltStage.handle = stages ∧
      IsSite before program { o with attached := o.attached ++ stages } (built ++ added) ∧
      d' = site before name' program { o with attached := o.attached ++ stages } (built ++ added) ∧
      (outcome = .ok () →
        List.Forall₂ (LinksAs frontEnd resolve) units (added.map BuiltStage.linked)) := by
  induction htrace generalizing name o built with
  | done =>
    rw [Replays.nil_iff] at h
    rw [← h, List.append_nil]
    exists name, []
    rw [List.append_nil]
    exact ⟨Nat.le_refl _, rfl, hsite, rfl, fun _ => .nil⟩
  | failed hunit =>
    rcases unitFailed_site hreachable hunit h with ⟨name', hle, rfl⟩
    exists name', []
    rw [List.append_nil, List.append_nil]
    refine ⟨hle, rfl, hsite, rfl, ?_⟩
    intro hok
    cases hok
  | @next _ _ _ _ stage stages _ hunit _ ih =>
    rw [Replays.append_iff] at h
    rcases h with ⟨s₁, hfirst, hothers⟩
    have hreachable₁ := hreachable.replays hfirst
    rcases unitAttached_site hreachable hsite hunit hfirst with ⟨b, hhandle, hlinks, hsite₁, rfl⟩
    rcases ih hreachable₁ hsite₁ hothers with ⟨name', added, hle, hadded, hsite', hstate, hok⟩
    -- the unit has become the last one of the site, and the others are added behind it
    exists name', b :: added
    rw [List.append_cons o.attached, List.append_cons built, List.map_cons, hhandle, hadded]
    refine ⟨by omega, rfl, hsite', hstate, ?_⟩
    intro houtcome
    exact .cons hlinks (hok houtcome)

theorem compiledStages_eq_ok {d : SoftDriver}
    (h : ∀ b ∈ built, ∃ o, d.stages.get? b.handle = some o ∧
      o.stage = b.stage ∧ o.module? = some b.parsed) :
    d.compiledStages (built.map BuiltStage.handle) = .ok (built.map BuiltStage.linked) := by
  rw [compiledStages_eq_ok_iff, List.forall₂_map_left_iff, List.forall₂_map_right_iff,
    List.forall₂_same]
  exact h

/--
The stages of a build are compiled, so only whether they form a program is left to find out.
-/
theorem link_withBuilt (hfresh : before.stages.Fresh (built.map BuiltStage.entry)) :
    (withBuilt before name built).link (built.map BuiltStage.handle)
      =
    (Link.check (built.map BuiltStage.linked)).map fun _ => built.map BuiltStage.linked := by
  rw [link_eq, compiledStages_eq_ok]
  . rfl
  . intro b hb
    have hget : (withBuilt before name built).stages.get? b.handle = some b.entry.2 := by
      apply Table.get?_insertAll_of_mem hfresh
      exact List.mem_map_of_mem hb
    exact ⟨_, hget, rfl, rfl⟩

theorem linkProgram_site (hsite : IsSite before program o built) :
    (site before name program o built).linkProgram program
      =
    site before name program
      (o.setLinked ((Link.check (built.map BuiltStage.linked)).map fun _ =>
        built.map BuiltStage.linked))
      built := by
  rw [← link_withBuilt hsite.stages_fresh, ← hsite.attached_eq]
  apply linkProgram_withProgram
  exact hsite.program_fresh

theorem validateProgram_site (hfresh : before.programs.get? program = none) :
    (site before name program o built).validateProgram program
      =
    site before name program o.validate built := by
  apply validateProgram_withProgram
  exact hfresh

theorem linked_site (hsite : IsSite before program o built)
    (hstatus : ((site before name program o built).linkProgram program).linkStatus program = true) :
    Link.check (built.map BuiltStage.linked) = .ok () ∧
      (site before name program o built).linkProgram program
        =
      site before name program ⟨o.attached, built.map BuiltStage.linked, true, false, ""⟩ built := by
  rw [linkProgram_site hsite] at hstatus ⊢
  unfold site at hstatus
  rw [linkStatus_withProgram] at hstatus
  rcases ProgramObject.setLinked_of_linkStatus hstatus with ⟨linked, hlinked, heq⟩
  rw [map_eq_ok_iff] at hlinked
  rcases hlinked with ⟨_, hcheck, rfl⟩
  rw [heq]
  exact ⟨hcheck, rfl⟩

theorem finish_site {trace : List Event} {outcome : Except (BuildError ε) Unit}
    (hsite : IsSite before program o built) (htrace : FinishTrace program trace outcome)
    (h : Replays (driver frontEnd) (site before name program o built) trace d') :
    ∃ o' : ProgramObject, o'.attached = o.attached ∧ d' = site before name program o' built ∧
      (outcome = .ok () → o' = ⟨o.attached, built.map BuiltStage.linked, true, true, ""⟩) := by
  cases htrace with
  | unlinked =>
    simp only [Replays.cons_iff, Replays.nil_iff] at h
    rcases h with ⟨s₁, hlinked, s₂, hstatus, s₃, hlog, rfl⟩
    cases hlinked
    rcases Prod.mk.inj hstatus with ⟨_, rfl⟩
    rcases Prod.mk.inj hlog with ⟨_, rfl⟩
    refine ⟨_, ?_, linkProgram_site hsite, ?_⟩
    . apply ProgramObject.setLinked_attached
    . intro hok
      cases hok
  | invalid =>
    simp only [Replays.cons_iff, Replays.nil_iff] at h
    rcases h with ⟨s₁, hlinked, s₂, hstatus, s₃, hvalidated, s₄, hvalid, s₅, hlog, rfl⟩
    cases hlinked
    rcases Prod.mk.inj hstatus with ⟨_, rfl⟩
    cases hvalidated
    rcases Prod.mk.inj hvalid with ⟨_, rfl⟩
    rcases Prod.mk.inj hlog with ⟨_, rfl⟩
    dsimp
    rw [linkProgram_site hsite, validateProgram_site hsite.program_fresh]
    refine ⟨_, ?_, rfl, ?_⟩
    . rw [ProgramObject.validate_attached, ProgramObject.setLinked_attached]
    . intro hok
      cases hok
  | valid =>
    simp only [Replays.cons_iff, Replays.nil_iff] at h
    rcases h with ⟨s₁, hlink, s₂, hlinkStatus, s₃, hvalidate, s₄, hvalidateStatus, rfl⟩
    cases hlink
    rcases Prod.mk.inj hlinkStatus with ⟨hstatus, rfl⟩
    cases hvalidate
    rcases Prod.mk.inj hvalidateStatus with ⟨hvalid, rfl⟩
    dsimp only at hvalid ⊢
    rw [(linked_site hsite hstatus).2, validateProgram_site hsite.program_fresh] at hvalid ⊢
    unfold site at hvalid
    rw [validateStatus_withProgram] at hvalid
    rw [(ProgramObject.validate_of_validateStatus hvalid).2]
    exact ⟨⟨o.attached, built.map BuiltStage.linked, true, true, ""⟩, rfl, rfl, fun _ => rfl⟩

theorem IsSite.handle_fresh {b : BuiltStage} (hsite : IsSite before program o (built ++ [b]))
    (name : Nat) :
    before.stages.Fresh (built.map BuiltStage.entry) ∧
      (withBuilt before name built).stages.get? b.handle = none := by
  have hfresh := hsite.stages_fresh
  rw [List.map_append, List.map_singleton] at hfresh
  exact Table.fresh_concat_iff.mp hfresh

theorem IsSite.erase_attached {b : BuiltStage} (hsite : IsSite before program o (built ++ [b])) :
    o.attached.erase b.handle = built.map BuiltStage.handle := by
  have hget := (hsite.handle_fresh 0).2
  unfold withBuilt at hget
  rw [Table.get?_insertAll_eq_none_iff, List.map_map] at hget
  have hnotMem : b.handle ∉ built.map BuiltStage.handle := hget.2
  rw [hsite.attached_eq, List.map_append, List.map_singleton, List.erase_append_right _ hnotMem]
  simp

theorem release_site (hsite : IsSite before program o built)
    (h : Replays (driver frontEnd) (site before name program o built)
      (releaseTrace program (built.map BuiltStage.handle)) d') :
    d' = site before name program { o with attached := [] } [] := by
  induction built using List.reverseRecOn generalizing o with
  | nil =>
    rw [List.map_nil] at h
    unfold releaseTrace at h
    simp only [List.reverse_nil, List.flatMap_nil, Replays.nil_iff] at h
    have hattached := hsite.attached_eq
    rw [List.map_nil] at hattached
    rw [← h, ← hattached]
  | append_singleton rest b ih =>
    rw [List.map_append, List.map_singleton, releaseTrace_concat] at h
    simp only [Replays.cons_iff] at h
    rcases h with ⟨s₁, hdetach, s₂, hdelete, hrest⟩
    cases hdetach
    cases hdelete
    have hfresh := hsite.handle_fresh name
    have hmem : b.handle ∈ o.attached := by
      rw [hsite.attached_eq]
      simp
    -- the stage attached last is freed first, so its entry is still the last one
    have hdetached : (site before name program o (rest ++ [b])).detachStage program b.handle
        =
        (site before name program { o with attached := rest.map BuiltStage.handle }
          rest).withStage b.handle { b.entry.2 with attachments := 0 } := by
      rw [site_concat, ← hsite.erase_attached]
      exact detachStage_withStage (d := withBuilt before name rest) hsite.program_fresh hfresh.2
        o b.entry.2 hmem rfl
    dsimp at hrest
    rw [hdetached, deleteStage_withStage] at hrest
    . apply ih _ hrest
      exact ⟨hsite.program_fresh, hfresh.1, rfl⟩
    . exact hfresh.2
    . rfl

theorem createProgram_site (hnamed : before.Named)
    (h : (driver frontEnd .createProgram).run before = (some program, d')) :
    IsSite before program .new [] ∧ d' = site before (before.lastName + 1) program .new [] := by
  rcases createProgram_eq_some h with ⟨hraw, hstate⟩
  have hlt : before.lastName < program.raw := by omega
  exact ⟨⟨hnamed.program_fresh hlt, trivial, rfl⟩, hstate⟩

theorem started_site {units : List ShaderUnit} {trace : List Event} {stages : List StageHandle}
    {outcome : Except (BuildError ε) Unit} {d : SoftDriver} (hreachable : Reachable frontEnd before)
    (hcreate : (driver frontEnd .createProgram).run before = (some program, d))
    (htrace : UnitsTrace resolve program units trace stages outcome)
    (h : Replays (driver frontEnd) d trace d') :
    ∃ (name : Nat) (o : ProgramObject) (built : List BuiltStage), before.lastName ≤ name ∧
      built.map BuiltStage.handle = stages ∧ IsSite before program o built ∧
      d' = site before name program o built ∧
      (outcome = .ok () →
        List.Forall₂ (LinksAs frontEnd resolve) units (built.map BuiltStage.linked)) := by
  have hreachable₁ := hreachable.of_run hcreate
  rcases createProgram_site hreachable.named hcreate with ⟨hsite, rfl⟩
  rcases units_site hreachable₁ hsite htrace h with ⟨name, built, hle, hstages, hsite', hstate, hok⟩
  rw [List.nil_append] at hsite' hstate
  exact ⟨name, _, built, by omega, hstages, hsite', hstate, hok⟩

theorem cleared_site {d : SoftDriver} (hsite : IsSite before program o built)
    (hreleased : Replays (driver frontEnd) (site before name program o built)
      (releaseTrace program (built.map BuiltStage.handle)) d)
    (hdelete : (driver frontEnd (.deleteProgram program)).run d = ((), d')) :
    d' = { before with lastName := name } := by
  rcases release_site hsite hreleased with rfl
  cases hdelete
  apply deleteProgram_withProgram (d := withBuilt before name []) hsite.program_fresh
  rfl

/--
What a build leaves behind, given its result. A failed build leaves nothing but names that are used
up. A build that does not fail leaves the program, with no stages attached.
-/
inductive Leaves (frontEnd : FrontEnd) (resolve : Resolver ε) (units : List ShaderUnit)
    (before : SoftDriver) : Except (BuildError ε) ProgramHandle → SoftDriver → Prop
  | nothing {e : BuildError ε} {name : Nat} :
    before.lastName ≤ name →
      Leaves frontEnd resolve units before (.error e) { before with lastName := name }
  | program {program : ProgramHandle} {name : Nat} {linked : List (Stage × ShaderModule)} :
    before.lastName ≤ name → before.programs.get? program = none →
      List.Forall₂ (LinksAs frontEnd resolve) units linked →
        Leaves frontEnd resolve units before (.ok program)
          ({ before with lastName := name }.withProgram program ⟨[], linked, true, true, ""⟩)

theorem leaves_of_trace {units : List ShaderUnit} {trace : List Event}
    {result : Except (BuildError ε) ProgramHandle} (hreachable : Reachable frontEnd before)
    (htrace : Trace resolve units trace result)
    (h : Replays (driver frontEnd) before trace d') :
    Leaves frontEnd resolve units before result d' := by
  cases htrace with
  | refused =>
    simp only [Replays.cons_iff, Replays.nil_iff] at h
    rcases h with ⟨s₁, hcreate, rfl⟩
    rw [createProgram_eq_none hcreate]
    exact .nothing (Nat.le_refl _)
  | unitFailed hunits =>
    simp only [Replays.append_iff, Replays.cons_iff, Replays.nil_iff] at h
    rcases h with ⟨s₃, ⟨s₂, ⟨_, ⟨s₁, hcreate, rfl⟩, hadded⟩, hreleased⟩, s₄, hdelete, rfl⟩
    rcases started_site hreachable hcreate hunits hadded with
      ⟨name, o, built, hle, rfl, hsite, rfl, _⟩
    rw [cleared_site hsite hreleased hdelete]
    exact .nothing hle
  | programFailed hunits hfinish =>
    simp only [Replays.append_iff, Replays.cons_iff, Replays.nil_iff] at h
    rcases h with ⟨s₄, ⟨s₃, ⟨s₂, ⟨_, ⟨s₁, hcreate, rfl⟩, hadded⟩, hreplays⟩, hreleased⟩, hdeleted⟩
    rcases hdeleted with ⟨s₅, hdelete, rfl⟩
    rcases started_site hreachable hcreate hunits hadded with
      ⟨name, o, built, hle, rfl, hsite, rfl, _⟩
    rcases finish_site hsite hfinish hreplays with ⟨o', hattached, rfl, _⟩
    rw [cleared_site (hsite.of_attached_eq hattached) hreleased hdelete]
    exact .nothing hle
  | built hunits hfinish =>
    simp only [Replays.append_iff, Replays.cons_iff, Replays.nil_iff] at h
    rcases h with ⟨s₃, ⟨s₂, ⟨_, ⟨s₁, hcreate, rfl⟩, hadded⟩, hreplays⟩, hreleased⟩
    rcases started_site hreachable hcreate hunits hadded with
      ⟨name, o, built, hle, rfl, hsite, rfl, hok⟩
    rcases finish_site hsite hfinish hreplays with ⟨o', hattached, rfl, hvalid⟩
    rcases release_site (hsite.of_attached_eq hattached) hreleased with rfl
    rw [hvalid rfl]
    exact .program hle hsite.program_fresh (hok rfl)

theorem Leaves.eq_of_error {units : List ShaderUnit} {e : BuildError ε}
    (h : Leaves frontEnd resolve units before (.error e) d') :
    d' = { before with lastName := d'.lastName } := by
  cases h with
  | nothing _ => rfl

theorem Leaves.deleteProgram_eq {units : List ShaderUnit}
    (h : Leaves frontEnd resolve units before (.ok program) d') :
    d'.deleteProgram program = { before with lastName := d'.lastName } := by
  cases h with
  | @program _ name _ _ hfresh _ =>
    apply deleteProgram_withProgram (d := { before with lastName := name }) hfresh
    rfl

/--
A build does not touch the objects that were there before it, in whatever state the driver is. If it
fails, these are all objects that there are after it. Otherwise there is one more object, the
program, which is linked from the units in the order of their declaration and has no stages
attached.
-/
theorem run_isolated {descriptor : Descriptor} {after : SoftDriver}
    {result : Except (BuildError ε) ProgramHandle} (h : Reachable frontEnd before)
    (hrun : (run (driver frontEnd) resolve descriptor).run before = (result, after)) :
    before.lastName ≤ after.lastName ∧
      (∀ stage o, before.stages.get? stage = some o → after.stages.get? stage = some o) ∧
      (∀ program o, before.programs.get? program = some o →
        after.programs.get? program = some o) ∧
      after.stages = before.stages ∧
      match result with
      | .error _ => after.programs = before.programs
      | .ok program =>
        before.programs.get? program = none ∧
          ∃ linked, List.Forall₂ (LinksAs frontEnd resolve) descriptor.units linked ∧
            after.programs = before.programs.insert program
              { attached := [], linked := linked, linkStatus := true, validateStatus := true,
                log := "" } := by
  rcases exists_trace hrun with ⟨trace, htrace, hreplays⟩
  cases leaves_of_trace h htrace hreplays with
  | nothing hle => exact ⟨hle, fun _ _ hget => hget, fun _ _ hget => hget, rfl, rfl⟩
  | program hle hfresh hlinks =>
    refine ⟨hle, fun _ _ hget => hget, ?_, rfl, hfresh, _, hlinks, rfl⟩
    intro program o hget
    unfold withProgram
    rw [Table.get?_insert, if_neg]
    . exact hget
    . intro heq
      rw [heq, hget] at hfresh
      cases hfresh

/--
A build next to a program that has a stage attached.
-/
theorem run_isolated_next_to_program :
    let frontEnd : FrontEnd := fun _ _ => .ok ⟨[], none⟩
    let resolve : Resolver Unit := fun _ => .ok ⟨"void main();", [⟨"comp.glsl", 1⟩]⟩
    let before : SoftDriver :=
      { lastName := 2
        stages :=
          Table.empty.insert ⟨2, by decide⟩ { StageObject.new .vertex with attachments := 1 }
        programs :=
          Table.empty.insert ⟨1, by decide⟩
            { ProgramObject.new with attached := [⟨2, by decide⟩] } }
    Reachable frontEnd before ∧ ∃ after,
      (run (driver frontEnd) resolve ⟨[⟨.compute, "comp.glsl"⟩]⟩).run before =
          (.ok ⟨3, by decide⟩, after) ∧
        after.stages = before.stages ∧ before.programs.get? ⟨3, by decide⟩ = none := by
  intro frontEnd resolve before
  have hreachable : Reachable frontEnd before :=
    ((Reachable.new.call .createProgram).call (.createStage .vertex)).call
      (.attachStage ⟨1, by decide⟩ ⟨2, by decide⟩)
  have hrun : ∃ after, (run (driver frontEnd) resolve ⟨[⟨.compute, "comp.glsl"⟩]⟩).run before =
      (.ok ⟨3, by decide⟩, after) := ⟨_, rfl⟩
  rcases hrun with ⟨after, hrun⟩
  have h := run_isolated hreachable hrun
  exact ⟨hreachable, after, hrun, h.2.2.2.1, h.2.2.2.2.1⟩

end Build
end ShaderBuild
