import ShaderBuild.Proofs.Template.Lookup
import ShaderBuild.Template.Expansion

/-!
This module contains what sources are asked for while a name is loaded. Sources that record every
path that they are asked for show that the paths are in normal form, whatever the names in the texts
are.
-/

namespace ShaderBuild

/--
The source that puts every path that it is asked for on record.
-/
def IncludeSource.recorded (source : IncludeSource) : Reader (StateM (List String)) :=
  fun path paths => (source.read path, paths ++ [path])

/--
The computation comes to the given result, and all paths that it puts on record are in normal form.
-/
def ReadsNormal {α : Type} (x : ExceptT TemplateError (StateM (List String)) α)
    (result : Except TemplateError α) : Prop :=
  ∀ before, ∃ paths,
    x.run.run before = (result, before ++ paths) ∧ ∀ path ∈ paths, Path.IsNormal path

namespace ReadsNormal

variable {α β : Type} {x : ExceptT TemplateError (StateM (List String)) α}
variable {result : Except TemplateError α}

theorem pure (a : α) : ReadsNormal (pure a) (.ok a) := by
  intro before
  exact ⟨[], by rw [List.append_nil]; rfl, by simp⟩

theorem throw (e : TemplateError) : ReadsNormal (throw e : ExceptT _ _ α) (.error e) := by
  intro before
  exact ⟨[], by rw [List.append_nil]; rfl, by simp⟩

theorem bind {f : α → ExceptT TemplateError (StateM (List String)) β}
    {g : α → Except TemplateError β} (hx : ReadsNormal x result)
    (hf : ∀ a, ReadsNormal (f a) (g a)) : ReadsNormal (x >>= f) (result >>= g) := by
  intro before
  rcases hx before with ⟨paths, hrun, hpaths⟩
  rw [ExceptT.run_bind, StateT.run_bind, hrun]
  cases result with
  | error e => exact ⟨paths, rfl, hpaths⟩
  | ok a =>
    rcases hf a (before ++ paths) with ⟨others, hothers, hnormal⟩
    refine ⟨paths ++ others, ?_, List.forall_mem_append.mpr ⟨hpaths, hnormal⟩⟩
    rw [← List.append_assoc]
    exact hothers

theorem read_bind {path : String} (hpath : Path.IsNormal path) {source : IncludeSource}
    {f : Except ReadError (Option String) → ExceptT TemplateError (StateM (List String)) α}
    (hf : ReadsNormal (f (source.read path)) result) :
    ReadsNormal (ExceptT.lift (source.recorded path) >>= f) result := by
  intro before
  rcases hf (before ++ [path]) with ⟨paths, hrun, hpaths⟩
  refine ⟨path :: paths, ?_, List.forall_mem_cons.mpr ⟨hpath, hpaths⟩⟩
  rw [List.append_cons]
  exact hrun

theorem readFirst {path : String} (hpath : Path.IsNormal path) (sources : List IncludeSource) :
    ReadsNormal (Reading.readFirst path (sources.map IncludeSource.recorded))
      (Template.readFirst path sources) := by
  induction sources with
  | nil => apply pure
  | cons source rest ih =>
    rw [Template.readFirst_cons]
    apply read_bind hpath
    cases source.read path with
    | error cause => apply throw
    | ok text? =>
      cases text? with
      | none => exact ih
      | some text => apply pure

variable {t : Template}

theorem lookup (includer : Option String) (name : String) :
    ReadsNormal (Reading.lookup t (t.sources.map IncludeSource.recorded) includer name)
      (t.lookup includer name) := by
  rw [Template.lookup_eq]
  unfold Reading.lookup
  cases t.provide? name with
  | some text => apply pure
  | none =>
    dsimp only
    cases hpath : Template.sourcePath? includer name with
    | none => apply pure
    | some path =>
      apply readFirst
      apply Template.isNormal_of_sourcePath? hpath

section Lines

variable {enter : Found → List String → ExceptT TemplateError (StateM (List String)) Expansion}
variable {enter' : Found → List String → Except TemplateError Expansion}

theorem expandLine (henter : ∀ found once, ReadsNormal (enter found once) (enter' found once))
    (key : String) (number : Nat) (line : String) (once : List String) :
    ReadsNormal
      (Reading.expandLine t (t.sources.map IncludeSource.recorded) enter key number line once)
      (t.expandLine enter' key number line once) := by
  rw [Template.expandLine_eq]
  unfold Reading.expandLine
  cases Directive.parse? line with
  | none => apply pure
  | some directive =>
    cases directive with
    | pragmaOnce => apply pure
    | includeFile name =>
      apply bind (lookup _ _)
      intro found?
      cases found? with
      | none => apply throw
      | some found =>
        dsimp only
        split
        . apply pure
        . apply henter

theorem expandLines (henter : ∀ found once, ReadsNormal (enter found once) (enter' found once))
    (key : String) (ls : List (Nat × String)) (once : List String) :
    ReadsNormal (Reading.expandLines t (t.sources.map IncludeSource.recorded) enter key ls once)
      (t.expandLines enter' key ls once) := by
  induction ls generalizing once with
  | nil => apply pure
  | cons entry rest ih =>
    rw [Template.expandLines_cons]
    apply bind (expandLine henter _ _ _ _)
    intro first
    apply bind (ih _)
    intro others
    apply pure

end Lines

theorem expand (room : Nat) (stack : List String) (found : Found) (once : List String) :
    ReadsNormal (Reading.expand t (t.sources.map IncludeSource.recorded) room stack found once)
      (t.expand room stack found once) := by
  induction room generalizing stack found once with
  | zero =>
    rw [Template.expand_eq]
    unfold Reading.expand
    split
    . apply throw
    . apply throw
  | succ room ih =>
    rw [Template.expand_eq]
    unfold Reading.expand
    split
    . apply throw
    . exact expandLines (ih _) _ _ _

theorem load (name : String) :
    ReadsNormal (Reading.load t (t.sources.map IncludeSource.recorded) name) (t.load name) := by
  rw [Template.load_eq]
  apply bind (lookup _ _)
  intro root?
  cases root? with
  | none => apply throw
  | some root =>
    apply bind (expand _ _ _ _)
    intro e
    apply pure

end ReadsNormal

namespace Template

variable {t : Template}

theorem reading_lookup_eq_none {includer : Option String} {name : String}
    (hprovide : t.provide? name = none) (hpath : sourcePath? includer name = none) :
    Reading.lookup t (t.sources.map IncludeSource.recorded) includer name = pure none := by
  unfold Reading.lookup
  rw [hprovide, hpath]

theorem reading_load_of_leadsNowhere {name : String} (hprovide : t.provide? name = none)
    (hpath : Path.LeadsNowhere name) (before : List String) :
    (Reading.load t (t.sources.map IncludeSource.recorded) name).run.run before =
      (.error (.notFound name none), before) := by
  unfold Reading.load
  rw [reading_lookup_eq_none hprovide (sourcePath?_root_eq_none_iff.mpr hpath)]
  rfl

section Lines

variable {key line name : String} {number : Nat} {once : List String}

theorem reading_expandLine_of_leadsNowhere
    {enter : Found → List String → ExceptT TemplateError (StateM (List String)) Expansion}
    (hparse : Directive.parse? line = some (.includeFile name)) (hprovide : t.provide? name = none)
    (hpath : Path.LeadsNowhere (Path.target key name)) (before : List String) :
    (Reading.expandLine t (t.sources.map IncludeSource.recorded) enter key number line
        once).run.run before =
      (.error (.notFound name (some ⟨key, number⟩)), before) := by
  unfold Reading.expandLine
  rw [hparse]
  dsimp only
  rw [reading_lookup_eq_none hprovide (sourcePath?_include_eq_none_iff.mpr hpath)]
  rfl

theorem expandLine_of_leadsNowhere
    {enter : Found → List String → Except TemplateError Expansion}
    (hparse : Directive.parse? line = some (.includeFile name)) (hprovide : t.provide? name = none)
    (hpath : Path.LeadsNowhere (Path.target key name)) :
    t.expandLine enter key number line once =
      .error (.notFound name (some ⟨key, number⟩)) := by
  rw [expandLine_eq, hparse]
  dsimp only
  rw [lookup_eq_none hprovide (sourcePath?_include_eq_none_iff.mpr hpath)]
  rfl

end Lines

/--
All paths that the sources are asked for while a name is loaded are in normal form, so what is read
from a directory is reached from it by going down only. A name that no provider answers is not
found, and no source is asked for it, if its path would lead above the root or end there.
-/
theorem load_reads_below_root (t : Template) (name : String) :
    let readers := t.sources.map IncludeSource.recorded
    ∃ paths,
      (Reading.load t readers name).run.run [] = (t.load name, paths) ∧
        (∀ path ∈ paths, Path.IsNormal path ∧ Path.IsDescent (Path.fromRoot path) ∧
          ∀ (place : Place) directory, (place.source directory).read path =
            match place.read (Path.join directory (Path.fromRoot path)) with
            | .ok text => .ok (some text)
            | .error .notFound => .ok none
            | .error e => .error e) ∧
        (t.provide? name = none → Path.LeadsNowhere name →
          t.load name = .error (.notFound name none) ∧ paths = []) ∧
        ∀ key number line included once,
          Directive.parse? line = some (.includeFile included) → t.provide? included = none →
            Path.LeadsNowhere (Path.target key included) →
              (∀ enter, t.expandLine enter key number line once =
                .error (.notFound included (some ⟨key, number⟩))) ∧
              ∀ enter before,
                (Reading.expandLine t readers enter key number line once).run.run before =
                  (.error (.notFound included (some ⟨key, number⟩)), before) := by
  intro readers
  rcases ReadsNormal.load name [] with ⟨paths, hrun, hpaths⟩
  refine ⟨paths, hrun, ?_, ?_, ?_⟩
  . intro path hpath
    have hnormal := hpaths path hpath
    exact ⟨hnormal, Path.isDescent_fromRoot hnormal, fun place _ => place.source_read _ _⟩
  . intro hprovide hpath
    have hnone := reading_load_of_leadsNowhere hprovide hpath []
    rw [hrun] at hnone
    exact Prod.mk.inj hnone
  . intro key number line included once hparse hprovide hpath
    exact ⟨fun _ => expandLine_of_leadsNowhere hparse hprovide hpath,
      fun _ => reading_expandLine_of_leadsNowhere hparse hprovide hpath⟩

end Template
end ShaderBuild
