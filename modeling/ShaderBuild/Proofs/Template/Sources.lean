import ShaderBuild.Include.Memory
import ShaderBuild.Proofs.Template.Settles

/-!
This module contains what a source changes that is added behind the others. It is asked only for
paths that none of the others has, so what it can change is that a name is not found.
-/

namespace ShaderBuild
namespace Template

variable {t : Template} {source : IncludeSource} {includer : Option String} {name path : String}

theorem readFirst_append (path : String) (sources more : List IncludeSource) :
    readFirst path (sources ++ more) =
      match readFirst path sources with
      | .ok none => readFirst path more
      | result => result := by
  induction sources with
  | nil => rfl
  | cons source rest ih =>
    rw [List.cons_append, readFirst_cons, readFirst_cons]
    cases source.read path with
    | error cause => rfl
    | ok text? =>
      cases text? with
      | none => exact ih
      | some text => rfl

/--
A lookup in more sources comes to the same, unless it finds nothing and the source that is added has
something to say about its path.
-/
theorem lookup_addSource (t : Template) (source : IncludeSource) (includer : Option String)
    (name : String) :
    (t.addSource source).lookup includer name = t.lookup includer name ∨
      t.lookup includer name = .ok none ∧
        ∃ path, sourcePath? includer name = some path ∧ source.read path ≠ .ok none := by
  have hprovide : (t.addSource source).provide? name = t.provide? name := rfl
  rw [lookup_eq, lookup_eq, hprovide]
  cases t.provide? name with
  | some text => exact .inl rfl
  | none =>
    cases sourcePath? includer name with
    | none => exact .inl rfl
    | some path =>
      dsimp only [addSource]
      rw [readFirst_append]
      cases hfirst : readFirst path t.sources with
      | error e => exact .inl rfl
      | ok found? =>
        cases found? with
        | some found => exact .inl rfl
        | none =>
          by_cases hread : source.read path = .ok none
          . exact .inl (readFirst_eq_none_iff.mpr (List.forall_mem_singleton.mpr hread))
          . exact .inr ⟨rfl, path, rfl, hread⟩

/--
Adding a source changes nothing but that a name is not found for which the source is asked and has a
file, or fails to read one.
-/
theorem load_addSource (t : Template) (source : IncludeSource) (name : String) :
    (t.addSource source).load name = t.load name ∨
      ∃ missing place path,
        t.load name = .error (.notFound missing place) ∧
          sourcePath? (place.map LineOrigin.file) missing = some path ∧
            source.read path ≠ .ok none := by
  let isOpen (e : TemplateError) : Prop :=
    ∃ missing place path,
      e = .notFound missing place ∧ sourcePath? (place.map LineOrigin.file) missing = some path ∧
        source.read path ≠ .ok none
  have hwidens : Widens isOpen t (t.addSource source) := by
    refine ⟨?_, .inl rfl⟩
    intro includer name
    apply (lookup_addSource t source includer name).imp_right
    rintro ⟨hnone, path, hpath, hread⟩
    refine ⟨hnone, ?_⟩
    rintro place rfl
    exact ⟨name, place, path, rfl, hpath, hread⟩
  rcases hwidens.load name with hsame | ⟨_, ⟨missing, place, path, rfl, hpath, hread⟩, hload⟩
  . exact .inl hsame
  . exact .inr ⟨missing, place, path, hload, hpath, hread⟩

/--
The file that is missing comes from the source that is added, and the other one stays as it is.
-/
example :
    let first := MemoryFiles.ofList [("lib/main.glsl", "#include \"a.glsl\"\nx\n")]
    let second := MemoryFiles.ofList [("lib/a.glsl", "y\n"), ("lib/main.glsl", "z\n")]
    let t := empty.addSource first.source
    t.load "lib/main.glsl" = .error (.notFound "a.glsl" (some ⟨"lib/main.glsl", 1⟩)) ∧
      ((t.addSource second.source).load "lib/main.glsl").toOption =
        some ⟨"y\nx\n", [⟨"lib/a.glsl", 1⟩, ⟨"lib/main.glsl", 2⟩]⟩ := by
  decide +kernel

end Template
end ShaderBuild
