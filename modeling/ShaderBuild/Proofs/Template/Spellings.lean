import ShaderBuild.Proofs.Include.Memory
import ShaderBuild.Proofs.Template.Sources

/-!
This module contains the independence of a template from how paths are written. Its sources are seen
at paths in normal form only, so a file in memory is the same file under every spelling of its path,
and a file whose path has no normal form is not there.
-/

namespace ShaderBuild
namespace Template

variable {t : Template} {source source' : IncludeSource} {includer includer' : Option String}
variable {name name' path : String}

theorem readFirst_congr (h : source'.read path = source.read path)
    (before after : List IncludeSource) :
    readFirst path (before ++ source' :: after) = readFirst path (before ++ source :: after) := by
  rw [readFirst_append, readFirst_append, readFirst_cons, readFirst_cons, h]

/--
A load depends only on what the sources have under paths in normal form.
-/
theorem load_congr (h : ∀ path, Path.IsNormal path → source'.read path = source.read path)
    (t : Template) (before after : List IncludeSource) (name : String) :
    load { t with sources := before ++ source' :: after } name =
      load { t with sources := before ++ source :: after } name := by
  have hwidens : Widens (fun _ => False) { t with sources := before ++ source :: after }
      { t with sources := before ++ source' :: after } := by
    refine ⟨?_, .inl rfl⟩
    intro includer name
    left
    rw [lookup_eq, lookup_eq]
    cases hpath : sourcePath? includer name with
    | none => rfl
    | some path =>
      dsimp only
      rw [readFirst_congr (h path (isNormal_of_sourcePath? hpath))]
      rfl
  exact (hwidens.load name).eq fun _ hopen => hopen.elim

/--
Names that no provider answers are found as the same text if they lead to the same path.
-/
theorem lookup_congr (hprovide : t.provide? name = none) (hprovide' : t.provide? name' = none)
    (hpath : sourcePath? includer name = sourcePath? includer' name') :
    t.lookup includer name = t.lookup includer' name' := by
  rw [lookup_eq, lookup_eq, hprovide, hprovide', hpath]

theorem lookup_ne_none (hprovide : t.provide? name = none)
    (hpath : sourcePath? includer name = some path) (hsource : source ∈ t.sources)
    (hread : source.read path ≠ .ok none) : t.lookup includer name ≠ .ok none := by
  rw [lookup_eq, hprovide, hpath]
  exact fun hnone => hread (readFirst_eq_none_iff.mp hnone source hsource)

theorem load_of_lookup_eq_none (h : t.lookup none name = .ok none) :
    t.load name = .error (.notFound name none) := by
  rw [load_eq, h]
  rfl

theorem load_eq_of_lookup_eq (h : t.lookup none name = t.lookup none name')
    (hfound : t.lookup none name ≠ .ok none) : t.load name = t.load name' := by
  rw [load_eq, load_eq, ← h]
  cases hlookup : t.lookup none name with
  | error e => rfl
  | ok root? =>
    cases root? with
    | none => exact absurd hlookup hfound
    | some root => rfl

end Template

namespace MemoryFiles

/--
Files in memory are a map from normal forms of paths to texts. Under the normal form of a path there
is the file that was inserted last under a path with this normal form. A file whose path has no
normal form is not found at any path that a template asks for, so that nothing changes if it is left
out. Two names that no provider answers are loaded with the same result if their normal form is the
same, unless there is no file for them, and there is one if it was inserted under any path with this
normal form.
-/
theorem keyed_by_normal_form (files : List (String × String)) :
    (∀ path normal, Path.normalize? path = some normal →
      ∃ text?, (ofList files).source.read normal = .ok text? ∧ LastText files normal text?) ∧
    ((∀ includer name path, Template.sourcePath? includer name = some path →
        (ofList (withNormalForm files)).source.read path = (ofList files).source.read path) ∧
      ∀ (t : Template) before after name,
        t.sources = before ++ (ofList files).source :: after →
          t.load name =
            Template.load
              { t with sources := before ++ (ofList (withNormalForm files)).source :: after }
              name) ∧
    ∀ (t : Template) name name' normal,
      Path.normalize? name = some normal → Path.normalize? name' = some normal →
        t.provide? name = none → t.provide? name' = none →
          (t.lookup none name ≠ .ok none → t.load name = t.load name') ∧
          (t.lookup none name = .ok none →
            t.load name = .error (.notFound name none) ∧
              t.load name' = .error (.notFound name' none)) ∧
          ((ofList files).source ∈ t.sources →
            (∃ file ∈ files, Path.normalize? file.1 = some normal) →
              t.lookup none name ≠ .ok none) := by
  refine ⟨?_, ⟨?_, ?_⟩, ?_⟩
  . intro path normal hnormal
    exact lastText_read_ofList (Path.isNormal_of_normalize? hnormal) files
  . intro includer name path hpath
    exact read_ofList_withNormalForm (Template.isNormal_of_sourcePath? hpath) files
  . intro t before after name hsources
    have hload := Template.load_congr (fun _ hnormal => read_ofList_withNormalForm hnormal files) t
      before after name
    rw [← hsources] at hload
    exact hload.symm
  . intro t name name' normal hname hname' hprovide hprovide'
    have hpath : Template.sourcePath? none name = some normal := hname
    have hlookup : t.lookup none name = t.lookup none name' :=
      Template.lookup_congr hprovide hprovide' (hname.trans hname'.symm)
    refine ⟨Template.load_eq_of_lookup_eq hlookup, ?_, ?_⟩
    . intro hnone
      exact ⟨Template.load_of_lookup_eq_none hnone,
        Template.load_of_lookup_eq_none (hlookup.symm.trans hnone)⟩
    . rintro hsource ⟨file, hfile, hnormal⟩
      apply Template.lookup_ne_none hprovide hpath hsource
      rcases lastText_read_ofList (Path.isNormal_of_normalize? hname) files with
        ⟨text?, hread, hlast⟩
      rw [hread]
      cases hlast with
      | last => simp
      | missing hmissing => exact absurd hnormal (hmissing file hfile)

/--
A file that is replaced under another spelling of its path, and one that has no normal form and lies
between the two. The file that replaces is loaded under two more spellings.
-/
theorem keyed_by_normal_form_replaced :
    let files :=
      [("gpu/./lib.glsl", "x\n"), ("gpu/../../lib.glsl", "z\n"), ("gpu//old/../lib.glsl", "y\n")]
    let t := Template.empty.addSource (ofList files).source
    Path.normalize? "./gpu/lib.glsl" = some "gpu/lib.glsl" ∧
      (∃ text?, (ofList files).source.read "gpu/lib.glsl" = .ok text? ∧
        LastText files "gpu/lib.glsl" text?) ∧
      Path.normalize? "gpu/../../lib.glsl" = none ∧
      Template.sourcePath? (some "gpu/main.glsl") "lib.glsl" = some "gpu/lib.glsl" ∧
      (ofList (withNormalForm files)).source.read "gpu/lib.glsl" =
        (ofList files).source.read "gpu/lib.glsl" ∧
      t.load "./gpu/lib.glsl" =
        Template.load { t with sources := [(ofList (withNormalForm files)).source] }
          "./gpu/lib.glsl" ∧
      Path.normalize? "gpu//lib.glsl" = some "gpu/lib.glsl" ∧
      t.lookup none "./gpu/lib.glsl" ≠ .ok none ∧
      t.load "./gpu/lib.glsl" = t.load "gpu//lib.glsl" ∧
      (t.load "./gpu/lib.glsl").toOption = some ⟨"y\n", [⟨"gpu/lib.glsl", 1⟩]⟩ := by
  intro files t
  have hname : Path.normalize? "./gpu/lib.glsl" = some "gpu/lib.glsl" := by decide +kernel
  have hname' : Path.normalize? "gpu//lib.glsl" = some "gpu/lib.glsl" := by decide +kernel
  have hpath : Template.sourcePath? (some "gpu/main.glsl") "lib.glsl" = some "gpu/lib.glsl" := by
    decide +kernel
  have hfile : ∃ file ∈ files, Path.normalize? file.1 = some "gpu/lib.glsl" := by
    simp only [files]
    decide +kernel
  rcases keyed_by_normal_form files with ⟨hread, ⟨hforms, hload⟩, hspellings⟩
  rcases hspellings t _ _ _ hname hname' rfl rfl with ⟨hsame, _, hfound⟩
  have hne := hfound (List.mem_singleton_self _) hfile
  refine ⟨hname, hread _ _ hname, by decide +kernel, hpath, hforms _ _ _ hpath,
    hload t [] [] _ rfl, hname', hne, hsame hne, ?_⟩
  simp only [t, files]
  decide +kernel

end MemoryFiles
end ShaderBuild
