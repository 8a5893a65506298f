import ShaderBuild.Proofs.Include.Memory
import ShaderBuild.Proofs.Template.Authored
import ShaderBuild.Proofs.Template.Directive
import ShaderBuild.Proofs.Template.Substitution

/-!
This module contains that an expanded text is a fixed point of expansion. No line of it is a
directive, also once carriage returns at line ends are cut off, so a template that holds it as a
file gives it back line by line.
-/

namespace ShaderBuild

theorem Directive.parse?_dropReturn (line : String) :
    parse? (String.ofList (Text.dropReturn line.toList)) = parse? line := by
  by_cases h : Text.dropReturn line.toList = line.toList
  . rw [h, String.ofList_toList]
  . have hline : line = String.ofList (Text.dropReturn line.toList) ++ "\r" := by
      rw [← String.toList_inj, String.toList_append, String.toList_ofList]
      exact Text.eq_dropReturn_append h
    rw [hline, parse?_append_return, ← hline]

namespace Template

variable {t : Template} {name key : String} {source : Source}

/--
A text without directives is copied line by line.
-/
theorem expandLines_of_forall_eq_none
    {enter : Found → List String → Except TemplateError Expansion} {ls : List (Nat × String)}
    {once : List String} (h : ∀ entry ∈ ls, Directive.parse? entry.2 = none) :
    t.expandLines enter key ls once =
      .ok ⟨ls.map fun entry => ⟨entry.2, ⟨key, entry.1⟩⟩, once⟩ := by
  induction ls with
  | nil => rfl
  | cons entry rest ih =>
    rcases entry with ⟨number, line⟩
    rw [List.forall_mem_cons] at h
    rw [expandLines_cons, expandLine_eq, h.1]
    show (t.expandLines enter key rest once >>= _) = _
    rw [ih h.2]
    rfl

/--
A text that is loaded consists of lines without line feeds, none of which is a directive.
-/
theorem exists_lines_of_load (h : t.load name = .ok source) :
    ∃ ls,
      source.contents = Text.ofLines ls ∧ (∀ line ∈ ls, '\n' ∉ line.toList) ∧
        (∀ line ∈ ls, Directive.parse? line = none) ∧
          ∀ line ∈ ls, ∃ i, source.physicalLine? i = some line := by
  rcases Expands.of_load h with ⟨root, e, looked, _, hexpands, rfl⟩
  have hbreak := hexpands.not_mem_text fun _ hmem => hmem
  refine ⟨e.lines.map CopiedLine.text, rfl, hbreak, ?_, ?_⟩
  . rw [List.forall_mem_map]
    intro copied hcopied
    exact (hexpands.isLineOf (fun _ hmem => hmem) copied hcopied).1
  . rw [List.forall_mem_map]
    intro copied hcopied
    rcases List.getElem?_of_mem hcopied with ⟨i, hi⟩
    exact ⟨i, physicalLine?_source hbreak hi⟩

theorem parse?_of_mem_lines (h : t.load name = .ok source) :
    ∀ line ∈ Text.lines source.contents, Directive.parse? line = none := by
  rcases exists_lines_of_load h with ⟨ls, hcontents, hbreak, hparse, _⟩
  rw [hcontents, Text.lines_ofLines hbreak, List.forall_mem_map]
  intro line hline
  rw [Directive.parse?_dropReturn]
  exact hparse line hline

/--
A text without directives that is found for a name is what the name loads as.
-/
theorem load_of_forall_eq_none {root : Found} (hlookup : t.lookup none name = .ok (some root))
    (hdepth : 1 ≤ t.maxDepth) (h : ∀ line ∈ Text.lines root.text, Directive.parse? line = none) :
    t.load name = .ok
      ⟨Text.ofLines (Text.lines root.text),
        (List.range' 1 (Text.lines root.text).length).map fun n => ⟨root.key, n⟩⟩ := by
  have hls : ∀ entry ∈ Text.numberedLines root.text, Directive.parse? entry.2 = none :=
    Text.forall_numberedLines_iff.mpr h
  have hexpand : t.expand t.maxDepth [] root [] =
      .ok ⟨(Text.numberedLines root.text).map fun entry => ⟨entry.2, ⟨root.key, entry.1⟩⟩, []⟩ := by
    rw [← Nat.sub_add_cancel hdepth]
    rw [expand_eq, if_neg List.not_mem_nil]
    exact expandLines_of_forall_eq_none hls
  rw [load_eq_of_expand hlookup hexpand, ← Text.map_fst_numberedLines, ← Text.map_snd_numberedLines]
  unfold Expansion.source
  simp only [List.map_map, Function.comp_def]

/--
Expansion reaches a fixed point. No line of a text that is loaded is a directive. If none of its
lines ends with a carriage return, it is what it loads as itself where it is a file, under any path
that leads there, without providers and with no more than one level.
-/
theorem load_fixed_point (h : t.load name = .ok source) :
    (∀ line ∈ Text.lines source.contents, Directive.parse? line = none) ∧
      ((∀ i line, source.physicalLine? i = some line → line.toList.getLast? ≠ some '\r') →
        ∀ (t' : Template) (files : IncludeSource) (path key : String),
          t'.providers = [] → t'.sources = [files] → 1 ≤ t'.maxDepth →
            Path.normalize? path = some key → files.read key = .ok (some source.contents) →
              t'.load path = .ok
                ⟨source.contents,
                  (List.range' 1 (Text.lines source.contents).length).map fun n => ⟨key, n⟩⟩) := by
  have hparse := parse?_of_mem_lines h
  refine ⟨hparse, ?_⟩
  intro hreturn t' files path key hproviders hsources hdepth hpath hread
  have hlookup : t'.lookup none path = .ok (some ⟨key, source.contents⟩) := by
    rw [lookup_eq]
    unfold provide? sourcePath?
    rw [hproviders, hsources, hpath]
    dsimp only [List.findSome?_nil]
    rw [readFirst_cons, hread]
  have hcontents : Text.ofLines (Text.lines source.contents) = source.contents := by
    rcases exists_lines_of_load h with ⟨ls, hcontents, hbreak, _, hphysical⟩
    rw [hcontents, Text.lines_ofLines_eq_self hbreak]
    intro line hline
    rcases hphysical line hline with ⟨i, hi⟩
    exact hreturn i line hi
  rw [load_of_forall_eq_none hlookup hdepth hparse, hcontents]

/--
A text that is expanded only once, with a carriage return inside a line, and its expansion under two
other spellings of a path.
-/
theorem load_fixed_point_flat :
    let files := MemoryFiles.ofList
      [("main.glsl", "#include \"lib.glsl\"\r\n#include \"lib.glsl\"\nx"),
        ("lib.glsl", "#pragma once\na\rb\r\n")]
    let t := empty.addSource files.source
    let source : Source := ⟨"a\rb\nx\n", [⟨"lib.glsl", 2⟩, ⟨"main.glsl", 3⟩]⟩
    let flat := MemoryFiles.ofList [("gpu//flat.glsl", source.contents)]
    let t' := (empty.addSource flat.source).setMaxDepth 1
    t.load "main.glsl" = .ok source ∧
      (∀ i line, source.physicalLine? i = some line → line.toList.getLast? ≠ some '\r') ∧
        Path.normalize? "./gpu/flat.glsl" = some "gpu/flat.glsl" ∧
          flat.source.read "gpu/flat.glsl" = .ok (some source.contents) ∧
            t'.load "./gpu/flat.glsl" = .ok
              ⟨source.contents, [⟨"gpu/flat.glsl", 1⟩, ⟨"gpu/flat.glsl", 2⟩]⟩ := by
  intro files t source flat t'
  have hload : t.load "main.glsl" = .ok source := by
    rw [← toOption_eq_some_iff]
    simp only [t, files, source]
    decide +kernel
  have hreturn : ∀ i line, source.physicalLine? i = some line →
      line.toList.getLast? ≠ some '\r' := by
    have hpieces : ∀ piece ∈ Text.pieces '\n' source.contents.toList,
        piece.getLast? ≠ some '\r' := by
      decide +kernel
    intro i line hline
    unfold Source.physicalLine? at hline
    rw [Option.map_eq_some_iff] at hline
    rcases hline with ⟨piece, hpiece, rfl⟩
    rw [String.toList_ofList]
    exact hpieces piece (List.mem_of_getElem? hpiece)
  have hpath : Path.normalize? "./gpu/flat.glsl" = some "gpu/flat.glsl" := by decide +kernel
  have hstored : Path.normalize? "gpu//flat.glsl" = some "gpu/flat.glsl" := by decide +kernel
  have hread : flat.source.read "gpu/flat.glsl" = .ok (some source.contents) :=
    MemoryFiles.read_ofList_singleton hstored
  have hlines : (Text.lines source.contents).length = 2 := by decide +kernel
  have hagain := (load_fixed_point hload).2 hreturn t' flat.source _ _ rfl rfl (by decide) hpath
    hread
  rw [hlines] at hagain
  exact ⟨hload, hreturn, hpath, hread, hagain⟩

end Template
end ShaderBuild
