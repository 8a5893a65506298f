import ShaderBuild.Include.Memory
import ShaderBuild.Proofs.Template.LineMap
import ShaderBuild.Proofs.Template.Lookup

/-!
This module contains what an origin stands for. Lines of an expanded text that have the same origin
are the same, unless a provider and the sources have two texts under the key of the origin.
-/

namespace ShaderBuild

/--
A line of the contents as a driver counts lines, from zero on. Only line feeds end such a line.
-/
def Source.physicalLine? (source : Source) (i : Nat) : Option String :=
  (Text.pieces '\n' source.contents.toList)[i]?.map String.ofList

namespace Template

variable {t : Template} {name : String} {source : Source} {origin : LineOrigin} {i j : Nat}

theorem physicalLine?_source {e : Expansion} {copied : CopiedLine}
    (h : ∀ piece ∈ e.lines.map CopiedLine.text, '\n' ∉ piece.toList)
    (hcopied : e.lines[i]? = some copied) : e.source.physicalLine? i = some copied.text := by
  have hpiece : (e.lines.map CopiedLine.text)[i]? = some copied.text := by
    rw [List.getElem?_map, hcopied, Option.map_some]
  unfold Source.physicalLine? Expansion.source
  rw [Text.pieces_ofLines h, List.getElem?_append_left, List.getElem?_map, hpiece]
  . simp
  . rw [List.length_map]
    exact (List.getElem?_eq_some_iff.mp hpiece).1

/--
Each line of a text that is loaded stands, at its origin, in a text that is recorded there.
-/
theorem exists_isLineOf_of_load (h : t.load name = .ok source)
    (horigin : source.origins[i]? = some origin) :
    ∃ line found, source.physicalLine? i = some line ∧ t.Records found ∧
      CopiedLine.IsLineOf ⟨line, origin⟩ found := by
  rcases Expands.of_load h with ⟨root, e, looked, hlookup, hexpands, rfl⟩
  have hlines := hexpands.not_mem_text fun _ hmem => hmem
  unfold Expansion.source at horigin
  rw [List.getElem?_map, Option.map_eq_some_iff] at horigin
  rcases horigin with ⟨copied, hcopied, rfl⟩
  rcases hexpands.isLineOf (fun _ hmem => hmem) copied (List.mem_of_getElem? hcopied) with
    ⟨_, found, hfound, hline⟩
  refine ⟨copied.text, found, physicalLine?_source hlines hcopied, ?_, hline⟩
  rw [List.mem_cons] at hfound
  rcases hfound with rfl | hlooked
  . exact records_of_lookup hlookup
  . rcases hexpands.lookup_of_mem found hlooked with ⟨_, _, hlookup⟩
    exact records_of_lookup hlookup

/--
The two lines stand at the same place in two texts that a provider and the sources have under the
key of the origin.
-/
def Differs (t : Template) (origin : LineOrigin) (line line' : String) : Prop :=
  ∃ generated held, t.Clash generated held ∧
    CopiedLine.IsLineOf ⟨line, origin⟩ generated ∧ CopiedLine.IsLineOf ⟨line', origin⟩ held

/--
Lines of a text that is loaded which have the same origin are the same line, or they stand at the
same place in a generated text and in a file that are both recorded under the key of the origin.
They are the same in any template whose providers and sources answer no name differently.
-/
theorem load_origin_line (h : t.load name = .ok source) (hi : source.origins[i]? = some origin)
    (hj : source.origins[j]? = some origin) :
    ∃ line line',
      source.physicalLine? i = some line ∧ source.physicalLine? j = some line' ∧
        (line = line' ∨ t.Differs origin line line' ∨ t.Differs origin line' line) ∧
        (t.AnswersAgree → line = line') := by
  rcases exists_isLineOf_of_load h hi with ⟨line, found, hline, hrecords, hfile, hmem⟩
  rcases exists_isLineOf_of_load h hj with ⟨line', found', hline', hrecords', hfile', hmem'⟩
  have hkey : found.key = found'.key := hfile.trans hfile'.symm
  refine ⟨line, line', hline, hline', ?_, ?_⟩
  . rcases hrecords.eq_or_clash hrecords' hkey with rfl | hclash | hclash
    . exact .inl (Text.eq_of_mem_numberedLines hmem hmem')
    . exact .inr (.inl ⟨found, found', hclash, ⟨hfile, hmem⟩, ⟨hfile', hmem'⟩⟩)
    . exact .inr (.inr ⟨found', found, hclash, ⟨hfile', hmem'⟩, ⟨hfile, hmem⟩⟩)
  . intro hagree
    cases hrecords.eq_of_key_eq hagree hrecords' hkey
    exact Text.eq_of_mem_numberedLines hmem hmem'

/--
A file that is included under two spellings of its path, next to a generated text.
-/
theorem load_origin_line_spellings :
    let files := MemoryFiles.ofList
      [("lib/a.glsl", "x\r\ny"),
        ("main.glsl", "#include \"lib/a.glsl\"\n#include <config>\n#include \"./lib/./a.glsl\"\n")]
    let t := (empty.addSnippet "config" "c\n").addSource files.source
    let source : Source := ⟨"x\ny\nc\nx\ny\n",
      [⟨"lib/a.glsl", 1⟩, ⟨"lib/a.glsl", 2⟩, ⟨"config", 1⟩, ⟨"lib/a.glsl", 1⟩, ⟨"lib/a.glsl", 2⟩]⟩
    t.load "main.glsl" = .ok source ∧ source.origins[1]? = some ⟨"lib/a.glsl", 2⟩ ∧
      source.origins[4]? = some ⟨"lib/a.glsl", 2⟩ ∧
        ∃ line line',
          source.physicalLine? 1 = some line ∧ source.physicalLine? 4 = some line' ∧
            (line = line' ∨ t.Differs ⟨"lib/a.glsl", 2⟩ line line' ∨
              t.Differs ⟨"lib/a.glsl", 2⟩ line' line) ∧
            (t.AnswersAgree → line = line') := by
  intro files t source
  have hload : t.load "main.glsl" = .ok source := by
    rw [← toOption_eq_some_iff]
    simp only [t, files, source]
    decide +kernel
  exact ⟨hload, rfl, rfl, load_origin_line hload rfl rfl⟩

/--
A generated text and a file are recorded under the same key, if the file is included under another
spelling of its path. Their first lines differ and have the same origin.
-/
theorem load_origin_two_lines :
    let files := MemoryFiles.ofList
      [("main.glsl", "#include \"config\"\n#include \"./config\"\n"), ("config", "y\n")]
    let t := (empty.addSnippet "config" "x\n").addSource files.source
    let source : Source := ⟨"x\ny\n", [⟨"config", 1⟩, ⟨"config", 1⟩]⟩
    t.load "main.glsl" = .ok source ∧ source.physicalLine? 0 = some "x" ∧
      source.physicalLine? 1 = some "y" ∧
        ¬∀ i j origin, source.origins[i]? = some origin → source.origins[j]? = some origin →
          source.physicalLine? i = source.physicalLine? j := by
  intro files t source
  have hload : t.load "main.glsl" = .ok source := by
    rw [← toOption_eq_some_iff]
    simp only [t, files, source]
    decide +kernel
  have hfirst : source.physicalLine? 0 = some "x" := by decide +kernel
  have hsecond : source.physicalLine? 1 = some "y" := by decide +kernel
  refine ⟨hload, hfirst, hsecond, ?_⟩
  intro hsame
  have hlines := hsame 0 1 ⟨"config", 1⟩ rfl rfl
  rw [hfirst, hsecond, Option.some.injEq] at hlines
  exact absurd hlines (by decide)

end Template
end ShaderBuild
