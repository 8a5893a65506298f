import ShaderBuild.Proofs.Template.Expands
import ShaderBuild.Proofs.Text.Lines

/-!
This module contains what the origins of an expanded text say: each of its lines is the line of a
text that was looked up, and of the root text every line that is no directive is there once.
-/

namespace ShaderBuild

/--
A copied line stands in a text, at the place that its origin gives.
-/
def CopiedLine.IsLineOf (copied : CopiedLine) (found : Found) : Prop :=
  found.key = copied.origin.file ∧
    (copied.origin.line, copied.text) ∈ Text.numberedLines found.text

namespace Template
namespace Expands

variable {t : Template} {stack once : List String} {key : String} {ls : List (Nat × String)}
variable {e : Expansion} {looked : List Found}

theorem lookup_of_mem (h : Expands t stack key ls once e looked) :
    ∀ found ∈ looked, ∃ includer name, t.lookup (some includer) name = .ok (some found) := by
  induction h with
  | nil => simp
  | copy _ _ ih | pragmaOnce _ _ ih => exact ih
  | @skip _ key _ _ name _ _ _ _ _ _ hlookup _ _ ih =>
    rw [List.forall_mem_cons]
    exact ⟨⟨key, name, hlookup⟩, ih⟩
  | @enter _ key _ _ name _ _ _ _ _ _ _ _ hlookup _ _ _ _ ihInner ih =>
    rw [List.cons_append, List.forall_mem_cons, List.forall_mem_append]
    exact ⟨⟨key, name, hlookup⟩, ihInner, ih⟩

theorem isLineOf {text : String} (h : Expands t stack key ls once e looked)
    (hls : ∀ entry ∈ ls, entry ∈ Text.numberedLines text) :
    ∀ copied ∈ e.lines,
      Directive.parse? copied.text = none ∧
        ∃ found ∈ ⟨key, text⟩ :: looked, copied.IsLineOf found := by
  induction h generalizing text with
  | nil => simp
  | copy hparse _ ih =>
    rw [List.forall_mem_cons] at hls
    rw [List.forall_mem_cons]
    exact ⟨⟨hparse, _, List.mem_cons_self, rfl, hls.1⟩, ih hls.2⟩
  | pragmaOnce _ _ ih =>
    rw [List.forall_mem_cons] at hls
    exact ih hls.2
  | skip _ _ _ _ ih =>
    rw [List.forall_mem_cons] at hls
    intro copied hcopied
    rcases ih hls.2 copied hcopied with ⟨hparse, found, hfound, hline⟩
    refine ⟨hparse, found, ?_, hline⟩
    exact List.cons_subset_cons _ (List.subset_cons_self _ _) hfound
  | enter _ _ _ _ _ _ ihInner ih =>
    rw [List.forall_mem_cons] at hls
    rw [List.forall_mem_append]
    constructor
    . intro copied hcopied
      -- the entered text itself is the first one that is looked up
      rcases ihInner (fun _ hmem => hmem) copied hcopied with ⟨hparse, found, hfound, hline⟩
      refine ⟨hparse, found, ?_, hline⟩
      exact List.mem_cons_of_mem _ (List.mem_append_left _ hfound)
    . intro copied hcopied
      rcases ih hls.2 copied hcopied with ⟨hparse, found, hfound, hline⟩
      refine ⟨hparse, found, ?_, hline⟩
      exact List.cons_subset_cons _ (List.subset_append_right _ _) hfound

theorem not_mem_text {text : String} (h : Expands t stack key ls once e looked)
    (hls : ∀ entry ∈ ls, entry ∈ Text.numberedLines text) :
    ∀ piece ∈ e.lines.map CopiedLine.text, '\n' ∉ piece.toList := by
  intro piece hpiece
  rw [List.mem_map] at hpiece
  rcases hpiece with ⟨copied, hcopied, rfl⟩
  rcases h.isLineOf hls copied hcopied with ⟨_, found, _, _, hmem⟩
  rw [Text.mem_numberedLines_iff] at hmem
  apply Text.not_mem_of_mem_lines (List.mem_of_getElem? hmem.2)

theorem file_eq_or_not_mem (h : Expands t stack key ls once e looked) (hkey : key ∈ stack) :
    ∀ copied ∈ e.lines, copied.origin.file = key ∨ copied.origin.file ∉ stack := by
  induction h with
  | nil => simp
  | copy _ _ ih =>
    rw [List.forall_mem_cons]
    exact ⟨.inl rfl, ih hkey⟩
  | pragmaOnce _ _ ih | skip _ _ _ _ ih => exact ih hkey
  | enter _ _ _ hstack _ _ ihInner ih =>
    rw [List.forall_mem_append]
    refine ⟨?_, ih hkey⟩
    intro copied hcopied
    have hinner := ihInner (List.mem_append_right _ List.mem_cons_self) copied hcopied
    rcases hinner with heq | hnot
    . rw [heq]
      exact .inr hstack
    . exact .inr fun hmem => hnot (List.mem_append_left _ hmem)

theorem ownLines_eq (h : Expands t stack key ls once e looked) (hkey : key ∈ stack) :
    (e.lines.filter fun copied => copied.origin.file = key).map (fun copied => copied.origin.line) =
      (ls.filter fun entry => (Directive.parse? entry.2).isNone).map Prod.fst := by
  induction h with
  | nil => rfl
  | copy hparse _ ih => simp [hparse, ih hkey]
  | pragmaOnce hparse _ ih | skip hparse _ _ _ ih => simp [hparse, ih hkey]
  | @enter _ key _ _ _ _ _ _ inner _ _ _ hparse _ _ hstack hinner _ _ ih =>
    -- no text is expanded inside itself, so what is entered holds no line of this one
    have hforeign : ∀ copied ∈ inner.lines, copied.origin.file ≠ key := by
      intro copied hcopied heq
      have hfile := hinner.file_eq_or_not_mem (List.mem_append_right _ List.mem_cons_self) copied
        hcopied
      rw [heq] at hfile
      rcases hfile with heq | hnot
      . exact hstack (heq ▸ hkey)
      . exact hnot (List.mem_append_left _ hkey)
    rw [List.filter_append, List.filter_eq_nil_iff.mpr, List.nil_append, ih hkey]
    . simp [hparse]
    . simpa using hforeign

end Expands

/--
Loading a name finds the text `root`, looks up the texts of `looked` for the includes on the way,
and gives the source.
-/
inductive Loads (t : Template) (name : String) (root : Found) (looked : List Found) : Source → Prop
  | intro {e : Expansion} :
    t.lookup none name = .ok (some root) →
      Expands t [root.key] root.key (Text.numberedLines root.text) [] e looked →
        Loads t name root looked e.source

theorem length_origins_of_load {t : Template} {name : String} {source : Source}
    (h : t.load name = .ok source) :
    source.origins.length = (Text.lines source.contents).length := by
  rcases Expands.of_load h with ⟨root, e, looked, _, hexpands, rfl⟩
  unfold Expansion.source
  rw [Text.length_lines_ofLines (hexpands.not_mem_text fun _ hmem => hmem), List.length_map,
    List.length_map]

/--
The lines of a text that is loaded and its origins correspond to each other. Each line is, without
change, the line at its origin in a text that was looked up, and it is no directive there. The lines
of the root text are all there that are no directives, in their order.
-/
theorem load_lineMap {t : Template} {name : String} {source : Source}
    (h : t.load name = .ok source) :
    ∃ root looked pieces,
      Loads t name root looked source ∧
        (∀ found ∈ looked, ∃ includer name, t.lookup (some includer) name = .ok (some found)) ∧
        (pieces.length = source.origins.length ∧ (∀ piece ∈ pieces, '\n' ∉ piece.toList) ∧
          source.contents = Text.ofLines pieces) ∧
        (∀ (i : Nat) (piece : String) (origin : LineOrigin),
          pieces[i]? = some piece → source.origins[i]? = some origin →
          Directive.parse? piece = none ∧
            ∃ found ∈ root :: looked,
              found.key = origin.file ∧ 1 ≤ origin.line ∧
                (Text.lines found.text)[origin.line - 1]? = some piece) ∧
        ((source.origins.filter fun origin => origin.file = root.key).map LineOrigin.line =
            ((Text.numberedLines root.text).filter fun entry =>
              (Directive.parse? entry.2).isNone).map Prod.fst ∧
          ((source.origins.filter fun origin => origin.file = root.key).map
            LineOrigin.line).Pairwise (· < ·)) := by
  rcases Expands.of_load h with ⟨root, e, looked, hlookup, hexpands, rfl⟩
  have hlines := hexpands.isLineOf fun _ hmem => hmem
  have hown := hexpands.ownLines_eq List.mem_cons_self
  have horigins :
      (e.source.origins.filter fun origin => origin.file = root.key).map LineOrigin.line =
        (e.lines.filter fun copied => copied.origin.file = root.key).map
          fun copied => copied.origin.line := by
    unfold Expansion.source
    rw [List.filter_map, List.map_map]
    rfl
  refine ⟨root, looked, e.lines.map CopiedLine.text, ⟨hlookup, hexpands⟩,
    hexpands.lookup_of_mem, ⟨?_, hexpands.not_mem_text fun _ hmem => hmem, rfl⟩, ?_,
    horigins.trans hown, ?_⟩
  . unfold Expansion.source
    rw [List.length_map, List.length_map]
  . intro i piece origin hpiece horigin
    unfold Expansion.source at horigin
    rw [List.getElem?_map, Option.map_eq_some_iff] at hpiece horigin
    rcases hpiece with ⟨copied, hcopied, rfl⟩
    rcases horigin with ⟨copied', hcopied', rfl⟩
    rw [hcopied, Option.some.injEq] at hcopied'
    subst hcopied'
    rcases hlines copied (List.mem_of_getElem? hcopied) with ⟨hparse, found, hfound, hfile, hmem⟩
    rw [Text.mem_numberedLines_iff] at hmem
    exact ⟨hparse, found, hfound, hfile, hmem⟩
  . rw [horigins, hown, List.pairwise_map]
    apply List.Pairwise.filter
    apply Text.numberedLines_pairwise

/--
A text that includes another one, which has a directive of its own and no line feed at its end.
-/
theorem load_lineMap_include :
    let t :=
      (empty.addSnippet "main" "x\r\n#include <common>\ny\n").addSnippet "common" "#pragma once\nz"
    let source : Source := ⟨"x\nz\ny\n", [⟨"main", 1⟩, ⟨"common", 2⟩, ⟨"main", 3⟩]⟩
    t.load "main" = .ok source ∧
      ∃ root looked pieces,
        Loads t "main" root looked source ∧ source.contents = Text.ofLines pieces := by
  intro t source
  have hload : t.load "main" = .ok source := by
    rw [← toOption_eq_some_iff]
    simp only [t, source]
    decide +kernel
  rcases load_lineMap hload with ⟨root, looked, pieces, hloads, _, ⟨_, _, hcontents⟩, _⟩
  exact ⟨hload, root, looked, pieces, hloads, hcontents⟩

end Template
end ShaderBuild
