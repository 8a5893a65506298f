import Mathlib.Data.List.Forall2
import ShaderBuild.Proofs.Include.Memory
import ShaderBuild.Proofs.Template.Expands
import ShaderBuild.Proofs.Template.Lookup
import ShaderBuild.Proofs.Text.Lines

/-!
This module contains the independence of an expansion from the place that a text is included at. An
expansion that succeeds inside other texts also succeeds inside fewer of them, and comes to the same
lines. So a text without lines for the set of files that are expanded once is the line by line
substitution of what the included texts are on their own.
-/

namespace ShaderBuild

namespace Source

/--
The contents and the origins of sources, one after the other.
-/
def concat (sources : List Source) : Source where
  contents := String.join (sources.map Source.contents)
  origins := sources.flatMap Source.origins

theorem concat_cons (source : Source) (rest : List Source) :
    concat (source :: rest) =
      ⟨source.contents ++ (concat rest).contents, source.origins ++ (concat rest).origins⟩ := by
  simp [concat]

end Source

namespace Template

variable {t : Template} {stack stack' once : List String} {key : String} {e : Expansion}
variable {enter enter' : Found → List String → Except TemplateError Expansion}

/--
Every text that `enter` expands is expanded by `enter'` in the same way.
-/
def Extends (enter' enter : Found → List String → Except TemplateError Expansion) : Prop :=
  ∀ found once e, enter found once = .ok e → enter' found once = .ok e

theorem expandLine_of_extends (henter : Extends enter' enter) {number : Nat} {line : String}
    (h : t.expandLine enter key number line once = .ok e) :
    t.expandLine enter' key number line once = .ok e := by
  rw [expandLine_eq] at h ⊢
  split at h
  . exact h
  . exact h
  . rw [bind_eq_ok_iff] at h ⊢
    rcases h with ⟨found?, hlookup, h⟩
    refine ⟨found?, hlookup, ?_⟩
    cases found? with
    | none => cases h
    | some found =>
      dsimp only at h ⊢
      split at h
      . next honce =>
        rw [if_pos honce]
        exact h
      . next honce =>
        rw [if_neg honce]
        exact henter _ _ _ h

theorem expandLines_of_extends (henter : Extends enter' enter) {ls : List (Nat × String)}
    (h : t.expandLines enter key ls once = .ok e) :
    t.expandLines enter' key ls once = .ok e := by
  induction ls generalizing once e with
  | nil => exact h
  | cons entry rest ih =>
    rcases entry with ⟨number, line⟩
    rcases expandLines_cons_eq_ok h with ⟨first, others, hfirst, hothers, rfl⟩
    rw [expandLines_cons, expandLine_of_extends henter hfirst]
    show (t.expandLines enter' key rest first.once >>= _) = _
    rw [ih hothers]
    rfl

/--
An expansion does not depend on the texts around it and on how many more levels are allowed, as long
as it succeeds.
-/
theorem expand_of_subset {room room' : Nat} {found : Found} (hroom : room ≤ room')
    (hstack : stack' ⊆ stack) (h : t.expand room stack found once = .ok e) :
    t.expand room' stack' found once = .ok e := by
  induction room generalizing room' stack stack' found once e with
  | zero =>
    rcases expand_eq_ok h with ⟨_, _, hzero, _⟩
    cases hzero
  | succ room ih =>
    rcases expand_eq_ok h with ⟨hkey, _, hsucc, hlines⟩
    cases hsucc
    cases room' with
    | zero => omega
    | succ room' =>
      rw [expand_eq, if_neg fun hmem => hkey (hstack hmem)]
      dsimp only
      apply expandLines_of_extends _ hlines
      intro inner once e hinner
      -- both stacks grow by the text that is entered, and both lose one level
      apply ih (by omega) _ hinner
      rw [List.append_subset]
      exact ⟨List.subset_append_of_subset_left _ hstack, List.subset_append_right _ _⟩

/--
No text of the template has a line that says that it is expanded only once.
-/
def HasNoOnce (t : Template) : Prop :=
  ∀ text, t.HasText text → ∀ line ∈ Text.lines text, Directive.parse? line ≠ some .pragmaOnce

theorem HasNoOnce.numberedLines (h : t.HasNoOnce) {text : String} (htext : t.HasText text) :
    ∀ entry ∈ Text.numberedLines text, Directive.parse? entry.2 ≠ some .pragmaOnce :=
  Text.forall_numberedLines_iff.mpr (h text htext)

theorem Expands.once_eq {ls : List (Nat × String)} {looked : List Found} (h : t.HasNoOnce)
    (hls : ∀ entry ∈ ls, Directive.parse? entry.2 ≠ some .pragmaOnce)
    (hexpands : Expands t stack key ls once e looked) : e.once = once := by
  induction hexpands with
  | nil => rfl
  | copy _ _ ih | skip _ _ _ _ ih =>
    rw [List.forall_mem_cons] at hls
    exact ih hls.2
  | pragmaOnce hparse _ _ =>
    rw [List.forall_mem_cons] at hls
    exact absurd hparse hls.1
  | enter _ hlookup _ _ _ _ ihInner ih =>
    rw [List.forall_mem_cons] at hls
    rw [ih hls.2, ihInner (h.numberedLines (hasText_of_lookup hlookup))]

/--
What a line of the text under `key` contributes to the expansion. An include stands for the text
that it finds, loaded on its own. Any other line stands for itself.
-/
inductive Contributes (t : Template) (key : String) : Nat × String → Source → Prop
  | included {number : Nat} {line name : String} {found : Found} {source : Source} :
    Directive.parse? line = some (.includeFile name) →
      t.lookup (some key) name = .ok (some found) → t.load found.key = .ok source →
        Contributes t key (number, line) source
  | copied {number : Nat} {line : String} :
    (∀ name, Directive.parse? line ≠ some (.includeFile name)) →
      Contributes t key (number, line) ⟨line ++ "\n", [⟨key, number⟩]⟩

theorem source_append (first others : Expansion) (once : List String) :
    Expansion.source ⟨first.lines ++ others.lines, once⟩ =
      ⟨first.source.contents ++ others.source.contents,
        first.source.origins ++ others.source.origins⟩ := by
  simp [Expansion.source, Text.ofLines, String.join_append]

theorem source_copied (line : String) (origin : LineOrigin) (once : List String) :
    Expansion.source ⟨[⟨line, origin⟩], once⟩ = ⟨line ++ "\n", [origin]⟩ := by
  simp [Expansion.source, Text.ofLines]

theorem load_eq_of_expand {name : String} {root : Found}
    (hlookup : t.lookup none name = .ok (some root))
    (hexpand : t.expand t.maxDepth [] root [] = .ok e) : t.load name = .ok e.source := by
  rw [load_eq_map hlookup, hexpand]
  rfl

/--
An include that succeeds inside other texts succeeds on its own, and as no file is expanded only
once, it comes to the same lines.
-/
theorem contributes_of_expand {room number : Nat} {line name : String} {found : Found}
    (honce : t.HasNoOnce) (hapart : t.ProvidersApart) (hroom : room ≤ t.maxDepth)
    (hparse : Directive.parse? line = some (.includeFile name))
    (hlookup : t.lookup (some key) name = .ok (some found))
    (h : t.expand room stack found [] = .ok e) :
    e.once = [] ∧ Contributes t key (number, line) e.source := by
  have halone := expand_of_subset hroom (List.nil_subset stack) h
  rcases Expands.of_expand h with ⟨_, looked, hexpands⟩
  constructor
  . exact hexpands.once_eq honce (honce.numberedLines (hasText_of_lookup hlookup))
  . exact .included hparse hlookup (load_eq_of_expand (lookup_key hapart hlookup) halone)

theorem contributes_of_expandLines {room : Nat} {ls : List (Nat × String)} (honce : t.HasNoOnce)
    (hapart : t.ProvidersApart) (hroom : room ≤ t.maxDepth)
    (hls : ∀ entry ∈ ls, Directive.parse? entry.2 ≠ some .pragmaOnce)
    (h : t.expandLines (t.expand room stack) key ls [] = .ok e) :
    ∃ sources, List.Forall₂ (Contributes t key) ls sources ∧ e.source = Source.concat sources := by
  induction ls generalizing e with
  | nil =>
    cases h
    exact ⟨[], .nil, rfl⟩
  | cons entry rest ih =>
    rcases entry with ⟨number, line⟩
    rw [List.forall_mem_cons] at hls
    rcases expandLines_cons_eq_ok h with ⟨first, others, hfirst, hothers, rfl⟩
    have hcontributes : first.once = [] ∧ Contributes t key (number, line) first.source := by
      rcases expandLine_eq_ok hfirst with ⟨hparse, rfl⟩ | ⟨hparse, rfl⟩ |
        ⟨name, found, hparse, hlookup, ⟨hmem, rfl⟩ | ⟨_, hinner⟩⟩
      . refine ⟨rfl, ?_⟩
        rw [source_copied]
        exact .copied (by simp [hparse])
      . exact absurd hparse hls.1
      . cases hmem
      . exact contributes_of_expand honce hapart hroom hparse hlookup hinner
    rw [hcontributes.1] at hothers
    rcases ih hls.2 hothers with ⟨sources, hsources, hconcat⟩
    refine ⟨first.source :: sources, .cons hcontributes.2 hsources, ?_⟩
    rw [source_append, Source.concat_cons, hconcat]

/--
Inclusion is substitution. If no file is expanded only once and no provider stands in front of a
file, each text that is included by the text of a name also loads on its own, and the text of the
name comes to what these are, in the place of their includes, and the other lines as they are.
-/
theorem load_substitutes {name : String} {source : Source} (honce : t.HasNoOnce)
    (hapart : t.ProvidersApart) (h : t.load name = .ok source) :
    ∃ root sources,
      t.lookup none name = .ok (some root) ∧
        List.Forall₂ (Contributes t root.key) (Text.numberedLines root.text) sources ∧
          source = Source.concat sources := by
  rcases load_eq_ok h with ⟨root, e, hlookup, hexpand, rfl⟩
  rcases expand_eq_ok hexpand with ⟨_, room, hroom, hlines⟩
  have hls := honce.numberedLines (hasText_of_lookup hlookup)
  rcases contributes_of_expandLines honce hapart (by omega) hls hlines with
    ⟨sources, hsources, hconcat⟩
  exact ⟨root, sources, hlookup, hsources, hconcat⟩

/--
A file that is included at two depths, under two spellings, and includes a generated text.
-/
theorem load_substitutes_nested :
    let files := MemoryFiles.ofList
      [("/gpu/main.glsl", "#include \"lib/a.glsl\"\nx\n#include \"b.glsl\"\n"),
        ("/gpu/lib/a.glsl", "#include \"../b.glsl\"\ny\n"),
        ("/gpu/b.glsl", "#include <config>\nz")]
    let t := (empty.addSnippet "config" "c\n").addSource files.source
    let source : Source := ⟨"c\nz\ny\nx\nc\nz\n",
      [⟨"config", 1⟩, ⟨"/gpu/b.glsl", 2⟩, ⟨"/gpu/lib/a.glsl", 2⟩, ⟨"/gpu/main.glsl", 2⟩,
        ⟨"config", 1⟩, ⟨"/gpu/b.glsl", 2⟩]⟩
    t.HasNoOnce ∧ t.ProvidersApart ∧ t.load "/gpu/main.glsl" = .ok source ∧
      ∃ root sources,
        t.lookup none "/gpu/main.glsl" = .ok (some root) ∧
          List.Forall₂ (Contributes t root.key) (Text.numberedLines root.text) sources ∧
            source = Source.concat sources := by
  intro files t source
  have hfiles : ∀ entry ∈ files.files.entries,
      t.provide? entry.1 = none ∧
        ∀ line ∈ Text.lines entry.2, Directive.parse? line ≠ some .pragmaOnce := by
    simp only [t, files]
    decide +kernel
  have honce : t.HasNoOnce := by
    intro text htext
    cases htext with
    | generated hprovider hanswer =>
      cases List.mem_singleton.mp hprovider
      unfold Provider.snippet at hanswer
      split at hanswer
      . cases hanswer
        decide +kernel
      . cases hanswer
    | held hsource htext => exact (hfiles _ (MemoryFiles.mem_entries_of_read hsource htext)).2
  have hapart : t.ProvidersApart := by
    intro source hsource path text _ htext
    exact (hfiles _ (MemoryFiles.mem_entries_of_read hsource htext)).1
  have hload : t.load "/gpu/main.glsl" = .ok source := by
    rw [← toOption_eq_some_iff]
    simp only [t, files, source]
    decide +kernel
  exact ⟨honce, hapart, hload, load_substitutes honce hapart hload⟩

end Template
end ShaderBuild
