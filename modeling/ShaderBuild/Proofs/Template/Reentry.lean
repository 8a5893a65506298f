import Mathlib.Data.List.Count
import Mathlib.Data.List.Nodup
import ShaderBuild.Proofs.Include.Memory
import ShaderBuild.Proofs.Template.Once
import ShaderBuild.Proofs.Template.Progress

/-!
This module contains what becomes of an include of a text that has been entered before. While the
text is open, the place of its `#pragma once` line decides: once that line is passed, the include is
skipped, and before it the include is a cycle. After the text is left it is never entered again.
-/

namespace ShaderBuild

namespace OpenText

variable {text : OpenText}

/--
The line is passed that asks for the text to be expanded at most once.
-/
def HasPassedPragma (text : OpenText) : Prop :=
  ∃ entry ∈ text.passed, Directive.parse? entry.2 = some .pragmaOnce

theorem hasPassedPragma_pass {number : Nat} {line : String}
    (hhead : text.rest.head? = some (number, line)) :
    text.pass.HasPassedPragma
      ↔
    text.HasPassedPragma ∨ Directive.parse? line = some .pragmaOnce := by
  rcases text with ⟨found, passed, rest⟩
  cases rest with
  | nil => cases hhead
  | cons entry rest =>
    cases hhead
    simp [HasPassedPragma, pass, or_and_right, exists_or]

theorem not_hasPassedPragma_start (found : Found) : ¬(start found).HasPassedPragma := by
  rintro ⟨_, hmem, _⟩
  cases hmem

end OpenText

namespace Template

open OpenText (stack mem_stack_iff)

variable {t : Template} {name key : String} {p p' : Progress} {once : List String}
variable {text : OpenText} {inner : Found} {number : Nat} {line : String}

/--
An open text was found for some name, none of its lines is lost, and its key is in the set of those
that are not to be expanded again exactly if the text has asked for that.
-/
structure Tracks (t : Template) (once : List String) (text : OpenText) : Prop where
  lookup : ∃ includer name, t.lookup includer name = .ok (some text.found)
  numberedLines : text.passed ++ text.rest = Text.numberedLines text.found.text
  mem_once_iff : text.found.key ∈ once ↔ text.HasPassedPragma

theorem Tracks.start {includer : Option String}
    (hlookup : t.lookup includer name = .ok (some inner)) (honce : inner.key ∉ once) :
    t.Tracks once (.start inner) where
  lookup := ⟨includer, name, hlookup⟩
  numberedLines := rfl
  mem_once_iff := iff_of_false honce (OpenText.not_hasPassedPragma_start inner)

theorem numberedLines_pass (h : t.Tracks once text) :
    text.pass.passed ++ text.pass.rest = Text.numberedLines text.found.text := by
  rw [← h.numberedLines]
  unfold OpenText.pass
  rw [List.append_assoc, List.take_append_drop]

theorem Tracks.pass (h : t.Tracks once text) (hhead : text.rest.head? = some (number, line))
    (hparse : Directive.parse? line ≠ some .pragmaOnce) : t.Tracks once text.pass where
  lookup := h.lookup
  numberedLines := numberedLines_pass h
  mem_once_iff := by
    rw [OpenText.hasPassedPragma_pass hhead, or_iff_left hparse]
    exact h.mem_once_iff

theorem Tracks.passPragma (h : t.Tracks once text) (hhead : text.rest.head? = some (number, line))
    (hparse : Directive.parse? line = some .pragmaOnce) :
    t.Tracks (text.found.key :: once) text.pass where
  lookup := h.lookup
  numberedLines := numberedLines_pass h
  mem_once_iff := by
    rw [OpenText.hasPassedPragma_pass hhead]
    exact iff_of_true List.mem_cons_self (.inr hparse)

theorem Tracks.cons (h : t.Tracks once text) (hkey : text.found.key ≠ key) :
    t.Tracks (key :: once) text where
  lookup := h.lookup
  numberedLines := h.numberedLines
  mem_once_iff := by
    rw [List.mem_cons, or_iff_right hkey]
    exact h.mem_once_iff

theorem tracks_pass {outer : List OpenText} (h : ∀ other ∈ text :: outer, t.Tracks once other)
    (hhead : text.rest.head? = some (number, line))
    (hparse : Directive.parse? line ≠ some .pragmaOnce) :
    ∀ other ∈ text.pass :: outer, t.Tracks once other := by
  rw [List.forall_mem_cons] at h ⊢
  exact ⟨h.1.pass hhead hparse, h.2⟩

/--
A text that is left has passed all its lines, so it is not to be expanded again if one of them asks
for that.
-/
theorem Tracks.mem_once (h : t.Tracks once text) (hrest : text.rest = [])
    (hpragma : HasPragmaOnce text.found.text) : text.found.key ∈ once := by
  rw [h.mem_once_iff]
  rcases hpragma with ⟨line, hline, hparse⟩
  rw [← Text.map_snd_numberedLines, ← h.numberedLines, hrest, List.append_nil, List.mem_map]
    at hline
  rcases hline with ⟨entry, hentry, rfl⟩
  exact ⟨entry, hentry, hparse⟩

/--
The open texts have different keys, and each of them is tracked.
-/
structure Sound (t : Template) (p : Progress) : Prop where
  nodup : (stack p.texts).Nodup
  tracks : ∀ text ∈ p.texts, t.Tracks p.once text

theorem nodup_stack_cons {texts : List OpenText} :
    (stack (text :: texts)).Nodup ↔ text.found.key ∉ stack texts ∧ (stack texts).Nodup := by
  unfold stack
  rw [List.nodup_reverse, List.nodup_reverse, List.map_cons, List.nodup_cons, List.mem_reverse]

theorem Sound.step (h : t.Sound p) (hstep : t.Step p p') : t.Sound p' := by
  rcases h with ⟨hnodup, htracks⟩
  cases hstep with
  | copy hhead hparse => exact ⟨hnodup, tracks_pass htracks hhead (by simp [hparse])⟩
  | skip hmeets _ =>
    rcases hmeets with ⟨_, _, _, hhead, hparse, _⟩
    exact ⟨hnodup, tracks_pass htracks hhead (by simp [hparse])⟩
  | pragmaOnce hhead hparse =>
    rw [List.forall_mem_cons] at htracks
    refine ⟨hnodup, ?_⟩
    rw [List.forall_mem_cons]
    refine ⟨htracks.1.passPragma hhead hparse, ?_⟩
    intro other hother
    apply (htracks.2 other hother).cons
    -- no other open text has the key of the innermost one
    rw [nodup_stack_cons, mem_stack_iff] at hnodup
    exact fun heq => hnodup.1 ⟨other, hother, heq⟩
  | enter hmeets honce hstack _ =>
    rcases hmeets with ⟨_, _, _, hhead, hparse, hlookup⟩
    refine ⟨nodup_stack_cons.mpr ⟨hstack, hnodup⟩, ?_⟩
    rw [List.forall_mem_cons]
    exact ⟨.start hlookup honce, tracks_pass htracks hhead (by simp [hparse])⟩
  | leave _ =>
    rw [List.forall_mem_cons] at htracks
    exact ⟨(nodup_stack_cons.mp hnodup).2, htracks.2⟩

theorem Reaches.sound (h : t.Reaches name p) : t.Sound p := by
  induction h with
  | start hlookup _ =>
    refine ⟨List.nodup_singleton _, ?_⟩
    intro text htext
    cases List.mem_singleton.mp htext
    exact .start hlookup List.not_mem_nil
  | step _ hstep ih => exact ih.step hstep

/--
The text of the key was entered at most once, and if it was, it is open or not to be expanded again.
-/
structure EntersOnce (p : Progress) (key : String) : Prop where
  count_le : p.entered.count key ≤ 1
  met : key ∈ p.entered → key ∈ p.once ∨ key ∈ stack p.texts

theorem EntersOnce.step (honly : t.IsOnceOnly key) (hsound : t.Sound p) (h : EntersOnce p key)
    (hstep : t.Step p p') : EntersOnce p' key := by
  rcases h with ⟨hcount, hmet⟩
  cases hstep with
  | copy _ _ | skip _ _ => exact ⟨hcount, hmet⟩
  | pragmaOnce _ _ =>
    refine ⟨hcount, ?_⟩
    intro hmem
    exact (hmet hmem).imp_left (List.mem_cons_of_mem _)
  | @enter text outer _ once entered inner _ honce hstack _ =>
    by_cases heq : inner.key = key
    . subst heq
      have hfresh : inner.key ∉ entered := fun hmem => (hmet hmem).elim honce hstack
      refine ⟨?_, fun _ => .inr ?_⟩
      . rw [List.count_append, List.count_eq_zero_of_not_mem hfresh]
        simp
      . rw [OpenText.stack_cons]
        exact List.mem_append_right _ List.mem_cons_self
    . refine ⟨?_, ?_⟩
      . rw [List.count_append, List.count_eq_zero_of_not_mem (l := [inner.key]), Nat.add_zero]
        . exact hcount
        . simpa using Ne.symm heq
      . intro hmem
        rw [List.mem_append, List.mem_singleton, or_iff_left (Ne.symm heq)] at hmem
        apply (hmet hmem).imp_right
        intro hopen
        rw [OpenText.stack_cons]
        exact List.mem_append_left _ hopen
  | @leave text outer _ once _ hrest =>
    refine ⟨hcount, ?_⟩
    intro hmem
    have htracks := hsound.tracks text List.mem_cons_self
    rcases hmet hmem with honce | hopen
    . exact .inl honce
    . rw [OpenText.stack_cons, List.mem_append, List.mem_singleton] at hopen
      rcases hopen with hopen | rfl
      . exact .inr hopen
      . rcases htracks.lookup with ⟨includer, included, hlookup⟩
        exact .inl (htracks.mem_once hrest (honly _ _ _ hlookup rfl))

theorem Reaches.entersOnce (honly : t.IsOnceOnly key) (h : t.Reaches name p) :
    EntersOnce p key := by
  induction h with
  | @start root _ _ =>
    refine ⟨List.count_le_length, ?_⟩
    intro hmem
    exact .inr hmem
  | step hreaches hstep ih => exact ih.step honly hreaches.sound hstep

/--
An include of what is not to be expanded again is passed without any other change.
-/
theorem step_iff_of_mem_once {outer : List OpenText} (hp : p.texts = text :: outer)
    (hmeets : t.Meets text inner) (honce : inner.key ∈ p.once) :
    t.Step p p' ↔ p' = { p with texts := text.pass :: outer } := by
  rcases p with ⟨_, lines, once, entered⟩
  cases hp
  constructor
  . intro hstep
    cases hstep with
    | skip _ _ => rfl
    | copy hhead hparse | pragmaOnce hhead hparse =>
      rcases hmeets with ⟨_, _, _, hhead', hparse', _⟩
      rw [hhead, Option.some.injEq, Prod.mk.injEq] at hhead'
      rw [hhead'.2, hparse'] at hparse
      cases hparse
    | enter hmeets' honce' _ _ =>
      rw [hmeets.unique hmeets'] at honce'
      exact absurd honce honce'
    | leave hrest =>
      rcases hmeets with ⟨_, _, _, hhead', _⟩
      rw [hrest] at hhead'
      cases hhead'
  . rintro rfl
    exact .skip hmeets honce

/--
A text that asks for it is entered at most once, so that its lines are there in their order. If it
is included again while it is open, the include is skipped once the line is passed that asks for it,
and before that the load fails with the cycle.
-/
theorem load_key_once (t : Template) (name key : String) :
    (t.IsOnceOnly key →
      (∀ source, t.load name = .ok source →
        ((source.origins.filter fun origin => origin.file = key).map LineOrigin.line).Pairwise
            (· < ·) ∧
          ∃ p, t.Reaches name p ∧ p.texts = [] ∧ p.source = source) ∧
        ∀ p, t.Reaches name p → p.entered.count key ≤ 1) ∧
      ∀ p text outer inner again,
        t.Reaches name p → p.texts = text :: outer → t.Meets text inner → inner.key = key →
          again ∈ p.texts → again.found.key = key →
            (again.HasPassedPragma →
              ∀ p', t.Step p p' ↔ p' = { p with texts := text.pass :: outer }) ∧
              (¬again.HasPassedPragma →
                t.load name = .error (.includeCycle (stack p.texts ++ [key]))) := by
  refine ⟨?_, ?_⟩
  . intro honly
    refine ⟨?_, fun p hreaches => (hreaches.entersOnce honly).count_le⟩
    intro source hload
    exact ⟨pairwise_origins_of_isOnceOnly hload honly, load_eq_ok_iff.mp hload⟩
  . rintro p text outer inner again hreaches htexts hmeets rfl hagain hkey
    have honce := (hreaches.sound.tracks again hagain).mem_once_iff
    rw [hkey] at honce
    refine ⟨?_, ?_⟩
    . intro hpragma p'
      exact step_iff_of_mem_once htexts hmeets (honce.mpr hpragma)
    . intro hpragma
      have hopen : inner.key ∈ stack p.texts := mem_stack_iff.mpr ⟨again, hagain, hkey⟩
      rw [hreaches.load_eq]
      rcases p with ⟨_, lines, once, entered⟩
      cases htexts
      have hstops : t.Stops ⟨text :: outer, lines, once, entered⟩ _ :=
        .cycle hmeets (mt honce.mp hpragma) hopen
      rw [finish_of_stops hstops]
      rfl

/--
Two files that include each other and both ask to be expanded at most once, one before its include
and the other one after it. The first one can be loaded, the second one cannot.
-/
theorem load_key_once_around_pragma :
    let a : Found :=
      ⟨"a.glsl", "x\n#pragma once\n#include \"b.glsl\"\n#include \"./b.glsl\"\n"⟩
    let b : Found := ⟨"b.glsl", "#include \"a.glsl\"\n#pragma once\ny\n"⟩
    let files := MemoryFiles.ofList [(a.key, a.text), (b.key, b.text)]
    let t := empty.addSource files.source
    let passed := (OpenText.start a).pass.pass
    let p : Progress :=
      ⟨[.start b, passed.pass], [⟨"x", ⟨"a.glsl", 1⟩⟩], ["a.glsl"], ["a.glsl", "b.glsl"]⟩
    let source : Source := ⟨"x\ny\n", [⟨"a.glsl", 1⟩, ⟨"b.glsl", 3⟩]⟩
    t.IsOnceOnly "a.glsl" ∧ t.load "a.glsl" = .ok source ∧
      ((source.origins.filter fun origin => origin.file = "a.glsl").map LineOrigin.line).Pairwise
        (· < ·) ∧
      t.Reaches "a.glsl" p ∧ p.entered.count "a.glsl" ≤ 1 ∧
      (∀ p', t.Step p p' ↔ p' = { p with texts := [(OpenText.start b).pass, passed.pass] }) ∧
      t.load "b.glsl" = .error (.includeCycle ["b.glsl", "a.glsl", "b.glsl"]) := by
  intro a b files t passed p source
  have hentries : ∀ entry ∈ files.files.entries, entry.1 = "a.glsl" → entry.2 = a.text := by
    simp only [files, a, b]
    decide +kernel
  have honly : t.IsOnceOnly "a.glsl" := by
    intro includer included found h hkey
    have htext : found.text = a.text := by
      cases records_of_lookup h with
      | generated hprovide => cases hprovide
      | held _ hread =>
        rcases readFirst_eq_some hread with ⟨_, source, hsource, htext⟩
        exact hentries _ (MemoryFiles.mem_entries_of_read hsource htext) hkey
    rw [htext]
    exact ⟨"#pragma once", by decide +kernel, by decide +kernel⟩
  have hload : t.load "a.glsl" = .ok source := by
    rw [← toOption_eq_some_iff]
    simp only [t, files, a, b, source]
    decide +kernel
  have hrootA : t.lookup none "a.glsl" = .ok (some a) := by
    simp only [t, files, a, b]
    decide +kernel
  have hrootB : t.lookup none "b.glsl" = .ok (some b) := by
    simp only [t, files, a, b]
    decide +kernel
  have hmeetsA : t.Meets (.start b) a := by
    refine ⟨1, "#include \"a.glsl\"", "a.glsl", by decide +kernel, by decide +kernel, ?_⟩
    simp only [t, files, a, b]
    decide +kernel
  have hmeetsB : t.Meets passed b := by
    refine ⟨3, "#include \"b.glsl\"", "b.glsl", by decide +kernel, by decide +kernel, ?_⟩
    simp only [t, files, a, b]
    decide +kernel
  have hfirst : (OpenText.start a).rest.head? = some (1, "x") := by decide +kernel
  have hsecond : (OpenText.start a).pass.rest.head? = some (2, "#pragma once") := by decide +kernel
  have hcopied : Directive.parse? "x" = none := by decide +kernel
  have hasked : Directive.parse? "#pragma once" = some .pragmaOnce := by decide +kernel
  have hreaches : t.Reaches "a.glsl" p :=
    (((Reaches.start hrootA (by decide)).step (.copy hfirst hcopied)).step
      (.pragmaOnce hsecond hasked)).step
        (.enter hmeetsB (by decide +kernel) (by decide +kernel) (by decide))
  have hreachesB : t.Reaches "b.glsl" ⟨[passed, (OpenText.start b).pass], _, _, _⟩ :=
    (((Reaches.start hrootB (by decide)).step
      (.enter hmeetsA (by decide +kernel) (by decide +kernel) (by decide))).step
        (.copy hfirst hcopied)).step (.pragmaOnce hsecond hasked)
  have honce := (load_key_once t "a.glsl" "a.glsl").1 honly
  have hskip := (load_key_once t "a.glsl" "a.glsl").2 p _ _ a passed.pass hreaches rfl hmeetsA rfl
    (by simp [p]) rfl
  have hcycle := (load_key_once t "b.glsl" "b.glsl").2 _ _ _ b (OpenText.start b).pass hreachesB rfl
    hmeetsB rfl (by simp) rfl
  refine ⟨honly, hload, (honce.1 source hload).1, hreaches, honce.2 p hreaches, ?_, ?_⟩
  . exact hskip.1 ⟨(2, "#pragma once"), by decide +kernel, by decide +kernel⟩
  . apply hcycle.2
    simp only [OpenText.HasPassedPragma, b]
    decide +kernel

end Template
end ShaderBuild
