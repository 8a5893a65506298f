import Mathlib.Logic.Relation
import ShaderBuild.Proofs.Template.Expands

/-!
This module contains the loading of a name step by step, with the texts that are open at a time.
What is copied so far and what is still to come determine the result at every point. A load goes on
until no text is open, or it stops at a line that it cannot pass, with the error that this gives.
-/

namespace ShaderBuild

/--
A text that is being expanded, with the lines that are passed and those that are still to come.
-/
structure OpenText where
  found : Found
  passed : List (Nat × String)
  rest : List (Nat × String)

namespace OpenText

def start (found : Found) : OpenText where
  found := found
  passed := []
  rest := Text.numberedLines found.text

/--
The text with one more line passed.
-/
def pass (text : OpenText) : OpenText where
  found := text.found
  passed := text.passed ++ text.rest.take 1
  rest := text.rest.drop 1

/--
The keys of open texts, outermost first. The texts are given from the innermost on.
-/
def stack (texts : List OpenText) : List String :=
  (texts.map fun text => text.found.key).reverse

theorem stack_cons (text : OpenText) (outer : List OpenText) :
    stack (text :: outer) = stack outer ++ [text.found.key] := by
  simp [stack]

theorem mem_stack_iff {key : String} {texts : List OpenText} :
    key ∈ stack texts ↔ ∃ text ∈ texts, text.found.key = key := by
  simp [stack]

end OpenText

/--
A point that a load comes to: the open texts from the innermost on, the lines that are copied, the
keys that are not to be expanded again, and the keys of all texts that were entered, in their order.
-/
structure Progress where
  texts : List OpenText
  lines : List CopiedLine
  once : List String
  entered : List String

namespace Progress

def source (p : Progress) : Source :=
  Expansion.source ⟨p.lines, p.once⟩

end Progress

namespace Expansion

/--
One expansion and another after it, which starts with the keys that the first one leaves.
-/
def followed (first : Except TemplateError Expansion)
    (others : List String → Except TemplateError Expansion) : Except TemplateError Expansion := do
  let first ← first
  let others ← others first.once
  return ⟨first.lines ++ others.lines, others.once⟩

variable {first : Except TemplateError Expansion}
variable {others more : List String → Except TemplateError Expansion}

theorem followed_ok (e : Expansion) :
    followed (.ok e) others
      = (others e.once).map fun other => ⟨e.lines ++ other.lines, other.once⟩ := by
  show (others e.once >>= _) = _
  cases others e.once with
  | error _ => rfl
  | ok _ => rfl

theorem followed_nil (once : List String) : followed (.ok ⟨[], once⟩) others = others once := by
  rw [followed_ok]
  cases others once with
  | error _ => rfl
  | ok _ => rfl

theorem followed_pure : followed first (fun once => .ok ⟨[], once⟩) = first := by
  cases first with
  | error _ => rfl
  | ok e =>
    show Except.ok (Expansion.mk (e.lines ++ []) e.once) = _
    rw [List.append_nil]

theorem followed_assoc :
    followed (followed first others) more
      = followed first fun once => followed (others once) more := by
  cases first with
  | error _ => rfl
  | ok e =>
    rw [followed_ok, followed_ok]
    cases others e.once with
    | error _ => rfl
    | ok other =>
      show followed (.ok _) more = (followed (.ok other) more).map _
      rw [followed_ok, followed_ok]
      cases more other.once with
      | error _ => rfl
      | ok last =>
        show Except.ok (Expansion.mk (e.lines ++ other.lines ++ last.lines) last.once) = _
        rw [List.append_assoc]
        rfl

end Expansion

namespace Template

open Expansion (followed)
open OpenText (stack)

/--
The next line of the text is an include that the other text is found for.
-/
def Meets (t : Template) (text : OpenText) (inner : Found) : Prop :=
  ∃ number line included,
    text.rest.head? = some (number, line) ∧ Directive.parse? line = some (.includeFile included) ∧
      t.lookup (some text.found.key) included = .ok (some inner)

/--
One step of a load: it passes a line of the innermost text, enters a text that this line includes,
or leaves the innermost text at its end.
-/
inductive Step (t : Template) : Progress → Progress → Prop
  | copy {text : OpenText} {outer : List OpenText} {lines : List CopiedLine}
      {once entered : List String} {number : Nat} {line : String} :
    text.rest.head? = some (number, line) → Directive.parse? line = none →
      Step t ⟨text :: outer, lines, once, entered⟩
        ⟨text.pass :: outer, lines ++ [⟨line, ⟨text.found.key, number⟩⟩], once, entered⟩
  | pragmaOnce {text : OpenText} {outer : List OpenText} {lines : List CopiedLine}
      {once entered : List String} {number : Nat} {line : String} :
    text.rest.head? = some (number, line) → Directive.parse? line = some .pragmaOnce →
      Step t ⟨text :: outer, lines, once, entered⟩
        ⟨text.pass :: outer, lines, text.found.key :: once, entered⟩
  | skip {text : OpenText} {outer : List OpenText} {lines : List CopiedLine}
      {once entered : List String} {inner : Found} :
    t.Meets text inner → inner.key ∈ once →
      Step t ⟨text :: outer, lines, once, entered⟩ ⟨text.pass :: outer, lines, once, entered⟩
  | enter {text : OpenText} {outer : List OpenText} {lines : List CopiedLine}
      {once entered : List String} {inner : Found} :
    t.Meets text inner → inner.key ∉ once → inner.key ∉ stack (text :: outer) →
      (text :: outer).length < t.maxDepth →
        Step t ⟨text :: outer, lines, once, entered⟩
          ⟨.start inner :: text.pass :: outer, lines, once, entered ++ [inner.key]⟩
  | leave {text : OpenText} {outer : List OpenText} {lines : List CopiedLine}
      {once entered : List String} :
    text.rest = [] →
      Step t ⟨text :: outer, lines, once, entered⟩ ⟨outer, lines, once, entered⟩

/--
The load cannot pass the next line of the innermost text, and ends with the error.
-/
inductive Stops (t : Template) : Progress → TemplateError → Prop
  | unreadable {text : OpenText} {outer : List OpenText} {lines : List CopiedLine}
      {once entered : List String} {number : Nat} {line included : String} {e : TemplateError} :
    text.rest.head? = some (number, line) → Directive.parse? line = some (.includeFile included) →
      t.lookup (some text.found.key) included = .error e →
        Stops t ⟨text :: outer, lines, once, entered⟩ e
  | missing {text : OpenText} {outer : List OpenText} {lines : List CopiedLine}
      {once entered : List String} {number : Nat} {line included : String} :
    text.rest.head? = some (number, line) → Directive.parse? line = some (.includeFile included) →
      t.lookup (some text.found.key) included = .ok none →
        Stops t ⟨text :: outer, lines, once, entered⟩
          (.notFound included (some ⟨text.found.key, number⟩))
  | cycle {text : OpenText} {outer : List OpenText} {lines : List CopiedLine}
      {once entered : List String} {inner : Found} :
    t.Meets text inner → inner.key ∉ once → inner.key ∈ stack (text :: outer) →
      Stops t ⟨text :: outer, lines, once, entered⟩
        (.includeCycle (stack (text :: outer) ++ [inner.key]))
  | tooDeep {text : OpenText} {outer : List OpenText} {lines : List CopiedLine}
      {once entered : List String} {inner : Found} :
    t.Meets text inner → inner.key ∉ once → inner.key ∉ stack (text :: outer) →
      t.maxDepth ≤ (text :: outer).length →
        Stops t ⟨text :: outer, lines, once, entered⟩ (.tooDeep inner.key t.maxDepth)

/--
Loading the name comes to this point.
-/
inductive Reaches (t : Template) (name : String) : Progress → Prop
  | start {root : Found} :
    t.lookup none name = .ok (some root) → 0 < t.maxDepth →
      Reaches t name ⟨[.start root], [], [], [root.key]⟩
  | step {p p' : Progress} : Reaches t name p → t.Step p p' → Reaches t name p'

variable {t : Template} {name : String} {text : OpenText} {outer : List OpenText} {inner : Found}
variable {p p' : Progress} {e : TemplateError}

theorem Reaches.steps (h : t.Reaches name p) (hsteps : Relation.ReflTransGen t.Step p p') :
    t.Reaches name p' := by
  induction hsteps with
  | refl => exact h
  | tail _ hstep ih => exact ih.step hstep

theorem Meets.unique {inner' : Found} (h : t.Meets text inner) (h' : t.Meets text inner') :
    inner' = inner := by
  rcases h with ⟨number, line, included, hhead, hparse, hlookup⟩
  rcases h' with ⟨number', line', included', hhead', hparse', hlookup'⟩
  rw [hhead, Option.some.injEq, Prod.mk.injEq] at hhead'
  rcases hhead' with ⟨rfl, rfl⟩
  rw [hparse, Option.some.injEq, Directive.includeFile.injEq] at hparse'
  rw [hparse', hlookup', Except.ok.injEq, Option.some.injEq] at hlookup
  exact hlookup

/--
The expansion of what is entered inside the texts.
-/
def expandInside (t : Template) (texts : List OpenText) :
    Found → List String → Except TemplateError Expansion :=
  t.expand (t.maxDepth - texts.length) (stack texts)

/--
What is still to come of the open texts.
-/
def resume (t : Template) : List OpenText → List String → Except TemplateError Expansion
  | [], once => .ok ⟨[], once⟩
  | text :: outer, once =>
    followed (t.expandLines (t.expandInside (text :: outer)) text.found.key text.rest once)
      (t.resume outer)

/--
What a load comes to in the end.
-/
def finish (t : Template) (p : Progress) : Except TemplateError Expansion :=
  followed (.ok ⟨p.lines, p.once⟩) (t.resume p.texts)

/--
A text that can be entered is expanded line by line, one level deeper.
-/
theorem expandInside_eq (texts : List OpenText) {once : List String}
    (hstack : inner.key ∉ stack texts) (hdepth : texts.length < t.maxDepth) :
    t.expandInside texts inner once =
      t.expandLines (t.expandInside (.start inner :: texts)) inner.key
        (Text.numberedLines inner.text) once := by
  have hroom : t.maxDepth - texts.length = t.maxDepth - (texts.length + 1) + 1 := by omega
  unfold expandInside
  rw [hroom, OpenText.stack_cons, expand_eq, if_neg hstack]
  rfl

section Line

variable {lines lines' : List CopiedLine} {once entered entered' : List String} {number : Nat}
variable {line : String}

theorem resume_line (hhead : text.rest.head? = some (number, line)) :
    t.resume (text :: outer) once =
      followed (t.expandLine (t.expandInside (text :: outer)) text.found.key number line once)
        (t.resume (text.pass :: outer)) := by
  rcases text with ⟨found, passed, rest⟩
  cases rest with
  | nil => cases hhead
  | cons entry rest =>
    cases hhead
    show followed (t.expandLines _ _ _ _) _ = _
    rw [expandLines_cons]
    exact Expansion.followed_assoc

theorem finish_of_line_ok (first : Expansion) (hhead : text.rest.head? = some (number, line))
    (h : t.expandLine (t.expandInside (text :: outer)) text.found.key number line once = .ok first)
    (hlines : lines' = lines ++ first.lines) :
    t.finish ⟨text.pass :: outer, lines', first.once, entered'⟩ =
      t.finish ⟨text :: outer, lines, once, entered⟩ := by
  have hline : followed (.ok ⟨lines, once⟩) (fun once =>
      t.expandLine (t.expandInside (text :: outer)) text.found.key number line once) =
        .ok ⟨lines', first.once⟩ := by
    rw [Expansion.followed_ok, h, hlines]
    rfl
  unfold finish
  rw [← hline, Expansion.followed_assoc, Expansion.followed_ok, Expansion.followed_ok,
    resume_line hhead]

theorem finish_of_line_error (hhead : text.rest.head? = some (number, line))
    (h : t.expandLine (t.expandInside (text :: outer)) text.found.key number line once = .error e) :
    t.finish ⟨text :: outer, lines, once, entered⟩ = .error e := by
  unfold finish
  rw [Expansion.followed_ok, resume_line hhead, h]
  rfl

end Line

section Include

variable {lines : List CopiedLine} {once entered entered' : List String} {number : Nat}
variable {line included : String} {enter : Found → List String → Except TemplateError Expansion}

theorem expandLine_of_include (hparse : Directive.parse? line = some (.includeFile included))
    (hlookup : t.lookup (some text.found.key) included = .ok (some inner)) :
    t.expandLine enter text.found.key number line once =
      if inner.key ∈ once then .ok ⟨[], once⟩ else enter inner once := by
  rw [expandLine_eq, hparse]
  dsimp only
  rw [hlookup]
  rfl

theorem resume_enter (h : t.Meets text inner) (honce : inner.key ∉ once)
    (hstack : inner.key ∉ stack (text :: outer)) (hdepth : (text :: outer).length < t.maxDepth) :
    t.resume (.start inner :: text.pass :: outer) once = t.resume (text :: outer) once := by
  rcases h with ⟨number, line, included, hhead, hparse, hlookup⟩
  rw [resume_line hhead, expandLine_of_include hparse hlookup, if_neg honce,
    expandInside_eq _ hstack hdepth]
  rfl

theorem finish_of_meets_error (h : t.Meets text inner) (honce : inner.key ∉ once)
    (he : t.expandInside (text :: outer) inner once = .error e) :
    t.finish ⟨text :: outer, lines, once, entered⟩ = .error e := by
  rcases h with ⟨number, line, included, hhead, hparse, hlookup⟩
  apply finish_of_line_error hhead
  rw [expandLine_of_include hparse hlookup, if_neg honce]
  exact he

theorem resume_leave (hrest : text.rest = []) :
    t.resume (text :: outer) once = t.resume outer once := by
  rcases text with ⟨found, passed, rest⟩
  subst hrest
  exact Expansion.followed_nil once

end Include

/--
A step does not change what the load comes to.
-/
theorem finish_of_step (h : t.Step p p') : t.finish p' = t.finish p := by
  cases h with
  | copy hhead hparse =>
    apply finish_of_line_ok ⟨[_], _⟩ hhead _ rfl
    rw [expandLine_eq, hparse]
  | pragmaOnce hhead hparse =>
    apply finish_of_line_ok ⟨[], _⟩ hhead _ (List.append_nil _).symm
    rw [expandLine_eq, hparse]
  | skip hmeets honce =>
    rcases hmeets with ⟨number, line, included, hhead, hparse, hlookup⟩
    apply finish_of_line_ok ⟨[], _⟩ hhead _ (List.append_nil _).symm
    rw [expandLine_of_include hparse hlookup, if_pos honce]
  | enter hmeets honce hstack hdepth =>
    unfold finish
    rw [Expansion.followed_ok, Expansion.followed_ok, resume_enter hmeets honce hstack hdepth]
  | leave hrest =>
    unfold finish
    rw [Expansion.followed_ok, Expansion.followed_ok, resume_leave hrest]

theorem finish_of_stops (h : t.Stops p e) : t.finish p = .error e := by
  cases h with
  | unreadable hhead hparse hlookup =>
    apply finish_of_line_error hhead
    rw [expandLine_eq, hparse]
    dsimp only
    rw [hlookup]
    rfl
  | missing hhead hparse hlookup =>
    apply finish_of_line_error hhead
    rw [expandLine_eq, hparse]
    dsimp only
    rw [hlookup]
    rfl
  | cycle hmeets honce hstack =>
    apply finish_of_meets_error hmeets honce
    unfold expandInside
    rw [expand_eq, if_pos hstack]
  | tooDeep hmeets honce hstack hdepth =>
    apply finish_of_meets_error hmeets honce
    unfold expandInside
    rw [expand_eq, if_neg hstack, Nat.sub_eq_zero_of_le hdepth]

theorem finish_of_texts_eq_nil (h : p.texts = []) : t.finish p = .ok ⟨p.lines, p.once⟩ := by
  unfold finish
  rw [h]
  exact Expansion.followed_pure

/--
Whatever point a load comes to, what is still to come after it determines the result.
-/
theorem Reaches.load_eq (h : t.Reaches name p) :
    t.load name = (t.finish p).map Expansion.source := by
  induction h with
  | @start root hlookup hdepth =>
    have hfinish : t.finish ⟨[.start root], [], [], [root.key]⟩ = t.expandInside [] root [] := by
      rw [expandInside_eq [] List.not_mem_nil hdepth]
      unfold finish
      rw [Expansion.followed_nil]
      exact Expansion.followed_pure
    rw [load_eq_map hlookup, hfinish]
    rfl
  | step _ hstep ih => rw [ih, finish_of_step hstep]

/--
A load goes on at every line, or it stops there.
-/
theorem step_or_stops {lines : List CopiedLine} {once entered : List String} {number : Nat}
    {line : String} (hhead : text.rest.head? = some (number, line)) :
    (∃ p', t.Step ⟨text :: outer, lines, once, entered⟩ p' ∧ p'.texts = text.pass :: outer) ∨
      (∃ p' inner, t.Step ⟨text :: outer, lines, once, entered⟩ p' ∧
        p'.texts = .start inner :: text.pass :: outer ∧ (text :: outer).length < t.maxDepth) ∨
      ∃ e, t.Stops ⟨text :: outer, lines, once, entered⟩ e := by
  cases hparse : Directive.parse? line with
  | none => exact .inl ⟨_, .copy hhead hparse, rfl⟩
  | some directive =>
    cases directive with
    | pragmaOnce => exact .inl ⟨_, .pragmaOnce hhead hparse, rfl⟩
    | includeFile included =>
      cases hlookup : t.lookup (some text.found.key) included with
      | error e => exact .inr (.inr ⟨e, .unreadable hhead hparse hlookup⟩)
      | ok inner? =>
        cases inner? with
        | none => exact .inr (.inr ⟨_, .missing hhead hparse hlookup⟩)
        | some inner =>
          have hmeets : t.Meets text inner := ⟨number, line, included, hhead, hparse, hlookup⟩
          by_cases honce : inner.key ∈ once
          . exact .inl ⟨_, .skip hmeets honce, rfl⟩
          . by_cases hstack : inner.key ∈ stack (text :: outer)
            . exact .inr (.inr ⟨_, .cycle hmeets honce hstack⟩)
            . by_cases hdepth : (text :: outer).length < t.maxDepth
              . exact .inr (.inl ⟨_, inner, .enter hmeets honce hstack hdepth, rfl, hdepth⟩)
              . exact .inr (.inr ⟨_, .tooDeep hmeets honce hstack (Nat.le_of_not_lt hdepth)⟩)

/--
From the point on, the load goes on until only these texts are open, or it stops.
-/
def Settled (t : Template) (p : Progress) (texts : List OpenText) : Prop :=
  ∃ p', Relation.ReflTransGen t.Step p p' ∧ (p'.texts = texts ∨ ∃ e, t.Stops p' e)

theorem Settled.head {texts : List OpenText} (hstep : t.Step p p') (h : t.Settled p' texts) :
    t.Settled p texts := by
  rcases h with ⟨last, hsteps, hlast⟩
  exact ⟨last, .head hstep hsteps, hlast⟩

/--
A text comes to its end if all that it includes does.
-/
theorem settled_of_inner {ls : List (Nat × String)}
    (hinner : ∀ (texts : List OpenText) {inner : Found} {p : Progress},
      texts.length = outer.length + 1 → texts.length < t.maxDepth →
        p.texts = .start inner :: texts → t.Settled p texts)
    (hls : text.rest = ls) (hp : p.texts = text :: outer) : t.Settled p outer := by
  induction ls generalizing text p with
  | nil =>
    rcases p with ⟨_, lines, once, entered⟩
    cases hp
    exact ⟨_, .single (.leave hls), .inl rfl⟩
  | cons entry rest ih =>
    rcases p with ⟨_, lines, once, entered⟩
    cases hp
    have hhead : text.rest.head? = some entry := by rw [hls, List.head?_cons]
    have hpass : text.pass.rest = rest := by
      unfold OpenText.pass
      rw [hls, List.drop_one, List.tail_cons]
    rcases step_or_stops hhead with
      ⟨p', hstep, htexts⟩ | ⟨p', inner, hstep, htexts, hdepth⟩ | ⟨e, hstops⟩
    . exact (ih hpass htexts).head hstep
    . rcases hinner (text.pass :: outer) rfl hdepth htexts with ⟨p'', hsteps, htexts' | hstops⟩
      . rcases ih hpass htexts' with ⟨last, hrest, hlast⟩
        exact ⟨last, .head hstep (hsteps.trans hrest), hlast⟩
      . exact ⟨p'', .head hstep hsteps, .inr hstops⟩
    . exact ⟨_, .refl, .inr ⟨e, hstops⟩⟩

theorem settled (hp : p.texts = text :: outer) : t.Settled p outer := by
  -- every text that is entered leaves fewer levels for what it includes
  induction hroom : t.maxDepth - outer.length using Nat.strongRecOn
    generalizing text outer p with
  | ind room ih =>
    apply settled_of_inner _ rfl hp
    intro texts inner p hlength hdepth htexts
    exact ih _ (by omega) htexts rfl

/--
A load that finds its root comes to an end: it succeeds if no text is open there, and if it stops at
a line, it fails with the error of this line.
-/
theorem exists_end_of_lookup {root : Found} (hlookup : t.lookup none name = .ok (some root))
    (hdepth : 0 < t.maxDepth) :
    ∃ p, t.Reaches name p ∧
      (p.texts = [] ∧ t.load name = .ok p.source ∨
        ∃ e, t.Stops p e ∧ t.load name = .error e) := by
  have hsettled : t.Settled ⟨[.start root], [], [], [root.key]⟩ [] := settled rfl
  rcases hsettled with ⟨p, hsteps, hend⟩
  have hreaches := (Reaches.start hlookup hdepth).steps hsteps
  refine ⟨p, hreaches, ?_⟩
  rw [hreaches.load_eq]
  rcases hend with htexts | ⟨e, hstops⟩
  . rw [finish_of_texts_eq_nil htexts]
    exact .inl ⟨htexts, rfl⟩
  . rw [finish_of_stops hstops]
    exact .inr ⟨e, hstops, rfl⟩

theorem load_eq_ok_iff {source : Source} :
    t.load name = .ok source ↔ ∃ p, t.Reaches name p ∧ p.texts = [] ∧ p.source = source := by
  constructor
  . intro h
    rcases load_eq_ok h with ⟨root, _, hlookup, hexpand, _⟩
    rcases expand_eq_ok hexpand with ⟨_, _, hroom, _⟩
    rcases exists_end_of_lookup hlookup (by omega) with
      ⟨p, hreaches, ⟨htexts, hload⟩ | ⟨_, _, hload⟩⟩
    . rw [h, Except.ok.injEq] at hload
      exact ⟨p, hreaches, htexts, hload.symm⟩
    . rw [h] at hload
      cases hload
  . rintro ⟨p, hreaches, htexts, rfl⟩
    rw [hreaches.load_eq, finish_of_texts_eq_nil htexts]
    rfl

end Template
end ShaderBuild
