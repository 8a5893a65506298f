import Mathlib.Data.List.Forall2
import ShaderBuild.Proofs.Include.Memory
import ShaderBuild.Proofs.Template.Lookup
import ShaderBuild.Proofs.Text.LineEnds
import ShaderBuild.Template.Expansion

/-!
This module contains the independence of an expansion from the way in which the line ends of the
texts are written. What a text expands to depends on its key and its lines only, so it is enough that
every name is found as a text with the same lines.
-/

namespace ShaderBuild

open Text (HasNoPairs)

/--
Two answers of a source are the same, but for the way in which line ends are written.
-/
inductive ReadRespelled :
    Except ReadError (Option String) → Except ReadError (Option String) → Prop
  | failed (cause : ReadError) : ReadRespelled (.error cause) (.error cause)
  | answered {text? text?' : Option String} :
    Option.Rel Text.Respelled text? text?' → ReadRespelled (.ok text?) (.ok text?')

namespace MemoryFiles

variable {files files' : List (String × String)}

theorem respelled_foldl {m m' : MemoryFiles}
    (hm : ∀ path, Option.Rel Text.Respelled (m.files.get? path) (m'.files.get? path))
    (h : List.Forall₂ (fun file file' => file'.1 = file.1 ∧ Text.Respelled file.2 file'.2)
      files files') (path : String) :
    Option.Rel Text.Respelled
      ((files.foldl (fun m (path, text) => m.insert path text) m).files.get? path)
      ((files'.foldl (fun m (path, text) => m.insert path text) m').files.get? path) := by
  induction h generalizing m m' with
  | nil => exact hm path
  | @cons file file' _ _ hfile _ ih =>
    rw [List.foldl_cons, List.foldl_cons]
    apply ih
    intro path
    unfold insert
    dsimp only
    rw [Table.get?_insert, Table.get?_insert, hfile.1]
    split
    . exact .some hfile.2
    . exact hm path

/--
Files in memory whose texts are respelled give respelled answers.
-/
theorem source_respelled
    (h : List.Forall₂ (fun file file' => file'.1 = file.1 ∧ Text.Respelled file.2 file'.2)
      files files') (path : String) :
    ReadRespelled ((ofList files).source.read path) ((ofList files').source.read path) := by
  apply ReadRespelled.answered
  exact respelled_foldl (fun _ => .none) h path

end MemoryFiles

namespace Template

variable {t t' : Template} {key : String}

/--
The second template has the texts of the first one, with the line ends written in other ways. Each
text that a provider generates for a name or a source holds under a path can have its own.
-/
structure Respelled (t t' : Template) : Prop where
  providers : List.Forall₂
    (fun provider provider' => ∀ name, Option.Rel Text.Respelled (provider name) (provider' name))
    t.providers t'.providers
  sources : List.Forall₂
    (fun source source' => ∀ path, ReadRespelled (source.read path) (source'.read path))
    t.sources t'.sources
  maxDepth : t'.maxDepth = t.maxDepth

/--
Two lookups find related texts under the same key, or end in the same way.
-/
inductive FoundRelated (R : String → String → Prop) :
    Except TemplateError (Option Found) → Except TemplateError (Option Found) → Prop
  | failed (e : TemplateError) : FoundRelated R (.error e) (.error e)
  | missing : FoundRelated R (.ok none) (.ok none)
  | found {key text text' : String} :
    R text text' → FoundRelated R (.ok (some ⟨key, text⟩)) (.ok (some ⟨key, text'⟩))

theorem Respelled.provide? (h : t.Respelled t') (name : String) :
    Option.Rel Text.Respelled (t.provide? name) (t'.provide? name) := by
  rcases h with ⟨hproviders, _, _⟩
  unfold Template.provide?
  generalize t.providers = providers, t'.providers = providers' at hproviders
  induction hproviders with
  | nil => exact .none
  | @cons provider provider' _ _ hprovider _ ih =>
    rw [List.findSome?_cons, List.findSome?_cons]
    have hanswer := hprovider name
    generalize provider name = answer, provider' name = answer' at hanswer ⊢
    cases hanswer with
    | none => exact ih
    | some htext => exact .some htext

theorem Respelled.readFirst (h : t.Respelled t') (path : String) :
    FoundRelated Text.Respelled (readFirst path t.sources) (readFirst path t'.sources) := by
  rcases h with ⟨_, hsources, _⟩
  generalize t.sources = sources, t'.sources = sources' at hsources
  induction hsources with
  | nil => exact .missing
  | @cons source source' _ _ hsource _ ih =>
    rw [readFirst_cons, readFirst_cons]
    have hread := hsource path
    generalize source.read path = answer, source'.read path = answer' at hread ⊢
    cases hread with
    | failed cause => exact .failed _
    | answered hanswer =>
      cases hanswer with
      | none => exact ih
      | some htext => exact .found htext

theorem Respelled.lookup (h : t.Respelled t') (includer : Option String) (name : String) :
    FoundRelated Text.Respelled (t.lookup includer name) (t'.lookup includer name) := by
  rw [lookup_eq, lookup_eq]
  have hprovide := h.provide? name
  generalize t.provide? name = answer, t'.provide? name = answer' at hprovide ⊢
  cases hprovide with
  | some htext => exact .found htext
  | none =>
    dsimp only
    split
    . exact .missing
    . apply h.readFirst

/--
Every name is found as a text with the same lines under the same key.
-/
def FindsSameLines (t t' : Template) : Prop :=
  ∀ includer name, FoundRelated (fun text text' => Text.lines text' = Text.lines text)
    (t.lookup includer name) (t'.lookup includer name)

theorem Respelled.findsSameLines (h : t.Respelled t')
    (hpairs : ∀ text, t.HasText text → HasNoPairs text.toList) : t.FindsSameLines t' := by
  intro includer name
  have hlookup := h.lookup includer name
  have hfound : ∀ found, t.lookup includer name = .ok (some found) → HasNoPairs found.text.toList :=
    fun found hlookup => hpairs _ (hasText_of_lookup hlookup)
  generalize t.lookup includer name = result, t'.lookup includer name = result' at hlookup hfound ⊢
  cases hlookup with
  | failed e => exact .failed e
  | missing => exact .missing
  | found htext => exact .found (htext.lines_eq (hfound _ rfl))

variable {enter enter' : Found → List String → Except TemplateError Expansion}

theorem expandLine_eq_of_sameLines (h : t.FindsSameLines t')
    (henter : ∀ key text text', Text.lines text' = Text.lines text →
      enter' ⟨key, text'⟩ = enter ⟨key, text⟩) (number : Nat) (line : String)
    (once : List String) :
    t'.expandLine enter' key number line once = t.expandLine enter key number line once := by
  rw [expandLine_eq, expandLine_eq]
  split
  . rfl
  . rfl
  . next name _ =>
    have hlookup := h (some key) name
    generalize t.lookup (some key) name = result, t'.lookup (some key) name = result' at hlookup ⊢
    cases hlookup with
    | failed e => rfl
    | missing => rfl
    | found hlines =>
      show (if _ then _ else enter' _ _) = (if _ then _ else enter _ _)
      rw [henter _ _ _ hlines]

theorem expandLines_eq_of_sameLines (h : t.FindsSameLines t')
    (henter : ∀ key text text', Text.lines text' = Text.lines text →
      enter' ⟨key, text'⟩ = enter ⟨key, text⟩) (ls : List (Nat × String)) (once : List String) :
    t'.expandLines enter' key ls once = t.expandLines enter key ls once := by
  induction ls generalizing once with
  | nil => rfl
  | cons entry rest ih =>
    rw [expandLines_cons, expandLines_cons, expandLine_eq_of_sameLines h henter]
    simp only [ih]

theorem expand_eq_of_sameLines (h : t.FindsSameLines t') (hdepth : t'.maxDepth = t.maxDepth)
    {text text' : String} (hlines : Text.lines text' = Text.lines text) (room : Nat)
    (stack : List String) :
    t'.expand room stack ⟨key, text'⟩ = t.expand room stack ⟨key, text⟩ := by
  induction room generalizing stack key text text' with
  | zero =>
    funext once
    rw [expand_eq, expand_eq]
    dsimp only
    rw [hdepth]
  | succ room ih =>
    funext once
    have hnumbered : Text.numberedLines text' = Text.numberedLines text := by
      unfold Text.numberedLines
      rw [hlines]
    rw [expand_eq, expand_eq]
    dsimp only
    rw [hnumbered, expandLines_eq_of_sameLines h]
    intro inner _ _ hinner
    exact ih hinner _

theorem load_eq_of_sameLines (h : t.FindsSameLines t') (hdepth : t'.maxDepth = t.maxDepth)
    (name : String) : t'.load name = t.load name := by
  rw [load_eq, load_eq]
  have hlookup := h none name
  generalize t.lookup none name = result, t'.lookup none name = result' at hlookup ⊢
  cases hlookup with
  | failed e => rfl
  | missing => rfl
  | found hlines =>
    show (t'.expand _ _ _ _ >>= _) = (t.expand _ _ _ _ >>= _)
    rw [expand_eq_of_sameLines h hdepth hlines, hdepth]

/--
Line ends do not matter. If no text of a template has a carriage return directly in front of a line
feed, then the line ends of its texts can be written in other ways, in each text on its own, and
every name loads as the same source, or with the same error.
-/
theorem load_respelled (h : t.Respelled t')
    (hpairs : ∀ text, t.HasText text → HasNoPairs text.toList) (name : String) :
    t'.load name = t.load name :=
  load_eq_of_sameLines (h.findsSameLines hpairs) h.maxDepth name

/--
A file with a line that starts with a carriage return, an empty line and a last line without an end,
one that is included by it, one whose include is not found, and a generated text. The line ends of
each are written in another way.
-/
theorem load_respelled_mixed :
    let files :=
      [("main.glsl", "#include <config>\n\rx\n\n#include \"lib.glsl\""),
        ("lib.glsl", "#pragma once\ny"), ("broken.glsl", "\n#include \"none.glsl\"")]
    let files' :=
      [("main.glsl", "#include <config>\r\n\rx\r\n\r\n#include \"lib.glsl\""),
        ("lib.glsl", "#pragma once\ny\n"), ("broken.glsl", "\r\n#include \"none.glsl\"\r\n")]
    let t := (empty.addSnippet "config" "a\nb").addSource (MemoryFiles.ofList files).source
    let t' := (empty.addSnippet "config" "a\r\nb\n").addSource (MemoryFiles.ofList files').source
    t.Respelled t' ∧ (∀ text, t.HasText text → HasNoPairs text.toList) ∧
      t'.load "main.glsl" = t.load "main.glsl" ∧
        (t.load "main.glsl").toOption =
          some ⟨"a\nb\n\rx\n\ny\n", [⟨"config", 1⟩, ⟨"config", 2⟩, ⟨"main.glsl", 2⟩,
            ⟨"main.glsl", 3⟩, ⟨"lib.glsl", 2⟩]⟩ ∧
        t'.load "broken.glsl" = t.load "broken.glsl" ∧
          t.load "broken.glsl" = .error (.notFound "none.glsl" (some ⟨"broken.glsl", 2⟩)) := by
  intro files files' t t'
  have hsnippet : Text.Respelled "a\nb" "a\r\nb\n" := .returnsEnded (by decide +kernel)
  have hrespelled : t.Respelled t' := by
    refine ⟨.cons ?_ .nil, .cons (MemoryFiles.source_respelled ?_) .nil, rfl⟩
    . intro name
      unfold Provider.snippet
      split
      . exact .some hsnippet
      . exact .none
    . exact .cons ⟨rfl, .returns (by decide +kernel)⟩ (.cons ⟨rfl, .ended (by decide +kernel)⟩
        (.cons ⟨rfl, .endedReturns (by decide +kernel)⟩ .nil))
  have hfiles : ∀ entry ∈ (MemoryFiles.ofList files).files.entries,
      HasNoPairs entry.2.toList := by
    simp only [files]
    decide +kernel
  have hpairs : ∀ text, t.HasText text → HasNoPairs text.toList := by
    intro text htext
    cases htext with
    | generated hprovider hanswer =>
      cases List.mem_singleton.mp hprovider
      unfold Provider.snippet at hanswer
      split at hanswer
      . cases hanswer
        decide +kernel
      . cases hanswer
    | held hsource hread => exact hfiles _ (MemoryFiles.mem_entries_of_read hsource hread)
  refine ⟨hrespelled, hpairs, load_respelled hrespelled hpairs _, ?_,
    load_respelled hrespelled hpairs _, ?_⟩
  . simp only [t, files]
    decide +kernel
  . simp only [t, files]
    decide +kernel

end Template
end ShaderBuild
