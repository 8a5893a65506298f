import ShaderBuild.Proofs.Text.Blank
import ShaderBuild.Proofs.Text.Pieces
import ShaderBuild.Template.Directive

/-!
This module contains the grammar of directives: an opening that says what the directive asks for,
and the end of the line. The lines that are recognized are those of the grammar, each as what it
asks for.
-/

namespace ShaderBuild
namespace Directive

open Text (isBlank isAllBlank)

/--
A name between quotes or between angle brackets, without the mark that ends it.
-/
inductive Marked (name : String) : String → Prop
  | quotes : name ≠ "" → '\x22' ∉ name.toList → Marked name ("\"" ++ name ++ "\"")
  | brackets : name ≠ "" → '>' ∉ name.toList → Marked name ("<" ++ name ++ ">")

/--
What an include directive for the name starts with.
-/
inductive IncludeOpening (name : String) : String → Prop
  | intro {w₀ w₁ w₂ marked : String} :
    isAllBlank w₀ → isAllBlank w₁ → isAllBlank w₂ → w₂ ≠ "" → Marked name marked →
      IncludeOpening name (w₀ ++ "#" ++ w₁ ++ "include" ++ w₂ ++ marked)

/--
What the directive starts with that has its file expanded at most once.
-/
inductive PragmaOnceOpening : String → Prop
  | intro {w₀ w₁ w₂ : String} :
    isAllBlank w₀ → isAllBlank w₁ → isAllBlank w₂ → w₂ ≠ "" →
      PragmaOnceOpening (w₀ ++ "#" ++ w₁ ++ "pragma" ++ w₂ ++ "once")

/--
White space that may be empty, and perhaps a comment after it.
-/
inductive LineEnd : String → Prop
  | blank {w₃ : String} : isAllBlank w₃ → LineEnd w₃
  | comment {w₃ text : String} : isAllBlank w₃ → LineEnd (w₃ ++ "//" ++ text)

/--
The line is an opening that is followed by nothing but the end of a line.
-/
def IsLine (Opening : String → Prop) (line : String) : Prop :=
  ∃ opening ending, Opening opening ∧ LineEnd ending ∧ line = opening ++ ending

variable {cs rest : List Char} {line name : String}

theorem afterHash?_eq_some_iff {e : Char} (he : isBlank e = false) :
    afterHash? cs = some (e :: rest)
      ↔
    ∃ w₀ w₁, isAllBlank w₀ ∧ isAllBlank w₁ ∧
      cs = w₀.toList ++ '#' :: (w₁.toList ++ e :: rest) := by
  have hhash : isBlank '#' = false := by decide
  unfold afterHash?
  simp only [Option.map_eq_some_iff, Text.after?_eq_some_iff, List.singleton_append,
    Text.trimStart_eq_iff he, Text.trimStart_eq_iff hhash]
  constructor
  . rintro ⟨_, ⟨w₀, rfl, hw₀⟩, w₁, rfl, hw₁⟩
    refine ⟨_, _, Text.isAllBlank_ofList hw₀, Text.isAllBlank_ofList hw₁, ?_⟩
    simp only [String.toList_ofList]
  . rintro ⟨w₀, w₁, hw₀, hw₁, rfl⟩
    exact ⟨_, ⟨_, rfl, Text.isBlank_of_isAllBlank hw₀⟩, _, rfl, Text.isBlank_of_isAllBlank hw₁⟩

theorem afterWord?_eq_some_iff {word : String} {e : Char} (he : isBlank e = false) :
    afterWord? word cs = some (e :: rest)
      ↔
    ∃ w, isAllBlank w ∧ w ≠ "" ∧ cs = word.toList ++ (w.toList ++ e :: rest) := by
  unfold afterWord?
  constructor
  . intro h
    split at h
    . next c after hafter =>
      rw [Text.after?_eq_some_iff] at hafter
      rw [Option.ite_none_right_eq_some, Option.some.injEq, Text.trimStart_eq_iff he] at h
      rcases h with ⟨hc, blank, rfl, hblank⟩
      refine ⟨String.ofList (c :: blank), Text.isAllBlank_ofList ?_, ?_, ?_⟩
      . rw [List.forall_mem_cons]
        exact ⟨hc, hblank⟩
      . rw [ne_eq, ← String.toList_eq_nil_iff, String.toList_ofList]
        exact List.cons_ne_nil _ _
      . rw [hafter, String.toList_ofList, List.cons_append]
    . cases h
  . rintro ⟨w, hw, hne, rfl⟩
    have hblank := Text.isBlank_of_isAllBlank hw
    rw [Text.after?_eq_some_iff.mpr rfl]
    rw [ne_eq, ← String.toList_eq_nil_iff] at hne
    cases hcs : w.toList with
    | nil => exact absurd hcs hne
    | cons c blank =>
      rw [hcs, List.forall_mem_cons] at hblank
      rw [List.cons_append]
      dsimp only
      rw [if_pos hblank.1, Option.some.injEq, Text.trimStart_eq_iff he]
      exact ⟨blank, rfl, hblank.2⟩

theorem isLineEnd_iff {ending : String} : isLineEnd ending.toList = true ↔ LineEnd ending := by
  have hslash : isBlank '/' = false := by decide
  constructor
  . intro h
    unfold isLineEnd at h
    split at h
    . next hnil =>
      rw [Text.trimStart_eq_nil_iff] at hnil
      rw [← String.ofList_toList (s := ending)]
      exact .blank (Text.isAllBlank_ofList hnil)
    . next text hcomment =>
      rw [Text.trimStart_eq_iff hslash] at hcomment
      rcases hcomment with ⟨blank, hending, hblank⟩
      have heq : ending = String.ofList blank ++ "//" ++ String.ofList text := by
        rw [← String.toList_inj, hending]
        simp
      rw [heq]
      exact .comment (Text.isAllBlank_ofList hblank)
    . cases h
  . intro h
    unfold isLineEnd
    cases h with
    | blank hblank =>
      rw [Text.trimStart_eq_nil_iff.mpr (Text.isBlank_of_isAllBlank hblank)]
    | @comment w₃ text hblank =>
      have hcomment : Text.trimStart (w₃ ++ "//" ++ text).toList = '/' :: '/' :: text.toList := by
        rw [Text.trimStart_eq_iff hslash]
        refine ⟨w₃.toList, ?_, Text.isBlank_of_isAllBlank hblank⟩
        simp
      rw [hcomment]
      rfl

/--
The first occurrence of a mark parts a text into what is before it and what is after it.
-/
theorem parts_eq_iff {close c : Char} {before : List Char} :
    (cs.takeWhile (· ≠ close) = before ∧ cs.dropWhile (· ≠ close) = c :: rest)
      ↔
    c = close ∧ close ∉ before ∧ cs = before ++ close :: rest := by
  constructor
  . rintro ⟨rfl, hrest⟩
    have hc : c = close := by
      have hhead := List.head?_dropWhile_not (· ≠ close) cs
      rw [hrest] at hhead
      simpa using hhead
    subst hc
    refine ⟨rfl, ?_, ?_⟩
    . intro hmem
      simpa using List.mem_takeWhile_imp hmem
    . rw [← hrest, List.takeWhile_append_dropWhile]
  . rintro ⟨rfl, hclose, rfl⟩
    have hbefore : ∀ x ∈ before, decide (x ≠ c) = true := by
      intro x hx
      exact decide_eq_true (ne_of_mem_of_not_mem hx hclose)
    rw [List.takeWhile_append_of_pos hbefore, List.dropWhile_append_of_pos hbefore,
      List.takeWhile_cons_of_neg, List.dropWhile_cons_of_neg, List.append_nil]
    . exact ⟨rfl, rfl⟩
    . simp
    . simp

theorem nameUntil?_eq_some_iff {close : Char} :
    nameUntil? close cs = some name
      ↔
    name ≠ "" ∧ close ∉ name.toList ∧
      ∃ ending, LineEnd ending ∧ cs = name.toList ++ close :: ending.toList := by
  rw [ne_eq, ← String.toList_eq_nil_iff]
  unfold nameUntil?
  constructor
  . intro h
    split at h
    . next c before mark rest hbefore hrest =>
      rcases parts_eq_iff.mp ⟨hbefore, hrest⟩ with ⟨rfl, hmark, hcs⟩
      rw [Option.ite_none_right_eq_some, Option.some.injEq] at h
      rcases h with ⟨hend, rfl⟩
      rw [String.toList_ofList]
      refine ⟨List.cons_ne_nil _ _, hmark, String.ofList rest, ?_, ?_⟩
      . rw [← isLineEnd_iff, String.toList_ofList]
        exact hend
      . rw [String.toList_ofList]
        exact hcs
    . cases h
  . rintro ⟨hne, hclose, ending, hend, hcs⟩
    rcases parts_eq_iff.mpr ⟨rfl, hclose, hcs⟩ with ⟨hbefore, hrest⟩
    rw [hbefore, hrest]
    rw [← isLineEnd_iff] at hend
    cases hname : name.toList with
    | nil => exact absurd hname hne
    | cons c before =>
      dsimp only
      rw [if_pos hend, ← hname, String.ofList_toList]

/--
White space, `#` and a word with white space after it, in front of something else.
-/
theorem afterHash?_bind_eq_some_iff {word : String} {f e : Char} (hf : isBlank f = false)
    (he : isBlank e = false) (hword : word.toList.head? = some f) :
    (afterHash? cs).bind (afterWord? word) = some (e :: rest)
      ↔
    ∃ w₀ w₁ w₂, isAllBlank w₀ ∧ isAllBlank w₁ ∧ isAllBlank w₂ ∧ w₂ ≠ "" ∧
      cs = (w₀ ++ "#" ++ w₁ ++ word ++ w₂).toList ++ e :: rest := by
  rw [List.head?_eq_some_iff] at hword
  rcases hword with ⟨letters, hword⟩
  simp only [Option.bind_eq_some_iff, afterWord?_eq_some_iff he, hword]
  constructor
  . rintro ⟨_, hhash, w₂, hw₂, hne, rfl⟩
    rw [List.cons_append, afterHash?_eq_some_iff hf] at hhash
    rcases hhash with ⟨w₀, w₁, hw₀, hw₁, rfl⟩
    refine ⟨w₀, w₁, w₂, hw₀, hw₁, hw₂, hne, ?_⟩
    simp [hword]
  . rintro ⟨w₀, w₁, w₂, hw₀, hw₁, hw₂, hne, rfl⟩
    refine ⟨_, ?_, w₂, hw₂, hne, rfl⟩
    rw [List.cons_append, afterHash?_eq_some_iff hf]
    refine ⟨w₀, w₁, hw₀, hw₁, ?_⟩
    simp [hword]

theorem includeTarget?_eq_some_iff_or :
    includeTarget? cs = some name
      ↔
    (∃ rest, (afterHash? cs).bind (afterWord? "include") = some ('\x22' :: rest) ∧
        nameUntil? '\x22' rest = some name) ∨
      ∃ rest, (afterHash? cs).bind (afterWord? "include") = some ('<' :: rest) ∧
        nameUntil? '>' rest = some name := by
  unfold includeTarget?
  simp only [Option.bind_eq_bind, Option.bind_eq_some_iff]
  constructor
  . rintro ⟨after, hhash, afterWord, hword, hname⟩
    split at hname
    . exact .inl ⟨_, ⟨after, hhash, hword⟩, hname⟩
    . exact .inr ⟨_, ⟨after, hhash, hword⟩, hname⟩
    . cases hname
  . rintro (⟨rest, ⟨after, hhash, hword⟩, hname⟩ | ⟨rest, ⟨after, hhash, hword⟩, hname⟩)
    . exact ⟨after, hhash, _, hword, hname⟩
    . exact ⟨after, hhash, _, hword, hname⟩

theorem isPragmaOnce_eq_true_iff :
    isPragmaOnce cs = true
      ↔
    ∃ rest, (afterHash? cs).bind (afterWord? "pragma") = some ('o' :: 'n' :: 'c' :: 'e' :: rest) ∧
      isLineEnd rest = true := by
  unfold isPragmaOnce
  constructor
  . intro h
    split at h
    . cases h
    . next hhash =>
      split at h
      . cases h
      . next hword =>
        split at h
        . cases h
        . next rest honce =>
          rw [Text.after?_eq_some_iff] at honce
          refine ⟨rest, ?_, h⟩
          rw [hhash, Option.bind_some, hword, honce]
          rfl
  . rintro ⟨rest, hafter, hend⟩
    rw [Option.bind_eq_some_iff] at hafter
    rcases hafter with ⟨_, hhash, hword⟩
    rw [hhash]
    dsimp only
    rw [hword]
    exact hend

theorem includeTarget?_eq_some_iff :
    includeTarget? line.toList = some name ↔ IsLine (IncludeOpening name) line := by
  have hi : isBlank 'i' = false := by decide
  have hinclude : "include".toList.head? = some 'i' := by decide
  have hquote : isBlank '\x22' = false := by decide
  have hangle : isBlank '<' = false := by decide
  rw [includeTarget?_eq_some_iff_or]
  simp only [afterHash?_bind_eq_some_iff hi hquote hinclude,
    afterHash?_bind_eq_some_iff hi hangle hinclude, nameUntil?_eq_some_iff]
  constructor
  . rintro (⟨_, ⟨w₀, w₁, w₂, hw₀, hw₁, hw₂, hne, hline⟩, hname, hmark, ending, hend, rfl⟩ |
      ⟨_, ⟨w₀, w₁, w₂, hw₀, hw₁, hw₂, hne, hline⟩, hname, hmark, ending, hend, rfl⟩)
    . refine ⟨_, ending, .intro hw₀ hw₁ hw₂ hne (.quotes hname hmark), hend, ?_⟩
      rw [← String.toList_inj, hline]
      simp
    . refine ⟨_, ending, .intro hw₀ hw₁ hw₂ hne (.brackets hname hmark), hend, ?_⟩
      rw [← String.toList_inj, hline]
      simp
  . rintro ⟨_, ending, ⟨hw₀, hw₁, hw₂, hne, hmarked⟩, hend, rfl⟩
    cases hmarked with
    | quotes hname hmark =>
      refine .inl ⟨_, ⟨_, _, _, hw₀, hw₁, hw₂, hne, ?_⟩, hname, hmark, ending, hend, rfl⟩
      simp
    | brackets hname hmark =>
      refine .inr ⟨_, ⟨_, _, _, hw₀, hw₁, hw₂, hne, ?_⟩, hname, hmark, ending, hend, rfl⟩
      simp

theorem isPragmaOnce_iff :
    isPragmaOnce line.toList = true ↔ IsLine PragmaOnceOpening line := by
  have hp : isBlank 'p' = false := by decide
  have hpragma : "pragma".toList.head? = some 'p' := by decide
  have ho : isBlank 'o' = false := by decide
  rw [isPragmaOnce_eq_true_iff]
  simp only [afterHash?_bind_eq_some_iff hp ho hpragma]
  constructor
  . rintro ⟨rest, ⟨w₀, w₁, w₂, hw₀, hw₁, hw₂, hne, hline⟩, hend⟩
    rw [← String.toList_ofList (l := rest), isLineEnd_iff] at hend
    refine ⟨_, String.ofList rest, .intro hw₀ hw₁ hw₂ hne, hend, ?_⟩
    rw [← String.toList_inj, hline]
    simp
  . rintro ⟨_, ending, ⟨hw₀, hw₁, hw₂, hne⟩, hend, rfl⟩
    refine ⟨ending.toList, ⟨_, _, _, hw₀, hw₁, hw₂, hne, ?_⟩, isLineEnd_iff.mpr hend⟩
    simp

theorem exists_of_append_eq_return {first second : String} (h : first ++ second = line ++ "\r")
    (hfirst : first.toList.getLast? ≠ some '\r') :
    ∃ second', second = second' ++ "\r" ∧ line = first ++ second' := by
  rw [← String.toList_inj, String.toList_append, String.toList_append] at h
  rcases List.eq_nil_or_concat second.toList with hnil | ⟨before, last, hsecond⟩
  . rw [hnil, List.append_nil] at h
    exact absurd (by rw [h]; simp) hfirst
  . rw [List.concat_eq_append] at hsecond
    rw [hsecond, ← List.append_assoc] at h
    rcases List.append_inj' h rfl with ⟨hline, hlast⟩
    refine ⟨String.ofList before, ?_, ?_⟩
    . rw [← String.toList_inj, hsecond, hlast]
      simp
    . rw [← String.toList_inj, ← hline]
      simp

theorem isAllBlank_append_return {blank : String} :
    isAllBlank (blank ++ "\r") = isAllBlank blank := by
  unfold isAllBlank
  rw [String.toList_append, List.all_append]
  exact Bool.and_true _

theorem lineEnd_append_return {ending : String} : LineEnd (ending ++ "\r") ↔ LineEnd ending := by
  constructor
  . generalize hend : ending ++ "\r" = ending'
    intro h
    cases h with
    | blank hblank =>
      rw [← hend, isAllBlank_append_return] at hblank
      exact .blank hblank
    | comment hblank =>
      rcases exists_of_append_eq_return hend.symm (by simp) with ⟨text, _, rfl⟩
      exact .comment hblank
  . intro h
    cases h with
    | blank hblank => exact .blank (isAllBlank_append_return.trans hblank)
    | comment hblank =>
      rw [String.append_assoc]
      exact .comment hblank

theorem getLast?_append_ne {first last : String} {c : Char} (hlast : last.toList.getLast? = some c)
    (hc : c ≠ '\r') : (first ++ last).toList.getLast? ≠ some '\r' := by
  rw [String.toList_append, List.getLast?_append, hlast, Option.some_or, ne_eq, Option.some.injEq]
  exact hc

theorem IncludeOpening.getLast?_ne {opening : String} (h : IncludeOpening name opening) :
    opening.toList.getLast? ≠ some '\r' := by
  rcases h with ⟨_, _, _, _, hmarked⟩
  cases hmarked with
  | quotes =>
    rw [← String.append_assoc]
    apply getLast?_append_ne (c := '\x22') <;> decide
  | brackets =>
    rw [← String.append_assoc]
    apply getLast?_append_ne (c := '>') <;> decide

theorem PragmaOnceOpening.getLast?_ne {opening : String} (h : PragmaOnceOpening opening) :
    opening.toList.getLast? ≠ some '\r' := by
  cases h
  apply getLast?_append_ne (c := 'e') <;> decide

/--
A line with a carriage return at its end is a directive if it is one without it.
-/
theorem isLine_append_return {Opening : String → Prop}
    (hlast : ∀ opening, Opening opening → opening.toList.getLast? ≠ some '\r') :
    IsLine Opening (line ++ "\r") ↔ IsLine Opening line := by
  constructor
  . rintro ⟨opening, _, hopening, hend, hline⟩
    rcases exists_of_append_eq_return hline.symm (hlast opening hopening) with ⟨ending, rfl, rfl⟩
    exact ⟨opening, ending, hopening, lineEnd_append_return.mp hend, rfl⟩
  . rintro ⟨opening, ending, hopening, hend, rfl⟩
    refine ⟨opening, ending ++ "\r", hopening, lineEnd_append_return.mpr hend, ?_⟩
    rw [String.append_assoc]

theorem includeTarget?_append_return :
    includeTarget? (line ++ "\r").toList = includeTarget? line.toList := by
  apply Option.ext
  intro name
  rw [includeTarget?_eq_some_iff, includeTarget?_eq_some_iff]
  exact isLine_append_return fun _ => IncludeOpening.getLast?_ne

theorem isPragmaOnce_append_return :
    isPragmaOnce (line ++ "\r").toList = isPragmaOnce line.toList := by
  rw [Bool.eq_iff_iff, isPragmaOnce_iff, isPragmaOnce_iff]
  exact isLine_append_return fun _ => PragmaOnceOpening.getLast?_ne

theorem exists_of_afterWord? {word : String} (h : afterWord? word cs = some rest) :
    ∃ after, cs = word.toList ++ after := by
  unfold afterWord? at h
  split at h
  . next hafter =>
    rw [Text.after?_eq_some_iff] at hafter
    exact ⟨_, hafter⟩
  . cases h

/--
The word after `#` tells the directives apart.
-/
theorem isPragmaOnce_of_includeTarget? (h : includeTarget? cs = some name) :
    isPragmaOnce cs = false := by
  rw [← Bool.not_eq_true, isPragmaOnce_eq_true_iff]
  rintro ⟨_, honce, _⟩
  rw [includeTarget?_eq_some_iff_or] at h
  have hinclude : ∃ after, (afterHash? cs).bind (afterWord? "include") = some after := by
    rcases h with ⟨_, hafter, _⟩ | ⟨_, hafter, _⟩
    . exact ⟨_, hafter⟩
    . exact ⟨_, hafter⟩
  simp only [Option.bind_eq_some_iff] at hinclude honce
  rcases hinclude with ⟨_, _, hhash, hinclude⟩
  rcases honce with ⟨_, hhash', hpragma⟩
  rw [hhash, Option.some.injEq] at hhash'
  rw [← hhash'] at hpragma
  rcases exists_of_afterWord? hinclude with ⟨_, hi⟩
  rcases exists_of_afterWord? hpragma with ⟨_, hp⟩
  rw [hi] at hp
  simp at hp

theorem parse?_append_return (line : String) : parse? (line ++ "\r") = parse? line := by
  unfold parse?
  rw [isPragmaOnce_append_return, includeTarget?_append_return]

/--
The lines that are recognized are those of the grammar. There is at most one name that a line asks
for, no line is both directives, and a carriage return at the end of a line makes no difference.
-/
theorem recognized_iff_grammar (line : String) :
    (∀ name, includeTarget? line.toList = some name ↔ IsLine (IncludeOpening name) line) ∧
      (∀ name name', IsLine (IncludeOpening name) line → IsLine (IncludeOpening name') line →
        name = name') ∧
      (isPragmaOnce line.toList = true ↔ IsLine PragmaOnceOpening line) ∧
      (∀ name, IsLine (IncludeOpening name) line → ¬IsLine PragmaOnceOpening line) ∧
      includeTarget? (line ++ "\r").toList = includeTarget? line.toList ∧
        isPragmaOnce (line ++ "\r").toList = isPragmaOnce line.toList := by
  refine ⟨fun _ => includeTarget?_eq_some_iff, ?_, isPragmaOnce_iff, ?_,
    includeTarget?_append_return, isPragmaOnce_append_return⟩
  . intro name name' h h'
    rw [← includeTarget?_eq_some_iff] at h h'
    rw [h, Option.some.injEq] at h'
    exact h'
  . intro name h honce
    rw [← includeTarget?_eq_some_iff] at h
    rw [← isPragmaOnce_iff, isPragmaOnce_of_includeTarget? h] at honce
    cases honce

example : includeTarget? "\t# include <a\"b> // c>\r".toList = some "a\"b" := by decide

example : includeTarget? "#include \"a\" <b>".toList = none := by decide

end Directive
end ShaderBuild
