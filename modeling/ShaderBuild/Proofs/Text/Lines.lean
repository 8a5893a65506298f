import Mathlib.Data.List.Basic
import ShaderBuild.Proofs.Text.Pieces
import ShaderBuild.Text.Lines

/-!
This module contains the theory of lines: what cutting a text into lines makes of a line with its
line feed in front, how many lines there are, and which line a number stands for.
-/

namespace ShaderBuild
namespace Text

/--
What cutting leaves of a line that a line feed ends.
-/
def dropReturn (l : List Char) : List Char :=
  if l.getLast? = some '\r' then l.dropLast else l

@[simp]
theorem cutLines_newline_cons (cs : List Char) : cutLines ('\n' :: cs) = [] :: cutLines cs := rfl

theorem cutLines_cons {c : Char} {cs : List Char} (hc : c ≠ '\n')
    (hcs : c = '\r' → cs.head? ≠ some '\n') :
    cutLines (c :: cs) = extendFirst c (cutLines cs) := by
  rw [cutLines]
  . intro cs' hr hcons
    apply hcs hr
    rw [hcons]
    rfl
  . intro hn
    contradiction

theorem dropReturn_cons {c : Char} {l : List Char} (h : c = '\r' → l ≠ []) :
    dropReturn (c :: l) = c :: dropReturn l := by
  cases l with
  | nil =>
    have hc : c ≠ '\r' := fun hc => h hc rfl
    simp [dropReturn, hc]
  | cons c' l =>
    unfold dropReturn
    rw [List.getLast?_cons_cons]
    split <;> rfl

theorem eq_dropReturn_append {l : List Char} (h : dropReturn l ≠ l) :
    l = dropReturn l ++ ['\r'] := by
  unfold dropReturn at h ⊢
  split at h
  . next hlast =>
    rw [if_pos hlast]
    exact (List.dropLast_append_getLast? '\r' hlast).symm
  . contradiction

theorem cutLines_append_newline {l : List Char} (h : '\n' ∉ l) (cs : List Char) :
    cutLines (l ++ '\n' :: cs) = dropReturn l :: cutLines cs := by
  induction l with
  | nil => rfl
  | cons c l ih =>
    rw [List.mem_cons, not_or] at h
    by_cases hreturn : c = '\r' ∧ l = []
    . rcases hreturn with ⟨rfl, rfl⟩
      rfl
    . rw [List.cons_append, cutLines_cons (Ne.symm h.1), ih h.2, dropReturn_cons]
      . rfl
      . intro hc hl
        exact hreturn ⟨hc, hl⟩
      . intro hc hhead
        cases l with
        | nil => exact hreturn ⟨hc, rfl⟩
        | cons c' l =>
          simp only [List.cons_append, List.head?_cons, Option.some.injEq] at hhead
          exact h.2 (hhead ▸ List.mem_cons_self)

theorem not_mem_of_mem_cutLines (cs : List Char) : ∀ l ∈ cutLines cs, '\n' ∉ l := by
  induction cs using cutLines.induct with
  | case1 => simp
  | case2 cs ih | case3 cs ih =>
    rw [cutLines, List.forall_mem_cons]
    exact ⟨List.not_mem_nil, ih⟩
  | case4 c cs hreturn hc ih =>
    rw [cutLines]
    . apply not_mem_of_mem_extendFirst hc ih
    . exact hreturn
    . exact hc

theorem not_mem_of_mem_lines {text line : String} (h : line ∈ lines text) :
    '\n' ∉ line.toList := by
  unfold lines at h
  rw [List.mem_map] at h
  rcases h with ⟨l, hl, rfl⟩
  rw [String.toList_ofList]
  apply not_mem_of_mem_cutLines _ _ hl

theorem length_extendFirst (c : Char) (ls : List (List Char)) :
    (extendFirst c ls).length = max 1 ls.length := by
  cases ls with
  | nil => rfl
  | cons l ls =>
    simp only [extendFirst, List.length_cons]
    omega

theorem length_cutLines_cons_of_ne {c : Char} (hc : c ≠ '\n') (cs : List Char) :
    (cutLines (c :: cs)).length = max 1 (cutLines cs).length := by
  by_cases hreturn : c = '\r' ∧ cs.head? = some '\n'
  . -- the line feed takes the carriage return along, and there is a line for it already
    rcases hreturn with ⟨rfl, hhead⟩
    cases cs with
    | nil => cases hhead
    | cons c' cs =>
      rw [List.head?_cons, Option.some.injEq] at hhead
      rw [hhead, cutLines, cutLines_newline_cons, List.length_cons]
      omega
  . rw [cutLines_cons hc, length_extendFirst]
    intro hr hhead
    exact hreturn ⟨hr, hhead⟩

theorem count_lt_length_cutLines (l : List Char) (c : Char) (cs : List Char) :
    l.count '\n' < (cutLines (l ++ c :: cs)).length := by
  induction l with
  | nil =>
    rw [List.count_nil, List.nil_append]
    by_cases hc : c = '\n'
    . rw [hc, cutLines_newline_cons, List.length_cons]
      omega
    . rw [length_cutLines_cons_of_ne hc]
      omega
  | cons c' l ih =>
    by_cases hc : c' = '\n'
    . subst hc
      rw [List.cons_append, List.count_cons_self, cutLines_newline_cons, List.length_cons]
      omega
    . rw [List.cons_append, List.count_cons_of_ne hc, length_cutLines_cons_of_ne hc]
      omega

theorem toList_ofLines_cons (line : String) (rest : List String) :
    (ofLines (line :: rest)).toList = line.toList ++ '\n' :: (ofLines rest).toList := by
  simp [ofLines]

/--
Cutting a text into lines takes back that each line was ended with a line feed, but for a carriage
return at the end of a line.
-/
theorem lines_ofLines {ls : List String} (h : ∀ line ∈ ls, '\n' ∉ line.toList) :
    lines (ofLines ls) = ls.map fun line => String.ofList (dropReturn line.toList) := by
  unfold lines
  induction ls with
  | nil => rfl
  | cons line rest ih =>
    rw [List.forall_mem_cons] at h
    rw [toList_ofLines_cons, cutLines_append_newline h.1, List.map_cons, List.map_cons, ih h.2]

theorem lines_ofLines_eq_self {ls : List String} (h : ∀ line ∈ ls, '\n' ∉ line.toList)
    (hreturn : ∀ line ∈ ls, line.toList.getLast? ≠ some '\r') : lines (ofLines ls) = ls := by
  rw [lines_ofLines h, List.map_congr_left (g := id), List.map_id]
  intro line hline
  unfold dropReturn
  rw [if_neg (hreturn line hline), String.ofList_toList]
  rfl

theorem length_lines_ofLines {ls : List String} (h : ∀ line ∈ ls, '\n' ∉ line.toList) :
    (lines (ofLines ls)).length = ls.length := by
  rw [lines_ofLines h, List.length_map]

theorem pieces_ofLines {ls : List String} (h : ∀ line ∈ ls, '\n' ∉ line.toList) :
    pieces '\n' (ofLines ls).toList = ls.map String.toList ++ [[]] := by
  induction ls with
  | nil => simp [ofLines]
  | cons line rest ih =>
    rw [List.forall_mem_cons] at h
    rw [toList_ofLines_cons, pieces_append_sep h.1, ih h.2, List.map_cons, List.cons_append]

theorem numberedLines.mem_number_iff {n m : Nat} {line : String} {ls : List String} :
    (m, line) ∈ number n ls ↔ n ≤ m ∧ ls[m - n]? = some line := by
  induction ls generalizing n with
  | nil => simp [number]
  | cons first rest ih =>
    rw [number, List.mem_cons, Prod.mk.injEq, ih]
    constructor
    . rintro (⟨rfl, rfl⟩ | ⟨hle, hget⟩)
      . simp
      . refine ⟨by omega, ?_⟩
        rw [show m - n = m - (n + 1) + 1 by omega, List.getElem?_cons_succ, hget]
    . rintro ⟨hle, hget⟩
      rcases Nat.eq_or_lt_of_le hle with rfl | hlt
      . rw [Nat.sub_self, List.getElem?_cons_zero, Option.some.injEq] at hget
        exact .inl ⟨rfl, hget.symm⟩
      . rw [show m - n = m - (n + 1) + 1 by omega, List.getElem?_cons_succ] at hget
        exact .inr ⟨hlt, hget⟩

theorem mem_numberedLines_iff {text line : String} {n : Nat} :
    (n, line) ∈ numberedLines text ↔ 1 ≤ n ∧ (lines text)[n - 1]? = some line :=
  numberedLines.mem_number_iff

theorem forall_numberedLines_iff {text : String} {P : String → Prop} :
    (∀ entry ∈ numberedLines text, P entry.2) ↔ ∀ line ∈ lines text, P line := by
  constructor
  . intro h line hline
    rcases List.getElem?_of_mem hline with ⟨i, hi⟩
    exact h (i + 1, line) (mem_numberedLines_iff.mpr ⟨by omega, hi⟩)
  . rintro h ⟨n, line⟩ hentry
    exact h line (List.mem_of_getElem? (mem_numberedLines_iff.mp hentry).2)

theorem eq_of_mem_numberedLines {text line line' : String} {n : Nat}
    (h : (n, line) ∈ numberedLines text) (h' : (n, line') ∈ numberedLines text) : line = line' := by
  rw [mem_numberedLines_iff] at h h'
  rw [h.2, Option.some.injEq] at h'
  exact h'.2

theorem numberedLines.map_snd_number (n : Nat) (ls : List String) :
    (number n ls).map Prod.snd = ls := by
  induction ls generalizing n with
  | nil => rfl
  | cons line rest ih => rw [number, List.map_cons, ih]

theorem numberedLines.map_fst_number (n : Nat) (ls : List String) :
    (number n ls).map Prod.fst = List.range' n ls.length := by
  induction ls generalizing n with
  | nil => rfl
  | cons line rest ih => rw [number, List.map_cons, ih, List.length_cons, List.range'_succ]

theorem map_fst_numberedLines (text : String) :
    (numberedLines text).map Prod.fst = List.range' 1 (lines text).length :=
  numberedLines.map_fst_number _ _

theorem map_snd_numberedLines (text : String) : (numberedLines text).map Prod.snd = lines text :=
  numberedLines.map_snd_number _ _

theorem numberedLines.number_pairwise (n : Nat) (ls : List String) :
    (number n ls).Pairwise fun a b => a.1 < b.1 := by
  induction ls generalizing n with
  | nil => exact .nil
  | cons line rest ih =>
    rw [number, List.pairwise_cons]
    refine ⟨?_, ih _⟩
    rintro ⟨m, line'⟩ hmem
    exact (mem_number_iff.mp hmem).1

theorem numberedLines_pairwise (text : String) :
    (numberedLines text).Pairwise fun a b => a.1 < b.1 :=
  numberedLines.number_pairwise _ _

end Text
end ShaderBuild
