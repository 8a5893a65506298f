import Mathlib.Data.List.Basic
import ShaderBuild.Text.Pieces

/-!
This module contains the theory of pieces: their number, how they follow from the front of a text,
and that joining pieces is undone by cutting. The offset at which a piece starts is the size of the
pieces before it, separators included.
-/

namespace ShaderBuild
namespace Text

variable {sep c : Char} {l cs : List Char}

@[simp]
theorem byteSize_nil : byteSize [] = 0 := rfl

@[simp]
theorem byteSize_cons (c : Char) (cs : List Char) :
    byteSize (c :: cs) = c.utf8Size + byteSize cs := rfl

@[simp]
theorem byteSize_append (l cs : List Char) : byteSize (l ++ cs) = byteSize l + byteSize cs := by
  induction l with
  | nil => simp
  | cons c l ih => rw [List.cons_append, byteSize_cons, byteSize_cons, ih, Nat.add_assoc]

theorem count_le_byteSize (c : Char) (l : List Char) : l.count c ≤ byteSize l := by
  induction l with
  | nil => simp
  | cons d l ih =>
    have hpos := Char.utf8Size_pos d
    rw [List.count_cons, byteSize_cons]
    split <;> omega

theorem length_le_byteSize (l : List Char) : l.length ≤ byteSize l := by
  induction l with
  | nil => simp
  | cons c l ih =>
    have hpos := Char.utf8Size_pos c
    rw [List.length_cons, byteSize_cons]
    omega

theorem byteSize_eq_utf8ByteSize (l : List Char) : byteSize l = (String.ofList l).utf8ByteSize := by
  induction l with
  | nil => rfl
  | cons c l ih =>
    have hcons : String.ofList (c :: l) = String.singleton c ++ String.ofList l := by
      rw [← String.toList_inj]
      simp
    rw [byteSize_cons, ih, hcons, String.utf8ByteSize_append, String.utf8ByteSize_singleton]

theorem length_le_utf8ByteSize (text : String) : text.length ≤ text.utf8ByteSize := by
  have h := length_le_byteSize text.toList
  rw [byteSize_eq_utf8ByteSize, String.ofList_toList, String.length_toList] at h
  exact h

theorem not_mem_of_mem_extendFirst {ls : List (List Char)} (hc : c ≠ sep)
    (h : ∀ l ∈ ls, sep ∉ l) : ∀ l ∈ extendFirst c ls, sep ∉ l := by
  cases ls with
  | nil => simpa [extendFirst] using hc.symm
  | cons first rest =>
    rw [List.forall_mem_cons] at h
    unfold extendFirst
    rw [List.forall_mem_cons]
    refine ⟨?_, h.2⟩
    rw [List.mem_cons, not_or]
    exact ⟨hc.symm, h.1⟩

@[simp]
theorem pieces_nil : pieces sep [] = [[]] := rfl

@[simp]
theorem pieces_sep_cons : pieces sep (sep :: cs) = [] :: pieces sep cs := by
  simp [pieces]

theorem pieces_cons_of_ne (h : c ≠ sep) :
    pieces sep (c :: cs) = extendFirst c (pieces sep cs) := by
  rw [pieces, if_neg h]

theorem not_mem_of_mem_pieces (cs : List Char) : ∀ l ∈ pieces sep cs, sep ∉ l := by
  induction cs with
  | nil => simp
  | cons c cs ih =>
    by_cases hc : c = sep
    . subst hc
      rw [pieces_sep_cons, List.forall_mem_cons]
      exact ⟨List.not_mem_nil, ih⟩
    . rw [pieces_cons_of_ne hc]
      apply not_mem_of_mem_extendFirst hc ih

theorem extendFirst_append {ls : List (List Char)} (h : ls ≠ []) (c : Char)
    (ls' : List (List Char)) : extendFirst c (ls ++ ls') = extendFirst c ls ++ ls' := by
  cases ls with
  | nil => contradiction
  | cons first rest => rfl

theorem pieces_append (l cs : List Char) :
    pieces sep (l ++ sep :: cs) = pieces sep l ++ pieces sep cs := by
  induction l with
  | nil => simp
  | cons c l ih =>
    rw [List.cons_append]
    by_cases hc : c = sep
    . subst hc
      rw [pieces_sep_cons, pieces_sep_cons, ih, List.cons_append]
    . rw [pieces_cons_of_ne hc, pieces_cons_of_ne hc, ih, extendFirst_append]
      apply pieces_ne_nil

theorem pieces_of_not_mem (h : sep ∉ l) : pieces sep l = [l] := by
  induction l with
  | nil => rfl
  | cons c l ih =>
    rw [List.mem_cons, not_or] at h
    rw [pieces_cons_of_ne (Ne.symm h.1), ih h.2, extendFirst]

theorem pieces_append_sep (h : sep ∉ l) (cs : List Char) :
    pieces sep (l ++ sep :: cs) = l :: pieces sep cs := by
  rw [pieces_append, pieces_of_not_mem h, List.singleton_append]

theorem intercalate_append {ls ls' : List (List Char)} (h : ls ≠ []) (h' : ls' ≠ []) :
    [sep].intercalate (ls ++ ls') = [sep].intercalate ls ++ sep :: [sep].intercalate ls' := by
  induction ls with
  | nil => contradiction
  | cons l rest ih =>
    cases rest with
    | nil =>
      cases ls' with
      | nil => contradiction
      | cons l' rest' => simp [List.intercalate_cons_cons]
    | cons l' rest =>
      specialize ih (List.cons_ne_nil _ _)
      rw [List.cons_append] at ih
      rw [List.cons_append, List.cons_append, List.intercalate_cons_cons,
        List.intercalate_cons_cons, ih]
      simp only [List.append_assoc]

theorem pieces_intercalate {ls : List (List Char)} (hne : ls ≠ []) (h : ∀ l ∈ ls, sep ∉ l) :
    pieces sep ([sep].intercalate ls) = ls := by
  induction ls with
  | nil => contradiction
  | cons l rest ih =>
    rw [List.forall_mem_cons] at h
    cases rest with
    | nil =>
      rw [List.intercalate_singleton]
      apply pieces_of_not_mem h.1
    | cons l' rest =>
      rw [List.intercalate_cons_cons, List.append_assoc, List.singleton_append,
        pieces_append_sep h.1, ih (List.cons_ne_nil _ _) h.2]

theorem after?_eq_some_iff {expected rest : List Char} :
    after? expected cs = some rest ↔ cs = expected ++ rest := by
  induction expected generalizing cs with
  | nil => simp [after?]
  | cons e expected ih =>
    cases cs with
    | nil => simp [after?]
    | cons c cs =>
      unfold after?
      split
      . next heq => simp [ih, heq]
      . next hne => simp [Ne.symm hne]

/--
The offset of a piece of a text, which is found behind the separators of all pieces before it.
-/
def pieceStart (sep : Char) (cs : List Char) (k : Nat) : Nat :=
  byteSize (((pieces sep cs).take k).flatMap fun piece => piece ++ [sep])

@[simp]
theorem pieceStart_zero : pieceStart sep cs 0 = 0 := rfl

@[simp]
theorem pieceStart_sep_cons (k : Nat) :
    pieceStart sep (sep :: cs) (k + 1) = sep.utf8Size + pieceStart sep cs k := by
  simp [pieceStart]

theorem pieceStart_cons_of_ne (h : c ≠ sep) (k : Nat) :
    pieceStart sep (c :: cs) (k + 1) = c.utf8Size + pieceStart sep cs (k + 1) := by
  unfold pieceStart
  rw [pieces_cons_of_ne h]
  cases hpieces : pieces sep cs with
  | nil => exact absurd hpieces (pieces_ne_nil sep cs)
  | cons piece rest => simp [extendFirst]

theorem pieceStart_count_le (l cs : List Char) :
    pieceStart sep (l ++ cs) (l.count sep) ≤ byteSize l := by
  induction l with
  | nil => simp
  | cons c l ih =>
    by_cases hc : c = sep
    . subst hc
      rw [List.cons_append, List.count_cons_self, pieceStart_sep_cons, byteSize_cons]
      omega
    . rw [List.cons_append, List.count_cons_of_ne hc, byteSize_cons]
      -- the first piece starts at zero whatever stands in it, the others are moved by `c`
      cases hk : l.count sep with
      | zero => simp
      | succ k =>
        rw [pieceStart_cons_of_ne hc, ← hk]
        omega

theorem lt_pieceStart_count_succ (l : List Char) (c : Char) (cs : List Char) :
    byteSize l < pieceStart sep (l ++ c :: cs) (l.count sep + 1) := by
  induction l with
  | nil =>
    rw [List.nil_append, List.count_nil, byteSize_nil]
    by_cases hc : c = sep
    . subst hc
      rw [pieceStart_sep_cons]
      have := Char.utf8Size_pos c
      omega
    . rw [pieceStart_cons_of_ne hc]
      have := Char.utf8Size_pos c
      omega
  | cons c' l ih =>
    by_cases hc : c' = sep
    . subst hc
      rw [List.cons_append, List.count_cons_self, pieceStart_sep_cons, byteSize_cons]
      omega
    . rw [List.cons_append, List.count_cons_of_ne hc, pieceStart_cons_of_ne hc, byteSize_cons]
      omega

end Text
end ShaderBuild
