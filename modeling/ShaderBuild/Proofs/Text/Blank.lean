import Mathlib.Data.List.DropRight
import Mathlib.Data.List.TakeWhile
import ShaderBuild.Text.Blank

/-!
This module contains what is left of a text when the white space at its start is taken away, and
when nothing is left of it.
-/

namespace ShaderBuild
namespace Text

variable {cs rest : List Char}

/--
A text that starts with no white space is found behind the white space that a text starts with.
-/
theorem trimStart_eq_iff {e : Char} (he : isBlank e = false) :
    trimStart cs = e :: rest
      ↔
    ∃ blank, cs = blank ++ e :: rest ∧ ∀ c ∈ blank, isBlank c = true := by
  unfold trimStart
  constructor
  . intro h
    refine ⟨cs.takeWhile isBlank, ?_, ?_⟩
    . rw [← h, List.takeWhile_append_dropWhile]
    . intro c hc
      exact List.mem_takeWhile_imp hc
  . rintro ⟨blank, rfl, hblank⟩
    rw [List.dropWhile_append_of_pos hblank, List.dropWhile_cons_of_neg]
    rw [he]
    exact Bool.false_ne_true

theorem trimStart_eq_nil_iff : trimStart cs = [] ↔ ∀ c ∈ cs, isBlank c = true :=
  List.dropWhile_eq_nil_iff

theorem trimEnd_eq_nil_iff : trimEnd cs = [] ↔ ∀ c ∈ cs, isBlank c = true := by
  unfold trimEnd
  rw [List.reverse_eq_nil_iff, List.dropWhile_eq_nil_iff]
  simp only [List.mem_reverse]

theorem trim_eq_nil_iff : trim cs = [] ↔ ∀ c ∈ cs, isBlank c = true := by
  unfold trim
  rw [trimEnd_eq_nil_iff]
  constructor
  . intro h
    have hdrop := List.dropWhile_eq_nil_iff.mpr h
    unfold trimStart at hdrop
    rw [List.dropWhile_idempotent] at hdrop
    exact List.dropWhile_eq_nil_iff.mp hdrop
  . intro h c hc
    exact h c (List.dropWhile_sublist _ |>.subset hc)

theorem isAllBlank_iff {text : String} : isAllBlank text = true ↔ trim text.toList = [] := by
  unfold isAllBlank
  rw [List.all_eq_true, trim_eq_nil_iff]

theorem isAllBlank_ofList {blank : List Char} (h : ∀ c ∈ blank, isBlank c = true) :
    isAllBlank (String.ofList blank) = true := by
  unfold isAllBlank
  rw [String.toList_ofList, List.all_eq_true]
  exact h

theorem isBlank_of_isAllBlank {blank : String} (h : isAllBlank blank = true) :
    ∀ c ∈ blank.toList, isBlank c = true := by
  unfold isAllBlank at h
  rw [List.all_eq_true] at h
  exact h

end Text
end ShaderBuild
