import Mathlib.Data.List.Basic
import ShaderBuild.Text.Decimal

/-!
This module contains that a number which is written in decimal is read back.
-/

namespace ShaderBuild
namespace Text

theorem isDigit_of_mem_toString {n : Nat} {c : Char} (h : c ∈ (toString n).toList) :
    c.isDigit = true := by
  rw [Nat.toString_eq_repr, Nat.toList_repr] at h
  apply Nat.isDigit_of_mem_toDigits _ _ h
  . decide
  . decide

theorem not_mem_toString {c : Char} (hc : c.isDigit = false) (n : Nat) :
    c ∉ (toString n).toList := by
  intro hmem
  rw [isDigit_of_mem_toString hmem] at hc
  cases hc

theorem spanDigits_append {digits : List Char} {c : Char} (h : ∀ d ∈ digits, d.isDigit = true)
    (hc : c.isDigit = false) (cs : List Char) :
    spanDigits (digits ++ c :: cs) = (digits, c :: cs) := by
  unfold spanDigits
  rw [List.takeWhile_append_of_pos h, List.dropWhile_append_of_pos h, List.takeWhile_cons_of_neg,
    List.dropWhile_cons_of_neg, List.append_nil]
  . simp [hc]
  . simp [hc]

theorem digitsValue_toString (n : Nat) : digitsValue (toString n).toList = n := by
  unfold digitsValue
  rw [Nat.toString_eq_repr, Nat.toList_repr, ← Nat.ofDigitChars_eq_foldl,
    Nat.ofDigitChars_ten_toDigits]

theorem word?_eq_some_iff {cs : List Char} {n : Nat} :
    word? cs = some n
      ↔
    cs ≠ [] ∧ (∀ c ∈ cs, c.isDigit = true) ∧ digitsValue cs < wordLimit ∧ digitsValue cs = n := by
  unfold word?
  split
  . next hnone =>
    rw [Bool.or_eq_true, List.isEmpty_iff, Bool.not_eq_true', List.all_eq_false] at hnone
    simp only [reduceCtorEq, false_iff]
    rintro ⟨hne, hdigits, _⟩
    rcases hnone with hempty | ⟨c, hc, hdigit⟩
    . exact hne hempty
    . exact hdigit (hdigits c hc)
  . next hsome =>
    rw [Bool.or_eq_true, List.isEmpty_iff, Bool.not_eq_true', not_or, Bool.not_eq_false,
      List.all_eq_true] at hsome
    rw [Option.ite_none_right_eq_some, Option.some.injEq]
    constructor
    . intro h
      exact ⟨hsome.1, hsome.2, h⟩
    . rintro ⟨_, _, h⟩
      exact h

theorem word?_toString {n : Nat} (h : n < wordLimit) : word? (toString n).toList = some n := by
  have hempty : (toString n).toList.isEmpty = false := by
    rw [Nat.toString_eq_repr, Nat.toList_repr, List.isEmpty_eq_false_iff]
    apply Nat.toDigits_ne_nil
  have hall : (toString n).toList.all Char.isDigit = true := by
    rw [List.all_eq_true]
    intro c hc
    apply isDigit_of_mem_toString hc
  unfold word?
  rw [digitsValue_toString, hempty, hall, if_pos h]
  rfl

end Text
end ShaderBuild
