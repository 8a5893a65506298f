import ShaderBuild.Driver.Strict
import ShaderBuild.Proofs.Text.Blank
import ShaderBuild.Proofs.Text.Lines

/-!
This module contains which sources the compiler of the strict driver accepts: those without an
`#error` line.
-/

namespace ShaderBuild

namespace StrictDriver

/--
The line starts with `#error` and a space, after white space.
-/
def IsErrorLine (line : String) : Prop :=
  ∃ blank message, line.toList = blank ++ "#error ".toList ++ message ∧
    ∀ c ∈ blank, Text.isBlank c = true

theorem isErrorLine_iff {line : String} :
    IsErrorLine line
      ↔
    ∃ message, Text.after? "#error ".toList (Text.trimStart line.toList) = some message := by
  have he : Text.isBlank '#' = false := by decide
  have htrim (message : List Char) : Text.trimStart line.toList = "#error ".toList ++ message ↔
      ∃ blank, line.toList = blank ++ "#error ".toList ++ message ∧
        ∀ c ∈ blank, Text.isBlank c = true := by
    simp only [List.append_assoc]
    exact Text.trimStart_eq_iff he
  unfold IsErrorLine
  simp only [Text.after?_eq_some_iff, htrim]
  rw [exists_comm]

theorem errorLines_eq_nil_iff {source : String} :
    errorLines source = [] ↔ ∀ line ∈ Text.lines source, ¬IsErrorLine line := by
  unfold errorLines
  rw [List.filterMap_eq_nil_iff, ← Text.forall_numberedLines_iff]
  apply forall₂_congr
  intro entry _
  rw [isErrorLine_iff, Option.map_eq_none_iff, ← not_iff_not, not_not, ← ne_eq,
    Option.ne_none_iff_exists']

end StrictDriver
end ShaderBuild
