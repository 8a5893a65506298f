import ShaderBuild.Proofs.Source.Remap

/-!
This module contains which lines of a log are rewritten, and what becomes of them. All other lines
stay as they are, and what a line becomes does not depend on the lines around it.
-/

namespace ShaderBuild

namespace Text

/--
The number that a run of ASCII digits denotes.
-/
def decimalValue (digits : String) : Nat :=
  Nat.ofDigitChars 10 digits.toList 0

/--
One or more ASCII digits that denote a number that fits a 32 bit word.
-/
structure IsWord (digits : String) : Prop where
  ne_empty : digits ≠ ""
  isDigit : ∀ c ∈ digits.toList, c.isDigit = true
  value_lt : decimalValue digits < wordLimit

theorem word?_toList_eq_some_iff {digits : String} {n : Nat} :
    word? digits.toList = some n ↔ IsWord digits ∧ decimalValue digits = n := by
  rw [word?_eq_some_iff, ne_eq, String.toList_eq_nil_iff]
  constructor
  . rintro ⟨hne, hdigits, hlt, hvalue⟩
    exact ⟨⟨hne, hdigits, hlt⟩, hvalue⟩
  . rintro ⟨hword, hvalue⟩
    exact ⟨hword.ne_empty, hword.isDigit, hword.value_lt, hvalue⟩

end Text

namespace LogEntry

theorem toList_line (number column message : String) :
    s!"0:{number}({column}): {message}".toList =
      '0' :: ':' :: (number.toList ++
        '(' :: (column.toList ++ ')' :: ':' :: ' ' :: message.toList)) := by
  simp [toString]

theorem parse?_toList_eq_some_iff {line : String} {entry : LogEntry} :
    parse? line.toList = some entry
      ↔
    ∃ number column message : String,
      line = s!"0:{number}({column}): {message}" ∧ Text.IsWord number ∧ Text.IsWord column ∧
        entry = ⟨Text.decimalValue number, Text.decimalValue column, ' ' :: message.toList⟩ := by
  rw [parse?_eq_some_iff]
  constructor
  . rintro ⟨number, column, hline, hnumber, hcolumn, hmessage⟩
    rw [List.head?_eq_some_iff] at hmessage
    rcases hmessage with ⟨message, hmessage⟩
    rw [← String.toList_ofList (l := number), Text.word?_toList_eq_some_iff] at hnumber
    rw [← String.toList_ofList (l := column), Text.word?_toList_eq_some_iff] at hcolumn
    refine ⟨String.ofList number, String.ofList column, String.ofList message, ?_, hnumber.1,
      hcolumn.1, ?_⟩
    . rw [← String.toList_inj, hline, hmessage, toList_line]
      simp only [String.toList_ofList]
    . cases entry
      rw [hnumber.2, hcolumn.2, String.toList_ofList, ← hmessage]
  . rintro ⟨number, column, message, rfl, hnumber, hcolumn, rfl⟩
    refine ⟨number.toList, column.toList, toList_line number column message, ?_, ?_, rfl⟩
    . exact Text.word?_toList_eq_some_iff.mpr ⟨hnumber, rfl⟩
    . exact Text.word?_toList_eq_some_iff.mpr ⟨hcolumn, rfl⟩

end LogEntry

namespace Source

variable {source : Source} {line rewritten : String}

/--
A log line whose first number is that of a line with an origin, and the same line with the file and
the line of the origin in the place of that number. Of the second number only the value is kept.
-/
inductive Rewrites (source : Source) : String → String → Prop
  | intro {number column message : String} {origin : LineOrigin} :
    Text.IsWord number → Text.IsWord column → 1 ≤ Text.decimalValue number →
      source.origins[Text.decimalValue number - 1]? = some origin →
        Rewrites source s!"0:{number}({column}): {message}"
          s!"{origin.file}:{origin.line}({Text.decimalValue column}): {message}"

theorem lineOrigin?_eq_some_iff {n : Nat} {origin : LineOrigin} :
    source.lineOrigin? n = some origin ↔ 1 ≤ n ∧ source.origins[n - 1]? = some origin := by
  cases n with
  | zero => simp
  | succ n => simp

theorem remapLog_of_not_mem (h : '\n' ∉ line.toList) :
    source.remapLog line = String.ofList (source.remapLine line.toList) := by
  unfold remapLog
  rw [Text.pieces_of_not_mem h, List.map_singleton, List.intercalate_singleton]

theorem remapLog_append (source : Source) (first second : String) :
    source.remapLog (first ++ "\n" ++ second) =
      source.remapLog first ++ "\n" ++ source.remapLog second := by
  have hpieces (text : String) :
      (Text.pieces '\n' text.toList).map source.remapLine ≠ [] := by
    rw [ne_eq, List.map_eq_nil_iff]
    apply Text.pieces_ne_nil
  have htext : (first ++ "\n" ++ second).toList = first.toList ++ '\n' :: second.toList := by
    simp
  unfold remapLog
  rw [htext, Text.pieces_append, List.map_append,
    Text.intercalate_append (hpieces first) (hpieces second), ← String.toList_inj]
  simp

/--
What becomes of a line that is an entry for a line with an origin.
-/
theorem remapLine_of_rewrites (h : source.Rewrites line rewritten) :
    String.ofList (source.remapLine line.toList) = rewritten := by
  cases h with
  | @intro number column message origin hnumber hcolumn hpos horigin =>
    have hparse := LogEntry.parse?_toList_eq_some_iff.mpr
      ⟨number, column, message, rfl, hnumber, hcolumn, rfl⟩
    unfold remapLine
    rw [hparse]
    dsimp only
    rw [lineOrigin?_eq_some_iff.mpr ⟨hpos, horigin⟩, ← String.toList_inj]
    simp [LineOrigin.text, toString]

theorem remapLine_of_not_rewrites (h : ¬∃ rewritten, source.Rewrites line rewritten) :
    source.remapLine line.toList = line.toList := by
  unfold remapLine
  split
  . rfl
  . next entry hparse =>
    split
    . rfl
    . next origin horigin =>
      rw [LogEntry.parse?_toList_eq_some_iff] at hparse
      rcases hparse with ⟨number, column, message, rfl, hnumber, hcolumn, rfl⟩
      rw [lineOrigin?_eq_some_iff] at horigin
      exact absurd ⟨_, .intro hnumber hcolumn horigin.1 horigin.2⟩ h

/--
The rewriting of a log is exact. The parts of a log before and after a line feed are rewritten on
their own. A single line is rewritten if it is an entry for a line with an origin, and any other
line stays as it is.
-/
theorem remapLog_exact (source : Source) :
    (∀ first second, source.remapLog (first ++ "\n" ++ second) =
        source.remapLog first ++ "\n" ++ source.remapLog second) ∧
      ∀ line rewritten : String, '\n' ∉ line.toList →
        (source.remapLog line = rewritten
          ↔
        source.Rewrites line rewritten ∨
          (¬∃ other, source.Rewrites line other) ∧ rewritten = line) := by
  refine ⟨remapLog_append source, ?_⟩
  intro line rewritten hline
  rw [remapLog_of_not_mem hline]
  by_cases hrewrites : ∃ other, source.Rewrites line other
  . rcases hrewrites with ⟨other, hother⟩
    rw [remapLine_of_rewrites hother]
    constructor
    . rintro rfl
      exact .inl hother
    . rintro (h | ⟨hnone, _⟩)
      . rw [← remapLine_of_rewrites hother, remapLine_of_rewrites h]
      . exact absurd ⟨other, hother⟩ hnone
  . rw [remapLine_of_not_rewrites hrewrites, String.ofList_toList]
    constructor
    . rintro rfl
      exact .inr ⟨hrewrites, rfl⟩
    . rintro (h | ⟨_, rfl⟩)
      . exact absurd ⟨rewritten, h⟩ hrewrites
      . rfl

/--
An entry whose numbers have leading zeros and whose message ends with a carriage return, alone and
in front of another line.
-/
theorem remapLog_exact_leading_zeros :
    let source : Source := ⟨"x\ny\n", [⟨"main.glsl", 1⟩, ⟨"common.glsl", 7⟩]⟩
    let line := "0:002(0010): unknown name é\r"
    let rewritten := "common.glsl:7(10): unknown name é\r"
    '\n' ∉ line.toList ∧ source.remapLog line = rewritten ∧
      source.remapLog (line ++ "\n" ++ "0:3(1): no such line") =
        rewritten ++ "\n" ++ source.remapLog "0:3(1): no such line" := by
  intro source line rewritten
  have hline : '\n' ∉ line.toList := by decide +kernel
  have hnumber : Text.IsWord "002" := ⟨by decide, by simp, by decide⟩
  have hcolumn : Text.IsWord "0010" := ⟨by decide, by simp, by decide⟩
  have hrewrites : source.Rewrites line rewritten :=
    @Rewrites.intro source "002" "0010" "unknown name é\r" ⟨"common.glsl", 7⟩ hnumber hcolumn
      (by decide) rfl
  have hrewritten := ((remapLog_exact source).2 line rewritten hline).mpr (.inl hrewrites)
  refine ⟨hline, hrewritten, ?_⟩
  rw [(remapLog_exact source).1, hrewritten]

end Source
end ShaderBuild
