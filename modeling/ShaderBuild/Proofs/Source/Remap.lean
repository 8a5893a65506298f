import ShaderBuild.Proofs.Text.Decimal
import ShaderBuild.Proofs.Text.Pieces
import ShaderBuild.Source.Remap

/-!
This module contains the rewriting of logs line by line: what it does to a log entry as drivers
write it, and that the lines of a log do not touch each other.
-/

namespace ShaderBuild

theorem Text.toList_join (sep : String) (texts : List String) :
    (Text.join sep texts).toList = sep.toList.intercalate (texts.map String.toList) := by
  unfold Text.join
  rw [String.toList_intercalate]

namespace LogEntry

/--
The log line for an entry, as drivers write it.
-/
def text (entry : LogEntry) : List Char :=
  '0' :: ':' :: ((toString entry.line).toList ++
    '(' :: ((toString entry.column).toList ++ ')' :: ':' :: entry.message))

theorem parse?_eq_some_iff {cs : List Char} {entry : LogEntry} :
    parse? cs = some entry
      ↔
    ∃ line column,
      cs = '0' :: ':' :: (line ++ '(' :: (column ++ ')' :: ':' :: entry.message)) ∧
        Text.word? line = some entry.line ∧ Text.word? column = some entry.column ∧
          entry.message.head? = some ' ' := by
  constructor
  . intro h
    unfold parse? at h
    simp only [Option.bind_eq_bind, Option.bind_eq_some_iff, Text.after?_eq_some_iff,
      Text.spanDigits] at h
    rcases h with ⟨first, rfl, second, hopen, message, hclose, h⟩
    split at h
    . next hmessage =>
      simp only [Option.bind_eq_some_iff] at h
      rcases h with ⟨line, hline, column, hcolumn, hentry⟩
      cases hentry
      have hfirst := List.takeWhile_append_dropWhile (p := Char.isDigit) (l := first)
      have hsecond := List.takeWhile_append_dropWhile (p := Char.isDigit) (l := second)
      rw [hopen] at hfirst
      rw [hclose] at hsecond
      refine ⟨_, _, ?_, hline, hcolumn, hmessage⟩
      simp only [List.cons_append, List.nil_append] at hfirst hsecond ⊢
      rw [hsecond, hfirst]
    . cases h
  . rintro ⟨line, column, rfl, hline, hcolumn, hmessage⟩
    have hopen : Char.isDigit '(' = false := by decide
    have hclose : Char.isDigit ')' = false := by decide
    have hlineDigits := (Text.word?_eq_some_iff.mp hline).2.1
    have hcolumnDigits := (Text.word?_eq_some_iff.mp hcolumn).2.1
    simp only [parse?, Text.after?, if_true, Option.bind_eq_bind, Option.bind_some,
      Text.spanDigits_append hlineDigits hopen, Text.spanDigits_append hcolumnDigits hclose,
      hline, hcolumn, hmessage]
    rfl

theorem parse?_text {entry : LogEntry} (hline : entry.line < Text.wordLimit)
    (hcolumn : entry.column < Text.wordLimit) (hmessage : entry.message.head? = some ' ') :
    parse? entry.text = some entry := by
  rw [parse?_eq_some_iff]
  exact ⟨_, _, rfl, Text.word?_toString hline, Text.word?_toString hcolumn, hmessage⟩

theorem not_mem_text {entry : LogEntry} (h : '\n' ∉ entry.message) : '\n' ∉ entry.text := by
  have hnumber : ∀ n : Nat, '\n' ∉ (toString n).toList := Text.not_mem_toString (by decide)
  unfold text
  simp only [List.mem_cons, List.mem_append, not_or]
  exact ⟨by decide, by decide, hnumber _, by decide, hnumber _, by decide, by decide, h⟩

end LogEntry

namespace Source

variable {source : Source}

theorem remapLine_text {entry : LogEntry} {origin : LineOrigin}
    (hline : entry.line < Text.wordLimit) (hcolumn : entry.column < Text.wordLimit)
    (hmessage : entry.message.head? = some ' ')
    (horigin : source.lineOrigin? entry.line = some origin) :
    source.remapLine entry.text = s!"{origin.text}({entry.column}):".toList ++ entry.message := by
  unfold remapLine
  rw [LogEntry.parse?_text hline hcolumn hmessage]
  dsimp only
  rw [horigin]

theorem remapLine_of_head {line : List Char} (h : line.head? ≠ some '0') :
    source.remapLine line = line := by
  unfold remapLine LogEntry.parse?
  cases line with
  | nil => rfl
  | cons c cs =>
    rw [List.head?_cons, ne_eq, Option.some.injEq] at h
    simp [Text.after?, Ne.symm h]

theorem remapLog_join {ls : List String} (h : ∀ line ∈ ls, '\n' ∉ line.toList) :
    source.remapLog (Text.join "\n" ls) =
      Text.join "\n" (ls.map fun line => String.ofList (source.remapLine line.toList)) := by
  unfold remapLog
  rw [← String.toList_inj, String.toList_ofList, Text.toList_join, Text.toList_join]
  cases ls with
  | nil => rfl
  | cons line rest =>
    have hpieces : Text.pieces '\n' ("\n".toList.intercalate ((line :: rest).map String.toList)) =
        (line :: rest).map String.toList := by
      apply Text.pieces_intercalate
      . simp
      . simpa using h
    rw [hpieces, List.map_map, List.map_map]
    congr 1
    simp

end Source
end ShaderBuild
