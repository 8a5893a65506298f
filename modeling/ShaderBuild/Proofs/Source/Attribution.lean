import Mathlib.Data.List.Forall2
import ShaderBuild.Proofs.FrontEnd.Position
import ShaderBuild.Proofs.Source.Remap
import ShaderBuild.Proofs.Template.LineMap

/-!
This module contains where the errors of the front end end up: in a log that is rewritten, each
located error points to the authored line that its byte was copied from.
-/

namespace ShaderBuild

/--
A character of the text starts at the offset.
-/
def Text.IsCharStart (text : String) (offset : Nat) : Prop :=
  ∃ l c cs, text.toList = l ++ c :: cs ∧ byteSize l = offset

namespace ParseError

variable {e : ParseError}

theorem toList_logLine_of_located (h : e.isLocated = true) (contents : String) :
    (e.logLine contents).toList =
      LogEntry.text ⟨(Position.ofOffset contents e.start).line,
        (Position.ofOffset contents e.start).column, (" error: " ++ e.text).toList⟩ := by
  unfold logLine
  rw [if_pos h]
  simp [LogEntry.text, toString]

theorem logLine_of_unlocated (h : e.isLocated = false) (contents : String) :
    e.logLine contents = s!"error: {e.text}" := by
  unfold logLine
  rw [if_neg]
  rw [h]
  decide

theorem not_mem_logLine (h : '\n' ∉ e.text.toList) (contents : String) :
    '\n' ∉ (e.logLine contents).toList := by
  cases hlocated : e.isLocated with
  | true =>
    rw [toList_logLine_of_located hlocated]
    apply LogEntry.not_mem_text
    simpa using h
  | false =>
    rw [logLine_of_unlocated hlocated]
    simpa [toString] using h

end ParseError

namespace Source

variable {source : Source} {e : ParseError}

/--
The offset of a line of the contents, counted from zero.
-/
def lineStart (source : Source) (k : Nat) : Nat :=
  Text.pieceStart '\n' source.contents.toList k

/--
The line of a rewritten log that says of an error which authored line it is in. An error without a
location is only named.
-/
inductive Attributed (source : Source) (e : ParseError) : String → Prop
  | located {k column : Nat} {origin : LineOrigin} :
    e.isLocated = true → source.lineStart k ≤ e.start → e.start < source.lineStart (k + 1) →
      source.origins[k]? = some origin → column = e.start - source.lineStart k + 1 →
        Attributed source e s!"{origin.file}:{origin.line}({column}): error: {e.text}"
  | unlocated : e.isLocated = false → Attributed source e s!"error: {e.text}"

theorem ofList_entry (origin : LineOrigin) (column : Nat) (text : String) :
    String.ofList (s!"{origin.text}({column}):".toList ++ (" error: " ++ text).toList) =
      s!"{origin.file}:{origin.line}({column}): error: {text}" := by
  rw [← String.toList_inj]
  simp [LineOrigin.text, toString]

theorem attributed_of_located
    (hlength : source.origins.length = (Text.lines source.contents).length)
    (hsize : Text.byteSize source.contents.toList < Text.wordLimit) (hlocated : e.isLocated = true)
    (hstart : Text.IsCharStart source.contents e.start) :
    Attributed source e (String.ofList (source.remapLine (e.logLine source.contents).toList)) := by
  rcases hstart with ⟨l, c, cs, hcontents, hl⟩
  have hle : source.lineStart (l.count '\n') ≤ e.start := by
    unfold lineStart
    rw [hcontents, ← hl]
    apply Text.pieceStart_count_le
  have hlt : e.start < source.lineStart (l.count '\n' + 1) := by
    unfold lineStart
    rw [hcontents, ← hl]
    apply Text.lt_pieceStart_count_succ
  have hcount : l.count '\n' < source.origins.length := by
    rw [hlength, Text.lines, List.length_map, hcontents]
    apply Text.count_lt_length_cutLines
  -- neither number exceeds the size of the contents, so both are read back
  have hbytes : e.start + 1 < Text.wordLimit := by
    have hpos := Char.utf8Size_pos c
    rw [hcontents, Text.byteSize_append, Text.byteSize_cons] at hsize
    omega
  have hline : l.count '\n' + 1 < Text.wordLimit := by
    have := Text.count_le_byteSize '\n' l
    omega
  have hcolumn : e.start - source.lineStart (l.count '\n') + 1 < Text.wordLimit := by
    omega
  have horigin := List.getElem?_eq_getElem hcount
  have hposition := Position.ofOffset_eq hcontents
  have hremap : source.remapLine (LogEntry.text ⟨l.count '\n' + 1,
      e.start - source.lineStart (l.count '\n') + 1, (" error: " ++ e.text).toList⟩) = _ :=
    remapLine_text hline hcolumn (by simp) horigin
  rw [hl] at hposition
  unfold lineStart at hremap
  rw [ParseError.toList_logLine_of_located hlocated, hposition, hremap, ofList_entry]
  exact .located hlocated hle hlt horigin rfl

theorem attributed_of_unlocated (h : e.isLocated = false) :
    Attributed source e (String.ofList (source.remapLine (e.logLine source.contents).toList)) := by
  rw [ParseError.logLine_of_unlocated h, remapLine_of_head, String.ofList_toList]
  . exact .unlocated h
  . simp [toString]

/--
The errors of the front end in a text that was loaded or is a file as it stands. Its log, rewritten
by the origins of the text, has a line for each error in their order, which attributes the error to
the authored line that holds its first byte.
-/
theorem remapLog_log {errors : List ParseError}
    (hsource : (∃ (t : Template) (name : String), t.load name = .ok source) ∨
      ∃ file contents, source = identity file contents)
    (hsize : Text.byteSize source.contents.toList < Text.wordLimit)
    (htexts : ∀ e ∈ errors, '\n' ∉ e.text.toList)
    (hstarts : ∀ e ∈ errors, e.isLocated = true → Text.IsCharStart source.contents e.start) :
    ∃ lines, List.Forall₂ (Attributed source) errors lines ∧
      source.remapLog (ParseError.log source.contents errors) = Text.join "\n" lines := by
  have hlength : source.origins.length = (Text.lines source.contents).length := by
    rcases hsource with ⟨t, name, hload⟩ | ⟨file, contents, rfl⟩
    . exact Template.length_origins_of_load hload
    . apply identity_origins_length
  have hlog : ∀ line ∈ errors.map (ParseError.logLine source.contents), '\n' ∉ line.toList := by
    intro line hline
    rw [List.mem_map] at hline
    rcases hline with ⟨e, he, rfl⟩
    apply ParseError.not_mem_logLine (htexts e he)
  refine ⟨_, ?_, remapLog_join hlog⟩
  rw [List.map_map, List.forall₂_map_right_iff, List.forall₂_same]
  intro e he
  cases hlocated : e.isLocated with
  | true => exact attributed_of_located hlength hsize hlocated (hstarts e he hlocated)
  | false => exact attributed_of_unlocated hlocated

/--
An error in a line that was included, one in the line behind it, and one without a location.
-/
theorem remapLog_log_included :
    let t := (Template.empty.addSnippet "main" "#include <common>\ny").addSnippet "common" "z\r\n"
    let source : Source := ⟨"z\ny\n", [⟨"common", 1⟩, ⟨"main", 2⟩]⟩
    let errors : List ParseError :=
      [⟨0, 1, "unknown name"⟩, ⟨2, 3, "unknown type"⟩, ⟨0, 0, "end of file"⟩]
    t.load "main" = .ok source ∧
      ∃ lines, List.Forall₂ (Attributed source) errors lines ∧
        source.remapLog (ParseError.log source.contents errors) = Text.join "\n" lines := by
  intro t source errors
  have hload : t.load "main" = .ok source := by
    rw [← toOption_eq_some_iff]
    simp only [t, source]
    decide +kernel
  refine ⟨hload, remapLog_log (.inl ⟨t, "main", hload⟩) ?_ ?_ ?_⟩
  . decide
  . simp [errors]
  . intro e he hlocated
    simp only [errors, List.mem_cons, List.not_mem_nil, or_false] at he
    rcases he with rfl | rfl | rfl
    . exact ⟨[], 'z', ['\n', 'y', '\n'], by simp [source], rfl⟩
    . exact ⟨['z', '\n'], 'y', ['\n'], by simp [source], rfl⟩
    . cases hlocated

end Source
end ShaderBuild
