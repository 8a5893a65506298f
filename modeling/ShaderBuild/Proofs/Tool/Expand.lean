import Mathlib.Data.List.DropRight
import ShaderBuild.Proofs.Template.LineMap
import ShaderBuild.Proofs.Text.Decimal
import ShaderBuild.Tool.Expand

/-!
This module contains what is printed when a source is expanded with the origins of its lines. The
column of the origins is as wide as the longest one has bytes, so that none of them reaches into the
column of the lines, and both columns can be read back.
-/

namespace ShaderBuild

namespace LineOrigin

variable {origin origin' : LineOrigin}

theorem toList_text (origin : LineOrigin) :
    origin.text.toList = origin.file.toList ++ ':' :: (toString origin.line).toList := by
  simp [text, toString]

/--
The number behind the last colon is the line, whatever the name of the file is.
-/
theorem text_injective (h : origin.text = origin'.text) : origin = origin' := by
  rw [← String.toList_inj, toList_text, toList_text] at h
  have hcolon (n : Nat) : ':' ∉ (toString n).toList := Text.not_mem_toString (by decide) n
  -- no digit is a colon, so the line is what is behind the last one
  have hpieces := congrArg (Text.pieces ':') h
  rw [Text.pieces_append, Text.pieces_append, Text.pieces_of_not_mem (hcolon _),
    Text.pieces_of_not_mem (hcolon _)] at hpieces
  rcases List.append_inj' hpieces rfl with ⟨_, hdigits⟩
  injection hdigits with hdigits
  have hline := congrArg Text.digitsValue hdigits
  rw [Text.digitsValue_toString, Text.digitsValue_toString] at hline
  rw [hdigits, List.append_cancel_right_eq, String.toList_inj] at h
  cases origin
  cases origin'
  rw [mk.injEq]
  exact ⟨h, hline⟩

theorem rdropWhile_text (origin : LineOrigin) :
    origin.text.toList.rdropWhile (· = ' ') = origin.text.toList := by
  rcases List.eq_nil_or_concat (toString origin.line).toList with hnil | ⟨front, last, hdigits⟩
  . rw [Nat.toString_eq_repr, Nat.toList_repr] at hnil
    exact absurd hnil Nat.toDigits_ne_nil
  . have hmem : last ∈ (toString origin.line).toList := by
      rw [hdigits, List.concat_eq_append]
      exact List.mem_append_right _ List.mem_cons_self
    have hdigit := Text.isDigit_of_mem_toString hmem
    rw [toList_text, hdigits, List.concat_eq_append, ← List.cons_append, ← List.append_assoc,
      List.rdropWhile_concat_neg]
    rw [decide_eq_true_eq]
    rintro rfl
    cases hdigit

end LineOrigin

namespace Tool
namespace Expand

variable {width : Nat} {text line : String} {source : Source} {origin : LineOrigin}

theorem max?_eq_originWidth (h : source.origins ≠ []) :
    (source.origins.map fun origin => origin.text.utf8ByteSize).max? =
      some (originWidth source) := by
  unfold originWidth
  rw [List.foldl_max]
  cases hmax : (source.origins.map fun origin => origin.text.utf8ByteSize).max? with
  | none =>
    rw [List.max?_eq_none_iff, List.map_eq_nil_iff] at hmax
    contradiction
  | some width => simp

theorem utf8ByteSize_le_originWidth (h : origin ∈ source.origins) :
    origin.text.utf8ByteSize ≤ originWidth source := by
  have hmax := List.max?_eq_some_iff.mp (max?_eq_originWidth (List.ne_nil_of_mem h))
  exact hmax.2 _ (List.mem_map_of_mem h)

theorem length_le_originWidth (h : origin ∈ source.origins) :
    origin.text.length ≤ originWidth source :=
  Nat.le_trans (Text.length_le_utf8ByteSize _) (utf8ByteSize_le_originWidth h)

theorem exists_utf8ByteSize_eq_originWidth (h : source.origins ≠ []) :
    ∃ origin ∈ source.origins, origin.text.utf8ByteSize = originWidth source := by
  have hmax := List.max?_eq_some_iff.mp (max?_eq_originWidth h)
  exact List.mem_map.mp hmax.1

theorem toList_padTo (width : Nat) (text : String) :
    (padTo width text).toList = text.toList ++ List.replicate (width - text.length) ' ' := by
  unfold padTo
  rw [String.toList_append, String.toList_ofList]

theorem length_padTo (h : text.length ≤ width) : (padTo width text).toList.length = width := by
  rw [toList_padTo, List.length_append, List.length_replicate, String.length_toList]
  omega

theorem rdropWhile_append_replicate (cs : List Char) (n : Nat) :
    (cs ++ List.replicate n ' ').rdropWhile (· = ' ') = cs.rdropWhile (· = ' ') := by
  induction n with
  | zero => rw [List.replicate_zero, List.append_nil]
  | succ n ih =>
    rw [List.replicate_succ', ← List.append_assoc, List.rdropWhile_concat_pos, ih]
    exact decide_eq_true rfl

/--
A line behind its origin, which is padded to the width of the column.
-/
def entry (width : Nat) (origin : LineOrigin) (line : String) : String :=
  padTo width origin.text ++ " | " ++ line

theorem drop_entry (h : origin.text.length ≤ width) (line : String) :
    (entry width origin line).toList.drop (width + 3) = line.toList := by
  have hlength := length_padTo h
  unfold entry
  rw [String.toList_append, String.toList_append]
  apply List.drop_left'
  simp [hlength]

theorem rdropWhile_take_entry (h : origin.text.length ≤ width) (line : String) :
    ((entry width origin line).toList.take width).rdropWhile (· = ' ') = origin.text.toList := by
  have hlength := length_padTo h
  unfold entry
  rw [String.toList_append, String.toList_append, List.append_assoc, List.take_left' hlength,
    toList_padTo, rdropWhile_append_replicate, LineOrigin.rdropWhile_text]

/--
The template in which the command expands the source.
-/
def Settings.template? (here : Place) (s : Settings) : Option Template :=
  (config? here s).map fun config => Template.standard config (here.source s.root)

theorem run_eq {here : Place} {arguments : List String} {s : Settings} {t : Template}
    (hparse : Settings.parse? arguments = some s) (htemplate : s.template? here = some t)
    (hload : t.load s.name = .ok source) :
    run here arguments = ⟨0, if s.withOrigins then listing source else source.contents⟩ := by
  unfold Settings.template? at htemplate
  rw [Option.map_eq_some_iff] at htemplate
  rcases htemplate with ⟨config, hconfig, rfl⟩
  have hprint : print? here s =
      some (if s.withOrigins then listing source else source.contents) := by
    unfold print?
    rw [hconfig]
    dsimp only [Option.bind_eq_bind, Option.bind_some]
    rw [hload]
    rfl
  unfold run
  rw [hparse]
  dsimp only
  rw [hprint]

/--
The entries of the lines that were copied, each without a carriage return at its end.
-/
def entries (e : Expansion) : List String :=
  e.lines.map fun copied =>
    entry (originWidth e.source) copied.origin (String.ofList (Text.dropReturn copied.text.toList))

variable {e : Expansion}

theorem lines_source (h : ∀ line ∈ e.lines.map CopiedLine.text, '\n' ∉ line.toList) :
    Text.lines e.source.contents =
      e.lines.map fun copied => String.ofList (Text.dropReturn copied.text.toList) := by
  unfold Expansion.source
  rw [Text.lines_ofLines h, List.map_map]
  rfl

theorem listing_source (h : ∀ line ∈ e.lines.map CopiedLine.text, '\n' ∉ line.toList) :
    listing e.source = Text.ofLines (entries e) := by
  have horigins : e.source.origins = e.lines.map CopiedLine.origin := rfl
  unfold listing entries
  rw [lines_source h, horigins, List.zip_map', List.map_map]
  rfl

theorem length_le_of_mem {copied : CopiedLine} (h : copied ∈ e.lines) :
    copied.origin.text.length ≤ originWidth e.source :=
  length_le_originWidth (List.mem_map_of_mem h)

theorem map_drop_entries (h : ∀ line ∈ e.lines.map CopiedLine.text, '\n' ∉ line.toList) :
    ((entries e).map fun entry =>
        String.ofList (entry.toList.drop (originWidth e.source + 3)))
      =
    Text.lines e.source.contents := by
  unfold entries
  rw [lines_source h, List.map_map]
  apply List.map_congr_left
  intro copied hcopied
  dsimp only [Function.comp_apply]
  rw [drop_entry (length_le_of_mem hcopied), String.ofList_toList]

theorem origins_getElem?_iff {i : Nat} :
    e.source.origins[i]? = some origin
      ↔
    ∃ entry, (entries e)[i]? = some entry ∧
      String.ofList ((entry.toList.take (originWidth e.source)).rdropWhile (· = ' ')) =
        origin.text := by
  unfold entries
  show (e.lines.map CopiedLine.origin)[i]? = _ ↔ _
  rw [List.getElem?_map, List.getElem?_map]
  cases hcopied : e.lines[i]? with
  | none => simp
  | some copied =>
    have hle := length_le_of_mem (List.mem_of_getElem? hcopied)
    simp only [Option.map_some, Option.some.injEq, exists_eq_left', rdropWhile_take_entry hle,
      String.ofList_toList]
    constructor
    . rintro rfl
      rfl
    . exact LineOrigin.text_injective

/--
Listing the lines of a source that is loaded with their origins loses no line: there is an entry for
each, with the origin, as many spaces as its column needs, a separator, and the line without a
carriage return at its end. The column is as wide as the longest origin has bytes, and no origin has
more characters. So what is behind it are the lines that are printed without origins, and what is in
it, without the spaces at its end, tells which origin it is.
-/
theorem listing_exact {t : Template} {name : String} (h : t.load name = .ok source) :
    ∃ (width : Nat) (ls entries : List String),
      (source.contents = Text.ofLines ls ∧ ∀ line ∈ ls, '\n' ∉ line.toList) ∧
      (listing source = Text.ofLines entries ∧ entries.length = ls.length ∧
        source.origins.length = ls.length) ∧
      (∀ (i : Nat) line origin, ls[i]? = some line → source.origins[i]? = some origin →
        entries[i]? = some (origin.text ++
          String.ofList (List.replicate (width - origin.text.length) ' ') ++ " | " ++
            String.ofList (Text.dropReturn line.toList))) ∧
      ((∀ origin ∈ source.origins,
          origin.text.utf8ByteSize ≤ width ∧ origin.text.length ≤ width) ∧
        (source.origins ≠ [] → ∃ origin ∈ source.origins, origin.text.utf8ByteSize = width)) ∧
      (entries.map fun entry => String.ofList (entry.toList.drop (width + 3))) =
        Text.lines source.contents ∧
      (∀ (i : Nat) (origin : LineOrigin), source.origins[i]? = some origin ↔
        ∃ entry, entries[i]? = some entry ∧
          String.ofList ((entry.toList.take width).rdropWhile (· = ' ')) = origin.text) ∧
      ∀ here arguments s, Settings.parse? arguments = some s → s.template? here = some t →
        s.name = name →
          run here arguments =
            ⟨0, if s.withOrigins then Text.ofLines entries else source.contents⟩ := by
  rcases Template.Expands.of_load h with ⟨root, e, looked, _, hexpands, rfl⟩
  have hbreak := hexpands.not_mem_text fun _ hmem => hmem
  have hlisting := listing_source hbreak
  refine ⟨originWidth e.source, e.lines.map CopiedLine.text, entries e, ⟨rfl, hbreak⟩,
    ⟨hlisting, ?_, ?_⟩, ?_, ⟨?_, exists_utf8ByteSize_eq_originWidth⟩, map_drop_entries hbreak,
    fun _ _ => origins_getElem?_iff, ?_⟩
  . unfold entries
    rw [List.length_map, List.length_map]
  . unfold Expansion.source
    rw [List.length_map, List.length_map]
  . intro i line origin hline horigin
    unfold Expansion.source at horigin
    rw [List.getElem?_map, Option.map_eq_some_iff] at hline horigin
    rcases hline with ⟨copied, hcopied, rfl⟩
    rcases horigin with ⟨copied', hcopied', rfl⟩
    rw [hcopied, Option.some.injEq] at hcopied'
    subst hcopied'
    unfold entries
    rw [List.getElem?_map, hcopied]
    rfl
  . intro origin horigin
    exact ⟨utf8ByteSize_le_originWidth horigin, length_le_originWidth horigin⟩
  . rintro here arguments s hparse htemplate rfl
    rw [run_eq hparse htemplate h, hlisting]

/--
A name that takes more bytes than characters, next to a generated text, and a second carriage return
at the end of a line.
-/
theorem listing_exact_multibyte_name :
    let here := Place.inUnknown (.directory
      [("shaders", .directory
        [("größenänderung.glsl", .file "#include <version_header>\nfloat größe;\r\r\n\n".toUTF8)])])
    let t := Template.standard {} (here.source "shaders")
    let source : Source :=
      ⟨"#version 430\nfloat größe;\r\n\n",
        [⟨"version_header", 1⟩, ⟨"größenänderung.glsl", 2⟩, ⟨"größenänderung.glsl", 3⟩]⟩
    t.load "größenänderung.glsl" = .ok source ∧
      run here ["shaders", "größenänderung.glsl", "--map"] =
        ⟨0, "version_header:1         | #version 430\n" ++
          "größenänderung.glsl:2    | float größe;\n" ++ "größenänderung.glsl:3    | \n"⟩ := by
  intro here t source
  have hload : t.load "größenänderung.glsl" = .ok source := by
    rw [← toOption_eq_some_iff]
    simp only [t, here, source]
    decide +kernel
  rcases listing_exact hload with ⟨_, _, entries, _, ⟨hlisting, _, _⟩, _, _, _, _, hrun⟩
  have hrun := hrun here ["shaders", "größenänderung.glsl", "--map"]
    ⟨"shaders", "größenänderung.glsl", none, none, none, none, true⟩ rfl rfl rfl
  refine ⟨hload, ?_⟩
  rw [hrun, if_pos rfl, ← hlisting]
  simp only [source]
  decide +kernel

end Expand
end Tool
end ShaderBuild
