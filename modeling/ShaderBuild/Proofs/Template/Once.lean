import Mathlib.Data.List.Nodup
import ShaderBuild.Proofs.Template.LineMap
import ShaderBuild.Proofs.Template.Lookup

/-!
This module contains how often the texts that ask for it are expanded. Under one key that is at most
once. A file of a directory can have two keys, with and without a slash in front, so a line of it is
there at most once if only one of them is in use.
-/

namespace ShaderBuild

/--
No include in a file of the source gives its path from the root.
-/
def IncludeSource.HasRelativeIncludes (source : IncludeSource) : Prop :=
  ∀ path text, Path.IsNormal path → source.read path = .ok (some text) →
    ∀ line ∈ Text.lines text, ∀ name, Directive.parse? line = some (.includeFile name) →
      name.toList.head? ≠ some '/'

namespace Template

/--
The text has a line that asks for it to be expanded at most once.
-/
def HasPragmaOnce (text : String) : Prop :=
  ∃ line ∈ Text.lines text, Directive.parse? line = some .pragmaOnce

/--
Every text that is found under the key asks for it to be expanded at most once.
-/
def IsOnceOnly (t : Template) (key : String) : Prop :=
  ∀ includer name found, t.lookup includer name = .ok (some found) → found.key = key →
    HasPragmaOnce found.text

/--
The numbers of the lines of a text that are copied, which are no directives.
-/
def copiedNumbers (text : String) : List Nat :=
  ((Text.numberedLines text).filter fun entry => (Directive.parse? entry.2).isNone).map Prod.fst

theorem pairwise_copiedNumbers (text : String) : (copiedNumbers text).Pairwise (· < ·) := by
  unfold copiedNumbers
  rw [List.pairwise_map]
  apply List.Pairwise.filter
  apply Text.numberedLines_pairwise

/--
There is no line of the key, or its lines are those of one text that was found under it, each once,
and nothing is to be expanded under it again.
-/
def ExpandsOnce (t : Template) (key : String) (e : Expansion) : Prop :=
  (∀ copied ∈ e.lines, copied.origin.file ≠ key) ∨
    key ∈ e.once ∧ ∃ includer name found,
      t.lookup (some includer) name = .ok (some found) ∧ found.key = key ∧
        (e.lines.filter fun copied => copied.origin.file = key).map
          (fun copied => copied.origin.line) = copiedNumbers found.text

variable {t : Template} {stack once : List String} {key other : String} {ls : List (Nat × String)}
variable {e : Expansion} {looked : List Found}

namespace Expands

theorem once_subset (h : Expands t stack key ls once e looked) : once ⊆ e.once := by
  induction h with
  | nil => exact List.Subset.refl _
  | copy _ _ ih | skip _ _ _ _ ih => exact ih
  | pragmaOnce _ _ ih => exact List.Subset.trans (List.subset_cons_self _ _) ih
  | enter _ _ _ _ _ _ ihInner ih => exact List.Subset.trans ihInner ih

theorem key_mem_once (h : Expands t stack key ls once e looked)
    (hpragma : ∃ line ∈ ls.map Prod.snd, Directive.parse? line = some .pragmaOnce) :
    key ∈ e.once := by
  induction h with
  | nil => simp at hpragma
  | pragmaOnce _ hrest _ => exact hrest.once_subset List.mem_cons_self
  | copy hparse _ ih | skip hparse _ _ _ ih | enter hparse _ _ _ _ _ _ ih =>
    rw [List.map_cons, List.exists_mem_cons_iff, hparse] at hpragma
    apply ih
    simpa using hpragma

/--
What is not to be expanded again is not expanded again.
-/
theorem file_ne_of_mem_once (h : Expands t stack key ls once e looked) (honce : other ∈ once)
    (hne : other ≠ key) : ∀ copied ∈ e.lines, copied.origin.file ≠ other := by
  induction h with
  | nil => simp
  | copy _ _ ih =>
    rw [List.forall_mem_cons]
    exact ⟨hne.symm, ih honce hne⟩
  | pragmaOnce _ _ ih => exact ih (List.mem_cons_of_mem _ honce) hne
  | skip _ _ _ _ ih => exact ih honce hne
  | @enter _ _ _ _ _ found _ _ _ _ _ _ _ _ hfound _ hinner _ ihInner ih =>
    rw [List.forall_mem_append]
    refine ⟨ihInner honce ?_, ih (hinner.once_subset honce) hne⟩
    intro heq
    exact hfound (heq ▸ honce)

theorem expandsOnce (h : Expands t stack key ls once e looked) (hkey : key ∈ stack)
    (hother : other ∉ stack) (honly : t.IsOnceOnly other) : t.ExpandsOnce other e := by
  unfold ExpandsOnce
  induction h with
  | nil => simp
  | copy _ _ ih =>
    have hne := ne_of_mem_of_not_mem hkey hother
    rw [List.forall_mem_cons, List.filter_cons_of_neg (by simpa using hne)]
    exact (ih hkey hother).imp_left fun hnone => ⟨hne, hnone⟩
  | pragmaOnce _ _ ih | skip _ _ _ _ ih => exact ih hkey hother
  | @enter stack key _ _ name found _ _ inner e _ _ _ hlookup _ _ hinner hrest ihInner ih =>
    have hfound : found.key ∈ stack ++ [found.key] :=
      List.mem_append_right _ List.mem_cons_self
    have hentered : t.ExpandsOnce other inner := by
      by_cases heq : found.key = other
      . rw [← heq]
        refine .inr ⟨?_, key, name, found, hlookup, rfl, hinner.ownLines_eq hfound⟩
        apply hinner.key_mem_once
        rw [Text.map_snd_numberedLines]
        exact honly _ _ found hlookup heq
      . apply ihInner hfound
        simp [hother, Ne.symm heq]
    rw [List.filter_append, List.forall_mem_append]
    rcases hentered with hnone | ⟨honce, hlines⟩
    . rw [List.filter_eq_nil_iff.mpr (by simpa using hnone), List.nil_append]
      exact (ih hkey hother).imp_left fun hnone' => ⟨hnone, hnone'⟩
    . -- the text is in the set now, so what follows holds no line of it
      have hnone := hrest.file_ne_of_mem_once honce (ne_of_mem_of_not_mem hkey hother).symm
      rw [List.filter_eq_nil_iff (l := e.lines).mpr (by simpa using hnone), List.append_nil]
      exact .inr ⟨hrest.once_subset honce, hlines⟩

theorem forall_file {P Q : String → Prop} (h : Expands t stack key ls once e looked) (hkey : P key)
    (hls : ∀ line ∈ ls.map Prod.snd, Q line)
    (hfound : ∀ key line name found, P key → Q line →
      Directive.parse? line = some (.includeFile name) →
        t.lookup (some key) name = .ok (some found) →
          P found.key ∧ ∀ line ∈ Text.lines found.text, Q line) :
    ∀ copied ∈ e.lines, P copied.origin.file := by
  induction h with
  | nil => simp
  | copy _ _ ih =>
    rw [List.map_cons, List.forall_mem_cons] at hls
    rw [List.forall_mem_cons]
    exact ⟨hkey, ih hkey hls.2⟩
  | pragmaOnce _ _ ih | skip _ _ _ _ ih =>
    rw [List.map_cons, List.forall_mem_cons] at hls
    exact ih hkey hls.2
  | enter hparse hlookup _ _ _ _ ihInner ih =>
    rw [List.map_cons, List.forall_mem_cons] at hls
    rw [List.forall_mem_append]
    rcases hfound _ _ _ _ hkey hls.1 hparse hlookup with ⟨hkey', hlines⟩
    refine ⟨ihInner hkey' ?_, ih hkey hls.2⟩
    rw [Text.map_snd_numberedLines]
    exact hlines

end Expands

variable {name : String} {source : Source}

theorem origins_eq_lines_map (e : Expansion) :
    e.source.origins = e.lines.map CopiedLine.origin :=
  rfl

/--
Under a key all texts of which ask for it, there are no lines or those of one text, each once.
-/
theorem origins_eq_of_isOnceOnly (h : t.load name = .ok source) (honly : t.IsOnceOnly key) :
    (∀ origin ∈ source.origins, origin.file ≠ key) ∨
      ∃ includer name found, t.lookup includer name = .ok (some found) ∧ found.key = key ∧
        (source.origins.filter fun origin => origin.file = key).map LineOrigin.line
          = copiedNumbers found.text := by
  rcases Expands.of_load h with ⟨root, e, looked, hlookup, hexpands, rfl⟩
  rw [origins_eq_lines_map, List.forall_mem_map, List.filter_map, List.map_map]
  by_cases heq : root.key = key
  . rw [← heq]
    exact .inr ⟨none, name, root, hlookup, rfl, hexpands.ownLines_eq List.mem_cons_self⟩
  . have hroot : key ∉ [root.key] := by simpa using Ne.symm heq
    rcases hexpands.expandsOnce List.mem_cons_self hroot honly with hnone | ⟨_, includer, hlines⟩
    . exact .inl hnone
    . exact .inr ⟨some includer, hlines⟩

theorem pairwise_origins_of_isOnceOnly (h : t.load name = .ok source) (honly : t.IsOnceOnly key) :
    ((source.origins.filter fun origin => origin.file = key).map LineOrigin.line).Pairwise
      (· < ·) := by
  rcases origins_eq_of_isOnceOnly h honly with hnone | ⟨_, _, _, _, _, hlines⟩
  . rw [List.filter_eq_nil_iff.mpr (by simpa using hnone)]
    exact .nil
  . rw [hlines]
    apply pairwise_copiedNumbers

/--
What holds of the key of the root text and carries over to what is included holds of the keys of all
lines. What holds of all lines on the way can be used for that.
-/
theorem forall_mem_origins {P Q : String → Prop} (h : t.load name = .ok source)
    (hroot : ∀ root, t.lookup none name = .ok (some root) →
      P root.key ∧ ∀ line ∈ Text.lines root.text, Q line)
    (hfound : ∀ key line name found, P key → Q line →
      Directive.parse? line = some (.includeFile name) →
        t.lookup (some key) name = .ok (some found) →
          P found.key ∧ ∀ line ∈ Text.lines found.text, Q line) :
    ∀ origin ∈ source.origins, P origin.file := by
  rcases Expands.of_load h with ⟨root, e, looked, hlookup, hexpands, rfl⟩
  rcases hroot root hlookup with ⟨hkey, hlines⟩
  rw [origins_eq_lines_map, List.forall_mem_map]
  apply hexpands.forall_file hkey _ hfound
  rw [Text.map_snd_numberedLines]
  exact hlines

section Directory

variable {place : Place} {directory file text : String}

variable (hproviders : t.providers = []) (hsources : t.sources = [place.source directory])
include hproviders hsources

theorem lookup_of_directory {includer : Option String} {found : Found}
    (h : t.lookup includer name = .ok (some found)) :
    sourcePath? includer name = some found.key ∧
      (place.source directory).read found.key = .ok (some found.text) := by
  rcases lookup_eq_some h with ⟨hprovide, _⟩ | ⟨_, hpath, hread⟩
  . unfold provide? at hprovide
    rw [hproviders] at hprovide
    cases hprovide
  . rcases readFirst_eq_some hread with ⟨_, source, hmem, htext⟩
    rw [hsources, List.mem_singleton] at hmem
    rw [hmem] at htext
    exact ⟨hpath, htext⟩

theorem isNormal_of_mem_origins (h : t.load name = .ok source) :
    ∀ origin ∈ source.origins, Path.IsNormal origin.file := by
  have hnormal (includer : Option String) (name : String) (found : Found)
      (hlookup : t.lookup includer name = .ok (some found)) :
      Path.IsNormal found.key ∧ ∀ line ∈ Text.lines found.text, True :=
    ⟨isNormal_of_sourcePath? (lookup_of_directory hproviders hsources hlookup).1,
      fun _ _ => trivial⟩
  apply forall_mem_origins h (hnormal none name)
  intro key line included found _ _ _
  exact hnormal (some key) included found

/--
If no path is given from the root apart from that of the root text, the keys of all lines agree with
it in whether they start with a slash.
-/
theorem head?_of_mem_origins
    (hrelative : name.toList.head? = some '/' ∨ (place.source directory).HasRelativeIncludes)
    (h : t.load name = .ok source) :
    ∀ origin ∈ source.origins,
      origin.file.toList.head? = some '/' ↔ name.toList.head? = some '/' := by
  have hlines {includer : Option String} {included : String} {found : Found}
      (hlookup : t.lookup includer included = .ok (some found)) :
      ∀ line ∈ Text.lines found.text, name.toList.head? = some '/' ∨
        ∀ included, Directive.parse? line = some (.includeFile included) →
          included.toList.head? ≠ some '/' := by
    rcases lookup_of_directory hproviders hsources hlookup with ⟨hpath, hread⟩
    intro line hline
    exact hrelative.imp_right fun hrelative =>
      hrelative _ _ (isNormal_of_sourcePath? hpath) hread line hline
  apply forall_mem_origins (P := fun key =>
    key.toList.head? = some '/' ↔ name.toList.head? = some '/') h
  . intro root hlookup
    have hpath := (lookup_of_directory hproviders hsources hlookup).1
    exact ⟨Path.head?_of_normalize? hpath, hlines hlookup⟩
  . intro key line included found hkey hline hparse hlookup
    have hpath := (lookup_of_directory hproviders hsources hlookup).1
    unfold sourcePath? at hpath
    dsimp only at hpath
    rw [Path.resolve?_eq] at hpath
    refine ⟨?_, hlines hlookup⟩
    rw [Path.head?_of_normalize? hpath, Path.head?_target, hkey]
    rcases hline with hname | hnot
    . simp [hname]
    . simp [hnot included hparse]

theorem text_eq_of_directory {includer : Option String} {found : Found}
    (hread : place.read (Path.join directory file) = .ok text) (hkey : Path.fromRoot key = file)
    (h : t.lookup includer name = .ok (some found)) (heq : found.key = key) :
    found.text = text := by
  have hfound := (lookup_of_directory hproviders hsources h).2
  rw [Place.source_read_eq_some_iff, heq, hkey, hread] at hfound
  exact (Except.ok.inj hfound).symm

theorem isOnceOnly_of_directory (hread : place.read (Path.join directory file) = .ok text)
    (hpragma : HasPragmaOnce text) (hkey : Path.fromRoot key = file) : t.IsOnceOnly key := by
  intro includer name found hlookup heq
  rw [text_eq_of_directory hproviders hsources hread hkey hlookup heq]
  exact hpragma

theorem origins_eq_of_directory (hread : place.read (Path.join directory file) = .ok text)
    (hpragma : HasPragmaOnce text) (h : t.load name = .ok source)
    (hkey : Path.fromRoot key = file) :
    (∀ origin ∈ source.origins, origin.file ≠ key) ∨
      (source.origins.filter fun origin => origin.file = key).map LineOrigin.line
        = copiedNumbers text := by
  have honly := isOnceOnly_of_directory hproviders hsources hread hpragma hkey
  rcases origins_eq_of_isOnceOnly h honly with hnone | ⟨includer, name, found, hlookup, heq, hlines⟩
  . exact .inl hnone
  . rw [text_eq_of_directory hproviders hsources hread hkey hlookup heq] at hlines
    exact .inr hlines

theorem pairwise_origins_of_directory (hread : place.read (Path.join directory file) = .ok text)
    (hpragma : HasPragmaOnce text) (h : t.load name = .ok source)
    (hkey : Path.fromRoot key = file) :
    ((source.origins.filter fun origin => origin.file = key).map LineOrigin.line).Pairwise
      (· < ·) :=
  pairwise_origins_of_isOnceOnly h
    (isOnceOnly_of_directory hproviders hsources hread hpragma hkey)

/--
No line of the file is there twice exactly if only one of its keys is in use.
-/
theorem nodup_origins_iff (hread : place.read (Path.join directory file) = .ok text)
    (hpragma : HasPragmaOnce text) (h : t.load name = .ok source) :
    ((source.origins.filter fun origin => Path.fromRoot origin.file = file).map
        LineOrigin.line).Nodup
      ↔
    ∀ origin ∈ source.origins, ∀ origin' ∈ source.origins, Path.fromRoot origin.file = file →
      Path.fromRoot origin'.file = file → origin.file = origin'.file := by
  constructor
  . intro hnodup origin hmem origin' hmem' hfile hfile'
    have hnumbers {other : LineOrigin} (hother : other ∈ source.origins)
        (hfile : Path.fromRoot other.file = file) :
        (source.origins.filter fun origin => origin.file = other.file).map LineOrigin.line
          = copiedNumbers text := by
      rcases origins_eq_of_directory hproviders hsources hread hpragma h hfile with hnone | hlines
      . exact absurd rfl (hnone other hother)
      . exact hlines
    -- under both keys there are the same lines, so this one has a twin under the other key
    have htwin : origin.line ∈
        (source.origins.filter fun other => other.file = origin'.file).map LineOrigin.line := by
      rw [hnumbers hmem' hfile', ← hnumbers hmem hfile]
      apply List.mem_map_of_mem
      simp [hmem]
    simp only [List.mem_map, List.mem_filter, decide_eq_true_eq] at htwin
    rcases htwin with ⟨twin, ⟨htwin, hkey⟩, hline⟩
    have heq : twin = origin := by
      apply List.inj_on_of_nodup_map hnodup _ _ hline
      . simp [htwin, hkey, hfile']
      . simp [hmem, hfile]
    rw [← heq, hkey]
  . intro hsame
    rw [List.Nodup, List.pairwise_map, List.pairwise_filter, List.pairwise_iff_forall_sublist]
    intro origin origin' hpair hfile hfile'
    rw [decide_eq_true_eq] at hfile hfile'
    have hkey := hsame origin' (hpair.subset (by simp)) origin (hpair.subset (by simp)) hfile' hfile
    have hordered := pairwise_origins_of_directory hproviders hsources hread hpragma h hfile
    rw [List.pairwise_map, List.pairwise_filter, List.pairwise_iff_forall_sublist] at hordered
    exact Nat.ne_of_lt (hordered hpair (decide_eq_true rfl) (decide_eq_true hkey))

/--
A file that asks for it is expanded at most once under each of its keys, which are its path with and
without a slash in front. Its lines are there at most once exactly if only one of the keys is in
use. Both can be in use only if a path without such a slash is loaded and an include gives a path
with one.
-/
theorem load_directory_once (hread : place.read (Path.join directory file) = .ok text)
    (hpragma : HasPragmaOnce text) (h : t.load name = .ok source) :
    (∀ key, Path.fromRoot key = file →
      ((source.origins.filter fun origin => origin.file = key).map LineOrigin.line).Pairwise
        (· < ·)) ∧
      (∀ origin ∈ source.origins, Path.fromRoot origin.file = file →
        origin.file = file ∨ origin.file = "/" ++ file) ∧
      (((source.origins.filter fun origin => Path.fromRoot origin.file = file).map
          LineOrigin.line).Nodup ↔
        ∀ origin ∈ source.origins, ∀ origin' ∈ source.origins, Path.fromRoot origin.file = file →
          Path.fromRoot origin'.file = file → origin.file = origin'.file) ∧
      (name.toList.head? = some '/' ∨ (place.source directory).HasRelativeIncludes →
        ((source.origins.filter fun origin => Path.fromRoot origin.file = file).map
          LineOrigin.line).Nodup) := by
  have hnormal := isNormal_of_mem_origins hproviders hsources h
  have hiff := nodup_origins_iff hproviders hsources hread hpragma h
  refine ⟨?_, ?_, hiff, ?_⟩
  . intro key hkey
    exact pairwise_origins_of_directory hproviders hsources hread hpragma h hkey
  . intro origin hmem hfile
    rcases Path.toList_fromRoot_of_isNormal (hnormal origin hmem) with ⟨_, _, _, _, hpath⟩
    rw [hfile] at hpath
    split at hpath
    . exact .inr (String.toList_inj.mp (by simpa using hpath))
    . exact .inl (String.toList_inj.mp hpath)
  . intro hrelative
    have hheads := head?_of_mem_origins hproviders hsources hrelative h
    rw [hiff]
    intro origin hmem origin' hmem' hfile hfile'
    apply Path.eq_of_fromRoot_eq (hnormal _ hmem) (hnormal _ hmem') (hfile.trans hfile'.symm)
    rw [hheads _ hmem, hheads _ hmem']

end Directory

/--
A file that asks for it is included by two spellings of its path, one of which goes through the
parent directory.
-/
theorem load_directory_once_spellings :
    let library := "#pragma once\nfloat x;\n"
    let tree : FileTree := .directory [("shaders", .directory
      [("gpu", .directory
        [("main.glsl", .file "#include \"lib.glsl\"\n#include \"../gpu/./lib.glsl\"\n".toUTF8),
          ("lib.glsl", .file library.toUTF8)])])]
    let place := Place.inUnknown tree
    let t := empty.addSource (place.source "shaders")
    let source : Source := ⟨"float x;\n", [⟨"/gpu/lib.glsl", 2⟩]⟩
    t.load "/gpu/main.glsl" = .ok source ∧
      place.read (Path.join "shaders" "gpu/lib.glsl") = .ok library ∧ HasPragmaOnce library ∧
        ((source.origins.filter fun origin =>
          Path.fromRoot origin.file = "gpu/lib.glsl").map LineOrigin.line).Nodup := by
  intro library tree place t source
  have hload : t.load "/gpu/main.glsl" = .ok source := by
    rw [← toOption_eq_some_iff]
    simp only [t, place, tree, library, source]
    decide +kernel
  have hread : place.read (Path.join "shaders" "gpu/lib.glsl") = .ok library := by
    rw [← toOption_eq_some_iff]
    simp only [place, tree, library]
    decide +kernel
  have hpragma : HasPragmaOnce library := ⟨"#pragma once", by decide +kernel, by decide +kernel⟩
  have honce := load_directory_once rfl rfl hread hpragma hload
  exact ⟨hload, hread, hpragma, honce.2.2.2 (.inl rfl)⟩

/--
A file that asks for it is there twice if it is included with and without a slash in front.
-/
theorem load_directory_twice :
    let library := "#pragma once\nfloat x;\n"
    let tree : FileTree := .directory [("shaders", .directory
      [("main.glsl", .file "#include \"lib.glsl\"\n#include \"/lib.glsl\"\n".toUTF8),
        ("lib.glsl", .file library.toUTF8)])]
    let place := Place.inUnknown tree
    let t := empty.addSource (place.source "shaders")
    let source : Source := ⟨"float x;\nfloat x;\n", [⟨"lib.glsl", 2⟩, ⟨"/lib.glsl", 2⟩]⟩
    t.load "main.glsl" = .ok source ∧
      place.read (Path.join "shaders" "lib.glsl") = .ok library ∧ HasPragmaOnce library ∧
        Path.fromRoot "lib.glsl" = "lib.glsl" ∧ Path.fromRoot "/lib.glsl" = "lib.glsl" ∧
          ¬((source.origins.filter fun origin =>
            Path.fromRoot origin.file = "lib.glsl").map LineOrigin.line).Nodup := by
  intro library tree place t source
  have hload : t.load "main.glsl" = .ok source := by
    rw [← toOption_eq_some_iff]
    simp only [t, place, tree, library, source]
    decide +kernel
  have hread : place.read (Path.join "shaders" "lib.glsl") = .ok library := by
    rw [← toOption_eq_some_iff]
    simp only [place, tree, library]
    decide +kernel
  have hpragma : HasPragmaOnce library := ⟨"#pragma once", by decide +kernel, by decide +kernel⟩
  exact ⟨hload, hread, hpragma, by decide +kernel, by decide +kernel, by decide +kernel⟩

end Template
end ShaderBuild
