import Mathlib.Data.List.Induction
import ShaderBuild.Include.Memory
import ShaderBuild.Proofs.Path
import ShaderBuild.Proofs.Table.Keys

/-!
This module contains the theory of files in memory, which are a map from normal forms of paths to
texts. A later file replaces an earlier one if their paths have the same normal form, however they
are written. A file whose path has no normal form is kept under a key that is not in normal form
either, so that no path in normal form leads to it.
-/

namespace ShaderBuild
namespace MemoryFiles

variable {m : MemoryFiles} {files : List (String × String)} {path normal text : String}

theorem mem_entries_of_read {source : IncludeSource} (hsource : source ∈ [m.source])
    (h : source.read path = .ok (some text)) : (path, text) ∈ m.files.entries := by
  cases List.mem_singleton.mp hsource
  exact Table.mem_entries_of_get? (Except.ok.inj h)

/--
A path in normal form is the key of the paths that have it as their normal form, and of no others.
-/
theorem storedPath_eq_iff (h : Path.IsNormal normal) :
    storedPath path = normal ↔ Path.normalize? path = some normal := by
  unfold storedPath
  cases hpath : Path.normalize? path with
  | some result => simp
  | none =>
    -- the path is its own key, and a path in normal form would have a normal form
    rw [Option.getD_none]
    constructor
    . rintro rfl
      rw [Path.normalize?_of_isNormal h] at hpath
      cases hpath
    . intro hnone
      cases hnone

theorem read_insert (h : Path.IsNormal normal) :
    (m.insert path text).source.read normal =
      if Path.normalize? path = some normal then .ok (some text) else m.source.read normal := by
  show Except.ok ((m.files.insert (storedPath path) text).get? normal) = _
  rw [Table.get?_insert]
  simp only [storedPath_eq_iff h]
  split
  . rfl
  . rfl

theorem ofList_concat (files : List (String × String)) (next : String × String) :
    ofList (files ++ [next]) = (ofList files).insert next.1 next.2 := by
  unfold ofList
  rw [List.foldl_append]
  rfl

theorem read_ofList_singleton (h : Path.normalize? path = some normal) :
    (ofList [(path, text)]).source.read normal = .ok (some text) := by
  rw [← List.nil_append [_], ofList_concat, read_insert (Path.isNormal_of_normalize? h), if_pos h]

/--
The text of the last file in the list whose path has the given normal form, or nothing if no path
has it.
-/
inductive LastText (files : List (String × String)) (normal : String) : Option String → Prop
  | last (before : List (String × String)) (file : String × String)
    (after : List (String × String)) :
    files = before ++ file :: after → Path.normalize? file.1 = some normal →
      (∀ later ∈ after, Path.normalize? later.1 ≠ some normal) → LastText files normal (some file.2)
  | missing :
    (∀ file ∈ files, Path.normalize? file.1 ≠ some normal) → LastText files normal none

theorem LastText.concat {text? : Option String} (h : LastText files normal text?)
    (next : String × String) :
    LastText (files ++ [next]) normal
      (if Path.normalize? next.1 = some normal then some next.2 else text?) := by
  split
  . next hnext => exact .last files next [] rfl hnext (List.forall_mem_nil _)
  . next hnext =>
    have hsingleton : ∀ later ∈ [next], Path.normalize? later.1 ≠ some normal :=
      List.forall_mem_singleton.mpr hnext
    cases h with
    | last before file after hfiles hfile hafter =>
      apply LastText.last before file (after ++ [next]) _ hfile
      . exact List.forall_mem_append.mpr ⟨hafter, hsingleton⟩
      . rw [hfiles, List.append_assoc, List.cons_append]
    | missing hfiles => exact .missing (List.forall_mem_append.mpr ⟨hfiles, hsingleton⟩)

/--
Reading a path in normal form gives the file that was inserted last under a spelling of it.
-/
theorem lastText_read_ofList (h : Path.IsNormal normal) (files : List (String × String)) :
    ∃ text?, (ofList files).source.read normal = .ok text? ∧ LastText files normal text? := by
  induction files using List.reverseRecOn with
  | nil => exact ⟨none, rfl, .missing (List.forall_mem_nil _)⟩
  | append_singleton files next ih =>
    rcases ih with ⟨text?, hread, hlast⟩
    refine ⟨_, ?_, hlast.concat next⟩
    rw [ofList_concat, read_insert h, hread]
    split
    . rfl
    . rfl

/--
The files of a list whose paths have a normal form.
-/
def withNormalForm (files : List (String × String)) : List (String × String) :=
  files.filter fun file => Path.normalize? file.1 ≠ none

/--
For a path in normal form it makes no difference which files without a normal form were inserted.
-/
theorem read_ofList_withNormalForm (h : Path.IsNormal normal) (files : List (String × String)) :
    (ofList (withNormalForm files)).source.read normal = (ofList files).source.read normal := by
  induction files using List.reverseRecOn with
  | nil => rfl
  | append_singleton files next ih =>
    unfold withNormalForm at ih ⊢
    rw [List.filter_append, ofList_concat, read_insert h]
    cases hnext : Path.normalize? next.1 with
    | none =>
      rw [List.filter_cons_of_neg (by simp [hnext]), List.filter_nil, List.append_nil, ih,
        if_neg (by simp)]
    | some result =>
      rw [List.filter_cons_of_pos (by simp [hnext]), List.filter_nil, ofList_concat, read_insert h,
        hnext, ih]

end MemoryFiles
end ShaderBuild
