import ShaderBuild.Proofs.Except
import ShaderBuild.Proofs.Table
import ShaderBuild.Registry

/-!
This module contains which manifests are valid, and which programs the registry of a valid manifest
has.
-/

namespace ShaderBuild

namespace ProgramSpec

/--
The program has a name and at least one stage, and every stage has a source.
-/
structure IsComplete (p : ProgramSpec) : Prop where
  name_not_blank : ¬Text.isAllBlank p.name
  stages_not_empty : ¬p.stages.isEmpty
  source_not_blank : ∀ stage ∈ p.stages, ¬Text.isAllBlank stage.source

theorem fault?_eq_none_iff {earlier : List String} {index : Nat} {p : ProgramSpec} :
    p.fault? earlier index = none ↔ p.name ∉ earlier ∧ p.IsComplete := by
  unfold fault?
  constructor
  . intro h
    split at h
    . cases h
    . next hname =>
      split at h
      . cases h
      . next hearlier =>
        split at h
        . cases h
        . next hstages =>
          rw [Option.map_eq_none_iff, List.find?_eq_none] at h
          exact ⟨hearlier, hname, hstages, h⟩
  . rintro ⟨hearlier, hname, hstages, hsources⟩
    rw [if_neg hname, if_neg hearlier, if_neg hstages, Option.map_eq_none_iff, List.find?_eq_none]
    exact hsources

end ProgramSpec

namespace Manifest

theorem validateFrom_eq_ok_iff {earlier : List String} {index : Nat}
    {programs : List ProgramSpec} :
    validateFrom earlier index programs = .ok ()
      ↔
    (programs.map ProgramSpec.name).Nodup ∧
      ∀ p ∈ programs, p.name ∉ earlier ∧ p.IsComplete := by
  induction programs generalizing earlier index with
  | nil => simp [validateFrom]
  | cons p rest ih =>
    rw [List.map_cons, List.nodup_cons, List.forall_mem_cons,
      ← @ProgramSpec.fault?_eq_none_iff earlier index p]
    unfold validateFrom
    cases p.fault? earlier index with
    | some fault => simp
    | none =>
      dsimp only
      rw [ih]
      constructor
      . rintro ⟨hnodup, hrest⟩
        refine ⟨⟨?_, hnodup⟩, rfl, ?_⟩
        . intro hmem
          rcases List.mem_map.mp hmem with ⟨other, hother, heq⟩
          exact (hrest other hother).1 (heq ▸ List.mem_cons_self)
        . intro other hother
          rcases hrest other hother with ⟨hnotMem, hcomplete⟩
          exact ⟨fun hmem => hnotMem (List.mem_cons_of_mem _ hmem), hcomplete⟩
      . rintro ⟨⟨hnotMem, hnodup⟩, -, hrest⟩
        refine ⟨hnodup, ?_⟩
        intro other hother
        rcases hrest other hother with ⟨hearlier, hcomplete⟩
        refine ⟨?_, hcomplete⟩
        intro hmem
        rcases List.mem_cons.mp hmem with heq | hmem
        . exact hnotMem (heq ▸ List.mem_map_of_mem hother)
        . exact hearlier hmem

theorem validate_eq_ok_iff {m : Manifest} :
    m.validate = .ok ()
      ↔
    (m.programs.map ProgramSpec.name).Nodup ∧ ∀ p ∈ m.programs, p.IsComplete := by
  unfold validate
  rw [validateFrom_eq_ok_iff]
  simp

/--
The order of the programs does not decide whether a manifest is valid.
-/
theorem validate_of_perm {m m' : Manifest} (hperm : m'.programs.Perm m.programs)
    (h : m.validate = .ok ()) : m'.validate = .ok () := by
  rw [validate_eq_ok_iff] at h ⊢
  refine ⟨(hperm.map ProgramSpec.name).nodup_iff.mpr h.1, ?_⟩
  intro p hmem
  exact h.2 p (hperm.mem_iff.mp hmem)

end Manifest

namespace Registry

theorem programs_insertAll (r : Registry) (programs : List (String × Descriptor)) :
    (r.insertAll programs).programs = r.programs.insertAll programs := by
  induction programs generalizing r with
  | nil => rfl
  | cons program rest ih => exact ih _

theorem entries_insertAll_empty {programs : List (String × Descriptor)}
    (hnodup : (programs.map Prod.fst).Nodup) :
    (empty.insertAll programs).programs.entries = programs := by
  rw [programs_insertAll, Table.entries_insertAll]
  . rfl
  . rw [Table.fresh_iff]
    exact ⟨hnodup, fun _ _ => rfl⟩

/--
The registry of a valid manifest has the programs of the manifest, in the same order.
-/
theorem ofManifest_eq_ok_iff {m : Manifest} {registry : Registry} :
    ofManifest m = .ok registry
      ↔
    m.validate = .ok () ∧
      registry.programs.entries = m.programs.map fun p => (p.name, p.descriptor) := by
  have hentries (hvalid : m.validate = .ok ()) :
      (empty.insertAll (m.programs.map fun p => (p.name, p.descriptor))).programs.entries
        = m.programs.map fun p => (p.name, p.descriptor) := by
    apply entries_insertAll_empty
    rw [List.map_map]
    exact (Manifest.validate_eq_ok_iff.mp hvalid).1
  unfold ofManifest
  rw [bind_eq_ok_iff]
  simp only [pure_eq_ok_iff]
  constructor
  . rintro ⟨_, hvalid, rfl⟩
    exact ⟨hvalid, hentries hvalid⟩
  . rintro ⟨hvalid, heq⟩
    refine ⟨(), hvalid, ?_⟩
    rw [← hentries hvalid] at heq
    rcases registry with ⟨⟨_⟩⟩
    rw [Registry.mk.injEq, Table.mk.injEq]
    exact heq.symm

end Registry
end ShaderBuild
