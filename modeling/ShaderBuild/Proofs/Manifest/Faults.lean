import ShaderBuild.Proofs.Manifest
import ShaderBuild.Proofs.Table.Keys
import ShaderBuild.Proofs.Text.Blank

/-!
This module contains what is reported of a manifest that breaks a rule. The first program that
breaks one decides, and of the rules that it breaks the first one in the order of the checks.
-/

namespace ShaderBuild

namespace ProgramSpec

/--
The program at an index breaks a rule and keeps those that are checked before it. There are programs
with the names in `earlier` before it.
-/
inductive Breaks (earlier : List String) (index : Nat) (p : ProgramSpec) : ManifestFault → Prop
  | emptyName : Text.trim p.name.toList = [] → Breaks earlier index p (.emptyName index)
  | duplicateProgram :
    Text.trim p.name.toList ≠ [] → p.name ∈ earlier →
      Breaks earlier index p (.duplicateProgram p.name)
  | noStages :
    Text.trim p.name.toList ≠ [] → p.name ∉ earlier → p.stages = [] →
      Breaks earlier index p (.noStages p.name)
  | emptySource {before after : List StageSpec} {stage : StageSpec} :
    Text.trim p.name.toList ≠ [] → p.name ∉ earlier → p.stages = before ++ stage :: after →
      (∀ other ∈ before, Text.trim other.source.toList ≠ []) →
        Text.trim stage.source.toList = [] →
          Breaks earlier index p (.emptySource p.name stage.stage)

variable {earlier : List String} {index : Nat} {p : ProgramSpec} {fault : ManifestFault}

theorem fault?_of_breaks (h : p.Breaks earlier index fault) :
    p.fault? earlier index = some fault := by
  unfold fault?
  cases h with
  | emptyName hname => rw [if_pos (Text.isAllBlank_iff.mpr hname)]
  | duplicateProgram hname hearlier =>
    rw [if_neg (mt Text.isAllBlank_iff.mp hname), if_pos hearlier]
  | noStages hname hearlier hstages =>
    rw [if_neg (mt Text.isAllBlank_iff.mp hname), if_neg hearlier, hstages, List.isEmpty_nil,
      if_pos rfl]
  | @emptySource before after stage hname hearlier hstages hbefore hstage =>
    have hfind : p.stages.find? (fun stage => Text.isAllBlank stage.source) = some stage := by
      rw [List.find?_eq_some_iff_append]
      refine ⟨Text.isAllBlank_iff.mpr hstage, before, after, hstages, ?_⟩
      intro other hother
      simpa using mt Text.isAllBlank_iff.mp (hbefore other hother)
    have hne : ¬p.stages.isEmpty := by simp [hstages]
    rw [if_neg (mt Text.isAllBlank_iff.mp hname), if_neg hearlier, if_neg hne, hfind,
      Option.map_some]

theorem breaks_of_fault? (h : p.fault? earlier index = some fault) :
    p.Breaks earlier index fault := by
  unfold fault? at h
  split at h
  . next hname =>
    cases h
    exact .emptyName (Text.isAllBlank_iff.mp hname)
  . next hname =>
    rw [Text.isAllBlank_iff] at hname
    split at h
    . next hearlier =>
      cases h
      exact .duplicateProgram hname hearlier
    . next hearlier =>
      split at h
      . next hstages =>
        cases h
        exact .noStages hname hearlier (List.isEmpty_iff.mp hstages)
      . rw [Option.map_eq_some_iff] at h
        rcases h with ⟨stage, hfind, rfl⟩
        rw [List.find?_eq_some_iff_append] at hfind
        rcases hfind with ⟨hstage, before, after, hstages, hbefore⟩
        refine .emptySource hname hearlier hstages ?_ (Text.isAllBlank_iff.mp hstage)
        intro other hother hblank
        have := hbefore other hother
        rw [Text.isAllBlank_iff.mpr hblank] at this
        cases this

theorem fault?_eq_some_iff :
    p.fault? earlier index = some fault ↔ p.Breaks earlier index fault :=
  ⟨breaks_of_fault?, fault?_of_breaks⟩

theorem fault?_reverse (earlier : List String) (index : Nat) (p : ProgramSpec) :
    p.fault? earlier.reverse index = p.fault? earlier index := by
  unfold fault?
  simp only [List.mem_reverse]

theorem isComplete_iff :
    p.IsComplete
      ↔
    Text.trim p.name.toList ≠ [] ∧ p.stages ≠ [] ∧
      ∀ stage ∈ p.stages, Text.trim stage.source.toList ≠ [] := by
  constructor
  . rintro ⟨hname, hstages, hsources⟩
    refine ⟨mt Text.isAllBlank_iff.mpr hname, mt List.isEmpty_iff.mpr hstages, ?_⟩
    intro stage hstage
    exact mt Text.isAllBlank_iff.mpr (hsources stage hstage)
  . rintro ⟨hname, hstages, hsources⟩
    refine ⟨mt Text.isAllBlank_iff.mp hname, mt List.isEmpty_iff.mp hstages, ?_⟩
    intro stage hstage
    exact mt Text.isAllBlank_iff.mp (hsources stage hstage)

end ProgramSpec

namespace Manifest

variable {fault : ManifestFault}

/--
The rule that the program at a position breaks, when programs with the names in `earlier` come
before the list and its first program has the index `start`.
-/
def faultAt? (earlier : List String) (start : Nat) (programs : List ProgramSpec) (i : Nat) :
    Option ManifestFault :=
  programs[i]?.bind fun p =>
    p.fault? (((programs.take i).map ProgramSpec.name).reverse ++ earlier) (start + i)

theorem faultAt?_cons_zero (earlier : List String) (start : Nat) (p : ProgramSpec)
    (rest : List ProgramSpec) : faultAt? earlier start (p :: rest) 0 = p.fault? earlier start := rfl

theorem faultAt?_cons_succ (earlier : List String) (start : Nat) (p : ProgramSpec)
    (rest : List ProgramSpec) (i : Nat) :
    faultAt? earlier start (p :: rest) (i + 1)
      =
    faultAt? (p.name :: earlier) (start + 1) rest i := by
  unfold faultAt?
  simp only [List.getElem?_cons_succ, List.take_succ_cons, List.map_cons, List.reverse_cons,
    List.append_assoc, List.singleton_append, Nat.add_assoc, Nat.add_comm 1]

theorem validateFrom_eq_error_iff {earlier : List String} {start : Nat}
    {programs : List ProgramSpec} :
    validateFrom earlier start programs = .error fault
      ↔
    ∃ i, faultAt? earlier start programs i = some fault ∧
      ∀ j < i, faultAt? earlier start programs j = none := by
  induction programs generalizing earlier start with
  | nil => simp [validateFrom, faultAt?]
  | cons p rest ih =>
    unfold validateFrom
    cases hfault : p.fault? earlier start with
    | some first =>
      -- there is no fault before this one, and no other fault is the first
      dsimp only
      constructor
      . intro h
        cases h
        exact ⟨0, hfault, by simp⟩
      . rintro ⟨i, hi, hbefore⟩
        cases i with
        | zero =>
          rw [faultAt?_cons_zero, hfault, Option.some.injEq] at hi
          rw [hi]
        | succ i =>
          have := hbefore 0 (Nat.zero_lt_succ i)
          rw [faultAt?_cons_zero, hfault] at this
          cases this
    | none =>
      dsimp only
      rw [ih]
      constructor
      . rintro ⟨i, hi, hbefore⟩
        refine ⟨i + 1, (faultAt?_cons_succ ..).trans hi, ?_⟩
        intro j hj
        cases j with
        | zero => exact hfault
        | succ j =>
          rw [faultAt?_cons_succ]
          exact hbefore j (Nat.lt_of_succ_lt_succ hj)
      . rintro ⟨i, hi, hbefore⟩
        cases i with
        | zero =>
          rw [faultAt?_cons_zero, hfault] at hi
          cases hi
        | succ i =>
          rw [faultAt?_cons_succ] at hi
          refine ⟨i, hi, ?_⟩
          intro j hj
          rw [← faultAt?_cons_succ]
          exact hbefore (j + 1) (Nat.succ_lt_succ hj)

/--
The fault of the program at an index.
-/
def FaultAt (m : Manifest) (index : Nat) (fault : ManifestFault) : Prop :=
  ∃ p, m.programs[index]? = some p ∧
    p.Breaks ((m.programs.take index).map ProgramSpec.name) index fault

/--
The fault of the first program that breaks a rule.
-/
def FirstFault (m : Manifest) (fault : ManifestFault) : Prop :=
  ∃ index, m.FaultAt index fault ∧ ∀ j < index, ∀ other, ¬m.FaultAt j other

theorem faultAt?_eq_some_iff {m : Manifest} {index : Nat} :
    faultAt? [] 0 m.programs index = some fault ↔ m.FaultAt index fault := by
  unfold faultAt? FaultAt
  rw [Option.bind_eq_some_iff]
  simp only [List.append_nil, Nat.zero_add, ProgramSpec.fault?_reverse,
    ProgramSpec.fault?_eq_some_iff]

theorem validate_eq_error_iff {m : Manifest} : m.validate = .error fault ↔ m.FirstFault fault := by
  unfold validate FirstFault
  rw [validateFrom_eq_error_iff]
  simp only [Option.eq_none_iff_forall_ne_some, ne_eq, faultAt?_eq_some_iff]

end Manifest

namespace Registry

theorem ofManifest_eq_error_iff {m : Manifest} {fault : ManifestFault} :
    ofManifest m = .error fault ↔ m.validate = .error fault := by
  unfold ofManifest
  rw [bind_eq_error_iff]
  constructor
  . rintro (h | ⟨_, _, hpure⟩)
    . exact h
    . cases hpure
  . exact .inl

theorem get?_ofManifest {m : Manifest} {registry : Registry} (h : ofManifest m = .ok registry) :
    ∀ p ∈ m.programs, registry.get? p.name = some p.descriptor := by
  rw [ofManifest_eq_ok_iff] at h
  rcases h with ⟨hvalid, hentries⟩
  intro p hp
  unfold get?
  rw [Table.get?_eq_some_iff, hentries]
  . exact List.mem_map.mpr ⟨p, hp, rfl⟩
  . unfold Table.keys
    rw [hentries, List.map_map]
    exact (Manifest.validate_eq_ok_iff.mp hvalid).1

/--
A manifest is valid exactly if its programs have names that are not blank and differ, and every
program has stages and all of them have sources. Of any other manifest the first program that breaks
a rule is reported. It has no registry, and the registry of a valid manifest has its programs in the
same order, each found under its name.
-/
theorem ofManifest_exact (m : Manifest) :
    (m.validate = .ok ()
        ↔
      (∀ p ∈ m.programs, Text.trim p.name.toList ≠ []) ∧
        (m.programs.map ProgramSpec.name).Nodup ∧ (∀ p ∈ m.programs, p.stages ≠ []) ∧
          ∀ p ∈ m.programs, ∀ stage ∈ p.stages, Text.trim stage.source.toList ≠ []) ∧
      (∀ fault, m.validate = .error fault ↔ m.FirstFault fault) ∧
      ((∃ fault, m.validate = .error fault ∧ ofManifest m = .error fault) ∨
        ∃ registry, m.validate = .ok () ∧ ofManifest m = .ok registry ∧
          (registry.programs.entries.map fun entry => (entry.1, entry.2.units)) =
              (m.programs.map fun p =>
                (p.name, p.stages.map fun stage => ⟨stage.stage, stage.source⟩)) ∧
            ∀ p ∈ m.programs, (registry.get? p.name).map Descriptor.units =
              some (p.stages.map fun stage => ⟨stage.stage, stage.source⟩)) := by
  refine ⟨?_, fun _ => Manifest.validate_eq_error_iff, ?_⟩
  . rw [Manifest.validate_eq_ok_iff]
    simp only [ProgramSpec.isComplete_iff, forall_and]
    tauto
  . cases hregistry : ofManifest m with
    | error fault => exact .inl ⟨fault, ofManifest_eq_error_iff.mp hregistry, rfl⟩
    | ok registry =>
      have hget := get?_ofManifest hregistry
      rcases ofManifest_eq_ok_iff.mp hregistry with ⟨hvalid, hentries⟩
      refine .inr ⟨registry, hvalid, rfl, ?_, ?_⟩
      . rw [hentries, List.map_map]
        rfl
      . intro p hp
        rw [hget p hp]
        rfl

/--
The first program keeps the rules. The second one has its name, and no stages either.
-/
example :
    let first : ProgramSpec := ⟨"a", none, [⟨.compute, "x"⟩]⟩
    let second : ProgramSpec := ⟨"a", none, []⟩
    let third : ProgramSpec := ⟨"\u2003", none, []⟩
    ofManifest ⟨[first, second, third]⟩ = .error (.duplicateProgram "a") := by
  rfl

end Registry
end ShaderBuild
