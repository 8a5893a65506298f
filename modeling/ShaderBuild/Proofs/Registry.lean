import Mathlib.Data.Finset.Card
import ShaderBuild.Proofs.Manifest
import ShaderBuild.Proofs.Table.Keys

/-!
This module contains what a registry holds after insertions: every name once, in the order in which
names were inserted first, and under each name what was inserted last.
-/

namespace ShaderBuild
namespace Registry

variable {r : Registry} {name : String} {descriptor : Descriptor}
variable {history : List (String × Descriptor)}

/--
No later insertion in the history is under the name of this one.
-/
def IsLast (history : List (String × Descriptor)) (name : String) (descriptor : Descriptor) :
    Prop :=
  ∃ before after, history = before ++ (name, descriptor) :: after ∧ name ∉ after.map Prod.fst

/--
The registry has the names of a history of insertions in the order of their first insertions, and
under each of them the description that was inserted last.
-/
structure Holds (r : Registry) (history : List (String × Descriptor)) : Prop where
  nodup : r.names.Nodup
  mem_names_iff : ∀ name, name ∈ r.names ↔ name ∈ history.map Prod.fst
  ordered : r.names.Pairwise fun a b =>
    (history.map Prod.fst).idxOf a < (history.map Prod.fst).idxOf b
  get?_eq_some_iff : ∀ name descriptor,
    r.get? name = some descriptor ↔ IsLast history name descriptor

theorem get?_eq_none_iff : r.get? name = none ↔ name ∉ r.names :=
  Table.get?_eq_none_iff_notMem_keys

theorem get?_insert (r : Registry) (name : String) (descriptor : Descriptor) (other : String) :
    (r.insert name descriptor).2.get? other =
      if name = other then some descriptor else r.get? other :=
  Table.get?_insert ..

theorem names_insert (r : Registry) (name : String) (descriptor : Descriptor) :
    (r.insert name descriptor).2.names =
      if name ∈ r.names then r.names else r.names ++ [name] := by
  split
  . next hmem => exact Table.keys_insert_of_mem hmem _
  . next hnotMem => exact Table.keys_insert_of_fresh (get?_eq_none_iff.mpr hnotMem) _

/--
An insertion leaves every other name at its position.
-/
theorem names_insert_getElem? {other : String} (hne : other ≠ name) (i : Nat) :
    (r.insert name descriptor).2.names[i]? = some other ↔ r.names[i]? = some other := by
  rw [names_insert]
  split
  . rfl
  . rw [List.getElem?_append]
    split
    . rfl
    . next hle =>
      rw [List.getElem?_eq_none (Nat.le_of_not_lt hle)]
      simp [List.getElem?_singleton, Ne.symm hne]

/--
The second registry is the first one with a description under the name: in place of the one that was
there, which is replaced, or else at the end.
-/
structure IsInsertion (r : Registry) (name : String) (descriptor : Descriptor)
    (replaced : Option Descriptor) (after : Registry) : Prop where
  replaced_eq : replaced = r.get? name
  entries :
    (∃ front old back, replaced = some old ∧ r.programs.entries = front ++ (name, old) :: back ∧
        after.programs.entries = front ++ (name, descriptor) :: back) ∨
      replaced = none ∧ name ∉ r.names ∧
        after.programs.entries = r.programs.entries ++ [(name, descriptor)]
  get?_other : ∀ other, other ≠ name → after.get? other = r.get? other
  names_other : ∀ other, other ≠ name →
    ∀ i : Nat, after.names[i]? = some other ↔ r.names[i]? = some other

theorem isInsertion_insert (r : Registry) (name : String) (descriptor : Descriptor) :
    IsInsertion r name descriptor (r.insert name descriptor).1 (r.insert name descriptor).2 where
  replaced_eq := Table.exchange_fst ..
  entries := by
    unfold insert
    cases hget : r.programs.get? name with
    | some old =>
      rcases Table.exists_exchange hget with ⟨front, back, hentries, hexchange⟩
      rw [hexchange]
      exact .inl ⟨front, old, back, rfl, hentries, rfl⟩
    | none =>
      rw [Table.exchange_of_fresh hget]
      exact .inr ⟨rfl, get?_eq_none_iff.mp hget, rfl⟩
  get?_other other hne := by rw [get?_insert, if_neg (Ne.symm hne)]
  names_other _ hne := names_insert_getElem? hne

theorem isLast_concat_iff {other : String} {old : Descriptor} :
    IsLast (history ++ [(name, descriptor)]) other old
      ↔
    if name = other then descriptor = old else IsLast history other old := by
  unfold IsLast
  constructor
  . rintro ⟨before, after, heq, hnotMem⟩
    -- either the new insertion is the one in question, or it is behind it and under another name
    rcases List.eq_nil_or_concat after with rfl | ⟨after, last, rfl⟩
    . rcases List.append_inj' heq rfl with ⟨rfl, hlast⟩
      cases hlast
      rw [if_pos rfl]
    . rw [List.concat_eq_append, ← List.cons_append, ← List.append_assoc] at heq
      rcases List.append_inj' heq rfl with ⟨hhistory, hlast⟩
      cases hlast
      simp only [List.concat_eq_append, List.map_append, List.mem_append, List.map_singleton,
        List.mem_singleton, not_or] at hnotMem
      rw [if_neg (Ne.symm hnotMem.2)]
      exact ⟨before, after, hhistory, hnotMem.1⟩
  . split
    . next heq =>
      rintro rfl
      exact ⟨history, [], by rw [heq], List.not_mem_nil⟩
    . next hne =>
      rintro ⟨before, after, rfl, hnotMem⟩
      refine ⟨before, after ++ [(name, descriptor)], by simp, ?_⟩
      simpa [Ne.symm hne] using hnotMem

namespace Holds

theorem empty : Registry.empty.Holds [] where
  nodup := .nil
  mem_names_iff _ := .rfl
  ordered := .nil
  get?_eq_some_iff _ _ := by simp [IsLast, Registry.empty, get?]

theorem insert (h : r.Holds history) (name : String) (descriptor : Descriptor) :
    (r.insert name descriptor).2.Holds (history ++ [(name, descriptor)]) where
  nodup := by
    rw [names_insert]
    split
    . exact h.nodup
    . next hnotMem =>
      rw [← List.concat_eq_append]
      exact h.nodup.concat hnotMem
  mem_names_iff other := by
    have hother := h.mem_names_iff other
    rw [names_insert, List.map_append, List.mem_append, ← hother]
    split
    . next hmem =>
      simp only [List.map_singleton, List.mem_singleton, iff_self_or]
      rintro rfl
      exact hmem
    . rw [List.mem_append, List.map_singleton]
  ordered := by
    -- names that were inserted before stay where they are in the longer history
    have hindex : ∀ other ∈ r.names, ((history ++ [(name, descriptor)]).map Prod.fst).idxOf other =
        (history.map Prod.fst).idxOf other := by
      intro other hother
      rw [List.map_append, List.idxOf_append_of_mem ((h.mem_names_iff other).mp hother)]
    have hordered : r.names.Pairwise fun a b =>
        ((history ++ [(name, descriptor)]).map Prod.fst).idxOf a <
          ((history ++ [(name, descriptor)]).map Prod.fst).idxOf b := by
      apply h.ordered.imp_of_mem
      intro a b ha hb hlt
      rw [hindex a ha, hindex b hb]
      exact hlt
    rw [names_insert]
    split
    . exact hordered
    . next hnotMem =>
      rw [List.pairwise_append]
      refine ⟨hordered, List.pairwise_singleton _ _, ?_⟩
      intro a ha b hb
      rw [List.mem_singleton] at hb
      subst hb
      rw [hindex a ha, List.map_append, List.idxOf_append_of_notMem]
      . have := List.idxOf_lt_length_of_mem ((h.mem_names_iff a).mp ha)
        omega
      . exact mt (h.mem_names_iff b).mpr hnotMem
  get?_eq_some_iff other old := by
    rw [get?_insert, isLast_concat_iff]
    split
    . rw [Option.some.injEq]
    . exact h.get?_eq_some_iff other old

theorem insertAll (h : r.Holds history) (inserts : List (String × Descriptor)) :
    (r.insertAll inserts).Holds (history ++ inserts) := by
  induction inserts generalizing r history with
  | nil =>
    rw [List.append_nil]
    exact h
  | cons first rest ih =>
    rw [List.append_cons]
    exact ih (h.insert first.1 first.2)

theorem get?_eq_none_iff (h : r.Holds history) :
    r.get? name = none ↔ name ∉ history.map Prod.fst := by
  rw [Registry.get?_eq_none_iff, h.mem_names_iff]

theorem size_eq (h : r.Holds history) : r.size = (history.map Prod.fst).toFinset.card := by
  have hnames : r.names.toFinset = (history.map Prod.fst).toFinset := by
    ext name
    rw [List.mem_toFinset, List.mem_toFinset, h.mem_names_iff]
  rw [← hnames, List.toFinset_card_of_nodup h.nodup]
  exact (Table.length_keys r.programs).symm

end Holds

/--
The registries that there are without an insertion, and the programs that each of them has.
-/
inductive Starts : Registry → List (String × Descriptor) → Prop
  | empty : Starts .empty []
  | standard :
    Starts .standard
      [("render", Presets.standard.render), ("compute", Presets.standard.compute),
        ("compute_unordered", Presets.standard.unorderedCompute)]
  | presets (p : Presets) :
    Starts (.ofPresets p)
      [("render", p.render), ("compute", p.compute), ("compute_unordered", p.unorderedCompute)]
  | manifest {m : Manifest} {r : Registry} :
    ofManifest m = .ok r → Starts r (m.programs.map fun p => (p.name, p.descriptor))

theorem Starts.holds {initial : List (String × Descriptor)} (h : Starts r initial) :
    r.Holds initial := by
  cases h with
  | empty => exact .empty
  | standard | presets => exact Holds.empty.insertAll _
  | manifest hregistry =>
    unfold ofManifest at hregistry
    rw [bind_eq_ok_iff] at hregistry
    rcases hregistry with ⟨_, _, hpure⟩
    cases hpure
    exact Holds.empty.insertAll _

/--
A registry is a map that remembers the order of first insertions. However programs are inserted into
one of the registries to start from, it has every name that was inserted once, in the order of their
first insertions, and under each name what was inserted last. The next insertion gives back what was
found under the name before, and changes neither the place nor the description of any other name.
-/
theorem insertAll_ordered {initial : List (String × Descriptor)} (h : Starts r initial)
    (inserts : List (String × Descriptor)) :
    (r.insertAll inserts).Holds (initial ++ inserts) ∧
      (∀ name, (r.insertAll inserts).get? name = none ↔
        name ∉ (initial ++ inserts).map Prod.fst) ∧
      (r.insertAll inserts).size = ((initial ++ inserts).map Prod.fst).toFinset.card ∧
      ∀ name descriptor, ∃ replaced after,
        (r.insertAll inserts).insert name descriptor = (replaced, after) ∧
          IsInsertion (r.insertAll inserts) name descriptor replaced after := by
  have hholds := h.holds.insertAll inserts
  refine ⟨hholds, fun _ => hholds.get?_eq_none_iff, hholds.size_eq, ?_⟩
  intro name descriptor
  exact ⟨_, _, rfl, isInsertion_insert _ name descriptor⟩

/--
One of the standard programs is replaced twice, and a program is added between the replacements.
-/
theorem insertAll_ordered_replaced :
    let first := Descriptor.empty.push .vertex "first"
    let last := Descriptor.empty.push .vertex "last"
    let initial := [("render", Presets.standard.render), ("compute", Presets.standard.compute),
      ("compute_unordered", Presets.standard.unorderedCompute)]
    let inserts := [("compute", first), ("extra", first), ("compute", last)]
    Starts .standard initial ∧ (standard.insertAll inserts).Holds (initial ++ inserts) ∧
      (standard.insertAll inserts).names = ["render", "compute", "compute_unordered", "extra"] ∧
        (standard.insertAll inserts).get? "compute" = some last ∧
          (standard.insertAll inserts).size = 4 := by
  intro first last initial inserts
  have hstarts : Starts .standard initial := .standard
  have hmap := insertAll_ordered hstarts inserts
  refine ⟨hstarts, hmap.1, by decide, ?_, ?_⟩
  . rw [hmap.1.get?_eq_some_iff]
    exact ⟨initial ++ [("compute", first), ("extra", first)], [], rfl, List.not_mem_nil⟩
  . rw [hmap.2.2.1]
    decide

end Registry
end ShaderBuild
