import Mathlib.Data.List.Sort
import ShaderBuild.Proofs.Link

/-!
This module contains which locations cross the boundary of a shader, and what is reported if a
fragment shader reads from others than the vertex shader writes to.
-/

namespace ShaderBuild

namespace InterfaceValue

/--
A value exposes itself. Without a binding it also exposes what its members expose.
-/
inductive Exposes : InterfaceValue → InterfaceValue → Prop
  | self (value : InterfaceValue) : Exposes value value
  | member {members : List InterfaceValue} {member inner : InterfaceValue} :
    member ∈ members → Exposes member inner → Exposes (.mk none members) inner

/--
A value exposes a value that is bound to the given location.
-/
def ExposesLocation (value : InterfaceValue) (n : Nat) : Prop :=
  ∃ members, value.Exposes (.mk (some (.location n)) members)

theorem exposesLocation_location_iff {k n : Nat} {members : List InterfaceValue} :
    (mk (some (.location k)) members).ExposesLocation n ↔ n = k := by
  constructor
  . rintro ⟨inner, h⟩
    cases h
    rfl
  . rintro rfl
    exact ⟨members, .self _⟩

theorem not_exposesLocation_builtin (members : List InterfaceValue) (n : Nat) :
    ¬ (mk (some .builtin) members).ExposesLocation n := by
  rintro ⟨inner, h⟩
  cases h

theorem exposesLocation_none_iff {members : List InterfaceValue} {n : Nat} :
    (mk none members).ExposesLocation n ↔ ∃ member ∈ members, member.ExposesLocation n := by
  constructor
  . rintro ⟨inner, h⟩
    cases h with
    | member hmem hexposes => exact ⟨_, hmem, inner, hexposes⟩
  . rintro ⟨member, hmem, inner, hexposes⟩
    exact ⟨inner, .member hmem hexposes⟩

mutual

theorem mem_locations_iff (n : Nat) :
    (value : InterfaceValue) → (n ∈ value.locations ↔ value.ExposesLocation n)
  | mk (some (.location k)) members => by
    rw [locations, List.mem_singleton, exposesLocation_location_iff]
  | mk (some .builtin) members => by
    rw [locations]
    exact iff_of_false List.not_mem_nil (not_exposesLocation_builtin members n)
  | mk none members => by
    rw [locations, mem_locationsOfAll_iff n members, exposesLocation_none_iff]

theorem mem_locationsOfAll_iff (n : Nat) :
    (values : List InterfaceValue) →
      (n ∈ locationsOfAll values ↔ ∃ value ∈ values, value.ExposesLocation n)
  | [] => by simp [locationsOfAll]
  | value :: rest => by
    rw [locationsOfAll, List.mem_append, mem_locations_iff n value, mem_locationsOfAll_iff n rest,
      List.exists_mem_cons_iff]

end

end InterfaceValue

namespace ShaderModule

theorem mem_inputLocations_iff {m : ShaderModule} {n : Nat} :
    n ∈ m.inputLocations
      ↔
    ∃ entry ∈ m.entryPoints, ∃ argument ∈ entry.arguments, argument.ExposesLocation n := by
  unfold inputLocations
  simp only [mem_ascending, List.mem_flatMap, InterfaceValue.mem_locations_iff]

theorem mem_outputLocations_iff {m : ShaderModule} {n : Nat} :
    n ∈ m.outputLocations
      ↔
    ∃ entry ∈ m.entryPoints, ∃ result, entry.result = some result ∧ result.ExposesLocation n := by
  unfold outputLocations
  simp only [mem_ascending, List.mem_flatMap, Option.mem_toList, InterfaceValue.mem_locations_iff]

end ShaderModule

namespace Link

variable {vertex fragment : ShaderModule}

/--
The locations that the fragment shader reads from and the vertex shader does not write to, each once
and in ascending order.
-/
structure Unwritten (vertex fragment : ShaderModule) (ns : List Nat) : Prop where
  pairwise_lt : ns.Pairwise (· < ·)
  mem_iff {n : Nat} : n ∈ ns ↔ n ∈ fragment.inputLocations ∧ n ∉ vertex.outputLocations

theorem unwritten_iff {ns : List Nat} :
    Unwritten vertex fragment ns ↔ ns = unwrittenInputs vertex fragment := by
  constructor
  . intro h
    apply h.pairwise_lt.eq_of_mem_iff (pairwise_unwrittenInputs vertex fragment)
    intro n
    rw [h.mem_iff, mem_unwrittenInputs_iff]
  . rintro rfl
    exact ⟨pairwise_unwrittenInputs vertex fragment, mem_unwrittenInputs_iff⟩

theorem checkInterface_eq_error_iff_unwritten {errors : List LinkError} :
    checkInterface vertex fragment = .error errors
      ↔
    ∃ ns, ns ≠ [] ∧ Unwritten vertex fragment ns ∧ errors = ns.map .unwrittenInput := by
  rw [checkInterface_eq_error_iff]
  constructor
  . rintro ⟨hne, rfl⟩
    refine ⟨_, ?_, unwritten_iff.mpr rfl, rfl⟩
    rwa [ne_eq, List.map_eq_nil_iff] at hne
  . rintro ⟨ns, hne, hunwritten, rfl⟩
    rw [unwritten_iff] at hunwritten
    rw [ne_eq, List.map_eq_nil_iff, hunwritten]
    exact ⟨hunwritten ▸ hne, rfl⟩

/--
A shader reads from, or writes to, the locations that are exposed by the arguments, or the result, of
one of its entry points. What is inside a value with a binding does not matter. A vertex and a
fragment shader fit together if the first writes to all locations that the second reads from, and
otherwise the others are reported in ascending order.
-/
theorem checkInterface_exact (vertex fragment : ShaderModule) :
    (∀ (m : ShaderModule) (n : Nat),
      (n ∈ m.inputLocations
          ↔
        ∃ entry ∈ m.entryPoints, ∃ argument ∈ entry.arguments, argument.ExposesLocation n) ∧
        (n ∈ m.outputLocations
            ↔
          ∃ entry ∈ m.entryPoints, ∃ result,
            entry.result = some result ∧ result.ExposesLocation n)) ∧
      (∀ binding members inner, (InterfaceValue.mk (some binding) members).Exposes inner →
        inner = .mk (some binding) members) ∧
      (checkInterface vertex fragment = .ok ()
          ↔
        ∀ n ∈ fragment.inputLocations, n ∈ vertex.outputLocations) ∧
      ∀ errors, checkInterface vertex fragment = .error errors
          ↔
        ∃ ns, ns ≠ [] ∧ Unwritten vertex fragment ns ∧ errors = ns.map .unwrittenInput := by
  refine ⟨?_, ?_, checkInterface_eq_ok_iff, ?_⟩
  . intro m n
    exact ⟨m.mem_inputLocations_iff, m.mem_outputLocations_iff⟩
  . intro binding members inner h
    cases h
    rfl
  . intro errors
    exact checkInterface_eq_error_iff_unwritten

/--
Of the values inside a structure, the members of a structure with a binding of its own do not count.
-/
example :
    let inner : InterfaceValue := .mk none [.mk (some (.location 5)) [], .mk (some (.location 3)) []]
    let built : InterfaceValue := .mk (some .builtin) [.mk (some (.location 4)) []]
    let bound : InterfaceValue := .mk (some (.location 2)) [.mk (some (.location 1)) []]
    let m : ShaderModule := ⟨[⟨[.mk none [inner, built], bound, inner], none⟩], none⟩
    m.inputLocations = [2, 3, 5] := by
  decide

end Link
end ShaderBuild
