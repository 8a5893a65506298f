/-!
This module contains what is known of a shader after parsing: the values that cross the boundary of
its entry points, and the locations that these values are bound to.
-/

namespace ShaderBuild

/--
What a value at the boundary of an entry point is connected to.
-/
inductive Binding
  | location (n : Nat)
  | builtin
deriving DecidableEq

/--
A value that crosses the boundary of an entry point. The members are those of a structure, each with
a binding of its own; other values have none.
-/
inductive InterfaceValue
  | mk (binding : Option Binding) (members : List InterfaceValue)

namespace InterfaceValue

mutual

/--
The locations that a value is connected to. Only a value without binding is descended into.
-/
def locations : InterfaceValue → List Nat
  | mk (some (.location n)) _ => [n]
  | mk (some .builtin) _ => []
  | mk none members => locationsOfAll members

/--
The locations that the values of a list are connected to.
-/
def locationsOfAll : List InterfaceValue → List Nat
  | [] => []
  | value :: rest => locations value ++ locationsOfAll rest

end

end InterfaceValue

/--
An entry point of a shader: the values that it takes, and the value that it gives if any.
-/
structure EntryPoint where
  arguments : List InterfaceValue
  result : Option InterfaceValue

/--
A parsed shader. The validator either accepts it or has an objection.
-/
structure ShaderModule where
  entryPoints : List EntryPoint
  objection : Option String

/--
Put a number into a strictly ascending list, unless it is there.
-/
def insertAscending (n : Nat) : List Nat → List Nat
  | [] => [n]
  | m :: rest =>
    if n < m then n :: m :: rest
    else if n = m then m :: rest
    else m :: insertAscending n rest

/--
The numbers of a list in strictly ascending order.
-/
def ascending (ns : List Nat) : List Nat :=
  ns.foldr insertAscending []

theorem mem_insertAscending (n k : Nat) (ns : List Nat) :
    k ∈ insertAscending n ns ↔ k = n ∨ k ∈ ns := by
  induction ns with
  | nil => simp [insertAscending]
  | cons m rest ih =>
    unfold insertAscending
    split
    . simp
    . split <;> grind

@[simp]
theorem mem_ascending (k : Nat) (ns : List Nat) : k ∈ ascending ns ↔ k ∈ ns := by
  induction ns with
  | nil => simp [ascending]
  | cons n rest ih =>
    simp only [ascending, List.foldr_cons] at ih ⊢
    simp [mem_insertAscending, ih]

namespace ShaderModule

/--
The locations that a shader reads from, ascending.
-/
def inputLocations (m : ShaderModule) : List Nat :=
  ascending (m.entryPoints.flatMap fun entry => entry.arguments.flatMap InterfaceValue.locations)

/--
The locations that a shader writes to, ascending.
-/
def outputLocations (m : ShaderModule) : List Nat :=
  ascending (m.entryPoints.flatMap fun entry =>
    entry.result.toList.flatMap InterfaceValue.locations)

end ShaderModule
end ShaderBuild
