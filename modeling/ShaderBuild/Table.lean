/-!
This module contains finite maps that remember the order in which their keys were first inserted.
-/

namespace ShaderBuild

/--
A finite map as a list of entries. Inserting under a key that is present replaces the value in
place; a new key goes to the end.
-/
structure Table (κ ν : Type) where
  entries : List (κ × ν)
deriving DecidableEq

namespace Table

variable {κ ν : Type}

/--
The table without entries.
-/
def empty : Table κ ν := ⟨[]⟩

/--
The keys in the order of their first insertion.
-/
def keys (t : Table κ ν) : List κ :=
  t.entries.map Prod.fst

/--
The values in the order of the first insertion of their keys.
-/
def values (t : Table κ ν) : List ν :=
  t.entries.map Prod.snd

def size (t : Table κ ν) : Nat :=
  t.entries.length

variable [DecidableEq κ]

/--
The value stored under a key.
-/
def get? (t : Table κ ν) (k : κ) : Option ν :=
  go t.entries
where
  go : List (κ × ν) → Option ν
    | [] => none
    | (key, value) :: rest => if key = k then some value else go rest

def contains (t : Table κ ν) (k : κ) : Bool :=
  (t.get? k).isSome

/--
Store a value under a key, in place of the one that was there. The replaced one is given back.
-/
def exchange (t : Table κ ν) (k : κ) (v : ν) : Option ν × Table κ ν :=
  let (replaced, entries) := go t.entries
  (replaced, ⟨entries⟩)
where
  go : List (κ × ν) → Option ν × List (κ × ν)
    | [] => (none, [(k, v)])
    | (key, value) :: rest =>
      if key = k then
        (some value, (k, v) :: rest)
      else
        let (replaced, others) := go rest
        (replaced, (key, value) :: others)

/--
Store a value under a key, in place of the one that was there.
-/
def insert (t : Table κ ν) (k : κ) (v : ν) : Table κ ν :=
  (t.exchange k v).2

/--
Remove a key.
-/
def erase (t : Table κ ν) (k : κ) : Table κ ν :=
  ⟨t.entries.filter (fun entry => entry.1 ≠ k)⟩

/--
Change the value under a key, if there is one.
-/
def modify (t : Table κ ν) (k : κ) (f : ν → ν) : Table κ ν :=
  ⟨t.entries.map (fun entry => if entry.1 = k then (entry.1, f entry.2) else entry)⟩

@[simp]
theorem get?_empty (k : κ) : (empty : Table κ ν).get? k = none := rfl

@[simp]
theorem get?_nil (k : κ) : (⟨[]⟩ : Table κ ν).get? k = none := rfl

theorem get?_cons (entry : κ × ν) (rest : List (κ × ν)) (k : κ) :
    (⟨entry :: rest⟩ : Table κ ν).get? k =
      if entry.1 = k then some entry.2 else (⟨rest⟩ : Table κ ν).get? k := rfl

theorem exchange_cons (entry : κ × ν) (rest : List (κ × ν)) (k : κ) (v : ν) :
    (⟨entry :: rest⟩ : Table κ ν).exchange k v =
      if entry.1 = k then
        (some entry.2, ⟨(k, v) :: rest⟩)
      else
        ((exchange ⟨rest⟩ k v).1, ⟨entry :: (exchange ⟨rest⟩ k v).2.entries⟩) := by
  unfold exchange
  rw [exchange.go]
  by_cases h : entry.1 = k
  . rw [if_pos h, if_pos h]
  . rw [if_neg h, if_neg h]

@[simp]
theorem insert_nil (k : κ) (v : ν) : (⟨[]⟩ : Table κ ν).insert k v = ⟨[(k, v)]⟩ := rfl

theorem insert_cons (entry : κ × ν) (rest : List (κ × ν)) (k : κ) (v : ν) :
    (⟨entry :: rest⟩ : Table κ ν).insert k v =
      if entry.1 = k then ⟨(k, v) :: rest⟩ else ⟨entry :: (insert ⟨rest⟩ k v).entries⟩ := by
  rw [insert, exchange_cons]
  split <;> rfl

theorem get?_insert (t : Table κ ν) (k k' : κ) (v : ν) :
    (t.insert k v).get? k' = if k = k' then some v else t.get? k' := by
  obtain ⟨entries⟩ := t
  induction entries with
  | nil => rfl
  | cons entry rest ih =>
    rw [insert_cons]
    split
    . next h =>
      rw [get?_cons, get?_cons, h]
      split <;> rfl
    . next h =>
      rw [get?_cons, get?_cons, ih]
      grind

theorem get?_erase (t : Table κ ν) (k k' : κ) :
    (t.erase k).get? k' = if k = k' then none else t.get? k' := by
  obtain ⟨entries⟩ := t
  unfold erase
  dsimp only
  induction entries with
  | nil => simp
  | cons entry rest ih =>
    rw [List.filter_cons, get?_cons]
    split
    . rw [get?_cons, ih]
      grind
    . rw [ih]
      grind

theorem get?_modify (t : Table κ ν) (k k' : κ) (f : ν → ν) :
    (t.modify k f).get? k' = if k = k' then (t.get? k').map f else t.get? k' := by
  obtain ⟨entries⟩ := t
  unfold modify
  dsimp only
  induction entries with
  | nil => simp
  | cons entry rest ih =>
    rw [List.map_cons, get?_cons, get?_cons, ih]
    grind

end Table
end ShaderBuild
