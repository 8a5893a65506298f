import Mathlib.Data.List.Induction
import ShaderBuild.Table

/-!
This module contains the theory of tables that grow by fresh keys: what is done to the entry under a
fresh key does not show in the other entries, and taking it out again gives the table back.
-/

namespace ShaderBuild
namespace Table

variable {κ ν : Type} [DecidableEq κ] {t : Table κ ν} {k : κ}

theorem get?_eq_none_iff : t.get? k = none ↔ ∀ entry ∈ t.entries, entry.1 ≠ k := by
  rcases t with ⟨entries⟩
  induction entries with
  | nil => simp
  | cons entry rest ih =>
    rw [List.forall_mem_cons, ← ih, get?_cons]
    split
    . next h => simp [h]
    . next h => simp [h]

theorem exchange_of_fresh (h : t.get? k = none) (v : ν) :
    t.exchange k v = (none, ⟨t.entries ++ [(k, v)]⟩) := by
  rcases t with ⟨entries⟩
  induction entries with
  | nil => rfl
  | cons entry rest ih =>
    rw [get?_cons] at h
    split at h
    . cases h
    . next hne => rw [exchange_cons, if_neg hne, ih h, List.cons_append]

/--
A value is replaced at the place of the one that is looked up.
-/
theorem exists_exchange {v : ν} (h : t.get? k = some v) :
    ∃ before after, t.entries = before ++ (k, v) :: after ∧
      ∀ w, t.exchange k w = (some v, ⟨before ++ (k, w) :: after⟩) := by
  rcases t with ⟨entries⟩
  induction entries with
  | nil => cases h
  | cons entry rest ih =>
    rcases entry with ⟨key, value⟩
    rw [get?_cons] at h
    split at h
    . next heq =>
      cases h
      subst heq
      refine ⟨[], rest, rfl, ?_⟩
      intro w
      rw [exchange_cons, if_pos rfl, List.nil_append]
    . next hne =>
      rcases ih h with ⟨before, after, rfl, hexchange⟩
      refine ⟨(key, value) :: before, after, rfl, ?_⟩
      intro w
      rw [exchange_cons, if_neg hne, hexchange w, List.cons_append]

/--
What is given back is what was found under the key.
-/
theorem exchange_fst (t : Table κ ν) (k : κ) (v : ν) : (t.exchange k v).1 = t.get? k := by
  cases hget : t.get? k with
  | none => rw [exchange_of_fresh hget]
  | some old =>
    rcases exists_exchange hget with ⟨before, after, -, hexchange⟩
    rw [hexchange]

theorem entries_insert (h : t.get? k = none) (v : ν) :
    (t.insert k v).entries = t.entries ++ [(k, v)] := by
  rw [insert, exchange_of_fresh h]

theorem erase_of_fresh (h : t.get? k = none) : t.erase k = t := by
  rw [get?_eq_none_iff] at h
  unfold erase
  rw [List.filter_eq_self.mpr]
  intro entry hentry
  simpa using h entry hentry

theorem modify_of_fresh (h : t.get? k = none) (f : ν → ν) : t.modify k f = t := by
  rw [get?_eq_none_iff] at h
  unfold modify
  rw [List.map_congr_left (g := id)]
  . rw [List.map_id]
  . intro entry hentry
    simp [h entry hentry]

theorem get?_modify_eq_none (h : t.get? k = none) (k' : κ) (f : ν → ν) :
    (t.modify k' f).get? k = none := by
  rw [get?_modify, h]
  simp

theorem get?_erase_eq_none (h : t.get? k = none) (k' : κ) : (t.erase k').get? k = none := by
  rw [get?_erase, h]
  simp

theorem erase_insert (h : t.get? k = none) (v : ν) : (t.insert k v).erase k = t := by
  have herase := erase_of_fresh h
  unfold erase at herase ⊢
  rw [entries_insert h, List.filter_append]
  simpa using herase

theorem modify_insert (h : t.get? k = none) (v : ν) (f : ν → ν) :
    (t.insert k v).modify k f = t.insert k (f v) := by
  have hmodify := modify_of_fresh h f
  have hinsert := entries_insert h (f v)
  rcases t with ⟨entries⟩
  unfold modify at hmodify ⊢
  injection hmodify with hmodify
  rw [entries_insert h, List.map_append, hmodify]
  simp [← hinsert]

@[simp]
theorem get?_insert_self (v : ν) : (t.insert k v).get? k = some v := by
  rw [get?_insert, if_pos rfl]

/--
Insert entries from first to last.
-/
def insertAll (t : Table κ ν) (entries : List (κ × ν)) : Table κ ν :=
  entries.foldl (fun t entry => t.insert entry.1 entry.2) t

/--
Each of the entries has a key that neither the table nor an entry before it has.
-/
def Fresh (t : Table κ ν) : List (κ × ν) → Prop
  | [] => True
  | entry :: rest => t.get? entry.1 = none ∧ (t.insert entry.1 entry.2).Fresh rest

@[simp]
theorem insertAll_nil : t.insertAll [] = t := rfl

@[simp]
theorem insertAll_cons (entry : κ × ν) (rest : List (κ × ν)) :
    t.insertAll (entry :: rest) = (t.insert entry.1 entry.2).insertAll rest := rfl

theorem insertAll_concat (entries : List (κ × ν)) (k : κ) (v : ν) :
    t.insertAll (entries ++ [(k, v)]) = (t.insertAll entries).insert k v := by
  unfold insertAll
  rw [List.foldl_append]
  rfl

theorem fresh_concat_iff {entries : List (κ × ν)} {v : ν} :
    t.Fresh (entries ++ [(k, v)]) ↔ t.Fresh entries ∧ (t.insertAll entries).get? k = none := by
  induction entries generalizing t with
  | nil => simp [Fresh]
  | cons entry rest ih => simp [Fresh, ih, and_assoc]

theorem fresh_iff {entries : List (κ × ν)} :
    t.Fresh entries
      ↔
    (entries.map Prod.fst).Nodup ∧ ∀ k ∈ entries.map Prod.fst, t.get? k = none := by
  induction entries generalizing t with
  | nil => simp [Fresh]
  | cons entry rest ih =>
    rw [Fresh, ih, List.map_cons, List.nodup_cons, List.forall_mem_cons]
    constructor
    . rintro ⟨hfirst, hnodup, hrest⟩
      refine ⟨⟨?_, hnodup⟩, hfirst, ?_⟩
      . intro hmem
        have hget := hrest _ hmem
        rw [get?_insert_self] at hget
        cases hget
      . intro k hmem
        have hget := hrest k hmem
        rw [get?_insert] at hget
        split at hget
        . cases hget
        . exact hget
    . rintro ⟨⟨hnotMem, hnodup⟩, hfirst, hrest⟩
      refine ⟨hfirst, hnodup, ?_⟩
      intro k hmem
      rw [get?_insert, if_neg]
      . exact hrest k hmem
      . intro heq
        exact hnotMem (heq ▸ hmem)

theorem entries_insertAll {entries : List (κ × ν)} (hfresh : t.Fresh entries) :
    (t.insertAll entries).entries = t.entries ++ entries := by
  induction entries generalizing t with
  | nil => rw [insertAll_nil, List.append_nil]
  | cons entry rest ih =>
    rw [insertAll_cons, ih hfresh.2, entries_insert hfresh.1, List.append_assoc,
      List.singleton_append]

theorem get?_insertAll_eq_none_iff {entries : List (κ × ν)} :
    (t.insertAll entries).get? k = none ↔ t.get? k = none ∧ k ∉ entries.map Prod.fst := by
  induction entries generalizing t with
  | nil => simp
  | cons entry rest ih =>
    rw [insertAll_cons, ih, get?_insert, List.map_cons, List.mem_cons]
    split
    . next h => simp [h]
    . next h => simp [Ne.symm h]

theorem get?_insertAll_of_mem {entries : List (κ × ν)} (hfresh : t.Fresh entries) {v : ν}
    (hmem : (k, v) ∈ entries) : (t.insertAll entries).get? k = some v := by
  induction entries using List.reverseRecOn generalizing k v with
  | nil => cases hmem
  | append_singleton rest entry ih =>
    rcases entry with ⟨key, value⟩
    rw [fresh_concat_iff] at hfresh
    rw [insertAll_concat, get?_insert]
    rw [List.mem_append, List.mem_singleton] at hmem
    rcases hmem with hmem | hmem
    . have hget := ih hfresh.1 hmem
      rw [if_neg, hget]
      intro heq
      rw [heq, hget] at hfresh
      cases hfresh.2
    . cases hmem
      rw [if_pos rfl]

end Table
end ShaderBuild
