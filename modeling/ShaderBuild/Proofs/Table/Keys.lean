import Mathlib.Data.List.Basic
import ShaderBuild.Proofs.Table

/-!
This module contains the theory of tables in which no key occurs twice. What is looked up in such a
table is what its entries are, so that two ways to change or drop its entries are the same if they
do the same to everything that can be looked up.
-/

namespace ShaderBuild
namespace Table

variable {κ ν : Type} {t : Table κ ν} {k : κ} {v : ν}

/--
Change or drop every entry.
-/
def filterMap (t : Table κ ν) (f : κ → ν → Option ν) : Table κ ν :=
  ⟨t.entries.filterMap fun entry => (f entry.1 entry.2).map (Prod.mk entry.1)⟩

theorem filterMap_filterMap (f g : κ → ν → Option ν) :
    (t.filterMap f).filterMap g = t.filterMap fun k v => (f k v).bind (g k) := by
  unfold filterMap
  rw [List.filterMap_filterMap]
  congr
  funext entry
  rw [Option.bind_map, Option.map_bind]
  rfl

theorem keys_filterMap_sublist (f : κ → ν → Option ν) : (t.filterMap f).keys.Sublist t.keys := by
  unfold keys filterMap
  induction t.entries with
  | nil => simp
  | cons entry rest ih =>
    rw [List.filterMap_cons]
    cases f entry.1 entry.2 with
    | none => simpa using ih.cons entry.1
    | some v => simpa using ih

theorem nodup_keys_filterMap (h : t.keys.Nodup) (f : κ → ν → Option ν) :
    (t.filterMap f).keys.Nodup :=
  (keys_filterMap_sublist f).nodup h

theorem countP_filterMap (f : κ → ν → Option ν) (p : ν → Bool) :
    (t.filterMap f).values.countP p = t.entries.countP fun entry => (f entry.1 entry.2).any p := by
  unfold values filterMap
  rw [List.countP_map, List.countP_filterMap]
  congr
  funext entry
  cases f entry.1 entry.2 with
  | none => rfl
  | some v => rfl

theorem countP_values (p : ν → Bool) :
    t.values.countP p = t.entries.countP fun entry => p entry.2 := by
  unfold values
  rw [List.countP_map]
  rfl

theorem countP_filterMap_le {f : κ → ν → Option ν} {p : ν → Bool}
    (hf : ∀ k v v', f k v = some v' → p v' = true → p v = true) :
    (t.filterMap f).values.countP p ≤ t.values.countP p := by
  rw [countP_filterMap, countP_values]
  apply List.countP_mono_left
  intro entry _ hentry
  rw [Option.any_eq_true] at hentry
  rcases hentry with ⟨v', heq, hv'⟩
  exact hf _ _ _ heq hv'

@[simp]
theorem length_keys (t : Table κ ν) : t.keys.length = t.size := by
  unfold keys size
  rw [List.length_map]

variable [DecidableEq κ]

@[simp]
theorem keys_modify (t : Table κ ν) (k : κ) (f : ν → ν) : (t.modify k f).keys = t.keys := by
  unfold keys modify
  rw [List.map_map]
  apply List.map_congr_left
  intro entry _
  dsimp
  split <;> rfl

theorem keys_insert_of_fresh (h : t.get? k = none) (v : ν) :
    (t.insert k v).keys = t.keys ++ [k] := by
  unfold keys
  rw [entries_insert h]
  simp

theorem keys_insert_of_mem (h : k ∈ t.keys) (v : ν) : (t.insert k v).keys = t.keys := by
  rcases t with ⟨entries⟩
  unfold keys at *
  dsimp only at *
  induction entries with
  | nil => cases h
  | cons entry rest ih =>
    rw [List.map_cons, List.mem_cons] at h
    rw [insert_cons]
    split
    . next heq => rw [List.map_cons, List.map_cons, heq]
    . next hne =>
      rw [List.map_cons, List.map_cons, ih (h.resolve_left (Ne.symm hne))]

theorem keys_erase (t : Table κ ν) (k : κ) : (t.erase k).keys = t.keys.filter (· ≠ k) := by
  unfold keys erase
  rw [List.filter_map]
  rfl

theorem insert_insert (t : Table κ ν) (k : κ) (v w : ν) :
    (t.insert k v).insert k w = t.insert k w := by
  rcases t with ⟨entries⟩
  induction entries with
  | nil => simp [insert_cons]
  | cons entry rest ih =>
    by_cases heq : entry.1 = k
    . simp [insert_cons, heq]
    . simp [insert_cons, heq, ih]

theorem mem_values_insert {v' : ν} (h : v' ∈ (t.insert k v).values) : v' = v ∨ v' ∈ t.values := by
  rcases t with ⟨entries⟩
  unfold values at *
  dsimp only at *
  induction entries with
  | nil => simpa using h
  | cons entry rest ih =>
    rw [insert_cons] at h
    rw [List.map_cons, List.mem_cons]
    split at h
    . rw [List.map_cons, List.mem_cons] at h
      exact h.imp_right .inr
    . rw [List.map_cons, List.mem_cons] at h
      rcases h with rfl | h
      . exact .inr (.inl rfl)
      . exact (ih h).imp_right .inr

theorem mem_values_erase {v' : ν} (h : v' ∈ (t.erase k).values) : v' ∈ t.values := by
  unfold values erase at *
  rw [List.mem_map] at *
  rcases h with ⟨entry, hentry, rfl⟩
  exact ⟨entry, List.mem_of_mem_filter hentry, rfl⟩

theorem get?_insert_eq_some {k' : κ} {v' : ν} (h : (t.insert k v).get? k' = some v') :
    k' = k ∧ v' = v ∨ t.get? k' = some v' := by
  rw [get?_insert] at h
  split at h
  . next heq =>
    cases h
    exact .inl ⟨heq.symm, rfl⟩
  . exact .inr h

theorem get?_modify_eq_some {k' : κ} {v' : ν} {f : ν → ν}
    (h : (t.modify k f).get? k' = some v') :
    ∃ v, t.get? k' = some v ∧ v' = if k' = k then f v else v := by
  rw [get?_modify] at h
  split at h
  . next heq =>
    rw [Option.map_eq_some_iff] at h
    rcases h with ⟨v, hv, rfl⟩
    exact ⟨v, hv, by rw [if_pos heq.symm]⟩
  . next hne => exact ⟨v', h, by rw [if_neg (Ne.symm hne)]⟩

theorem exists_get?_modify_iff {k' : κ} {f : ν → ν} :
    (∃ v, (t.modify k f).get? k' = some v) ↔ ∃ v, t.get? k' = some v := by
  rw [get?_modify]
  split
  . simp
  . rfl

theorem get?_eq_none_iff_notMem_keys : t.get? k = none ↔ k ∉ t.keys := by
  rw [get?_eq_none_iff]
  unfold keys
  rw [List.mem_map]
  constructor
  . rintro h ⟨entry, hentry, heq⟩
    exact h entry hentry heq
  . intro h entry hentry heq
    exact h ⟨entry, hentry, heq⟩

theorem mem_keys_of_get? (h : t.get? k = some v) : k ∈ t.keys := by
  by_contra hnotMem
  rw [← get?_eq_none_iff_notMem_keys, h] at hnotMem
  cases hnotMem

theorem size_eq_zero_iff : t.size = 0 ↔ ∀ k, t.get? k = none := by
  unfold size
  rw [List.length_eq_zero_iff]
  constructor
  . intro h k
    rw [get?_eq_none_iff, h]
    simp
  . intro h
    cases hentries : t.entries with
    | nil => rfl
    | cons entry rest =>
      have := h entry.1
      rw [get?_eq_none_iff, hentries] at this
      exact absurd rfl (this entry List.mem_cons_self)

theorem nodup_keys_insert (hnodup : t.keys.Nodup) (h : t.get? k = none) (v : ν) :
    (t.insert k v).keys.Nodup := by
  rw [keys_insert_of_fresh h, (List.perm_append_singleton _ _).nodup_iff, List.nodup_cons]
  exact ⟨get?_eq_none_iff_notMem_keys.mp h, hnodup⟩

theorem mem_entries_of_get? (h : t.get? k = some v) : (k, v) ∈ t.entries := by
  rcases t with ⟨entries⟩
  induction entries with
  | nil => cases h
  | cons entry rest ih =>
    rcases entry with ⟨key, value⟩
    rw [get?_cons] at h
    split at h
    . next heq =>
      cases h
      rw [← heq]
      apply List.mem_cons_self
    . apply List.mem_cons_of_mem
      exact ih h

theorem mem_values_of_get? (h : t.get? k = some v) : v ∈ t.values := by
  unfold values
  rw [List.mem_map]
  exact ⟨_, mem_entries_of_get? h, rfl⟩

theorem exists_get?_iff_mem_keys : (∃ v, t.get? k = some v) ↔ k ∈ t.keys := by
  rw [← Option.ne_none_iff_exists', ne_eq, get?_eq_none_iff_notMem_keys, not_not]

theorem mem_keys_insert_iff {k' : κ} : k' ∈ (t.insert k v).keys ↔ k' = k ∨ k' ∈ t.keys := by
  rw [← exists_get?_iff_mem_keys, ← exists_get?_iff_mem_keys, get?_insert]
  split
  . next heq => simp [heq]
  . next hne => simp [Ne.symm hne]

theorem get?_eq_some_iff (hnodup : t.keys.Nodup) : t.get? k = some v ↔ (k, v) ∈ t.entries := by
  constructor
  . apply mem_entries_of_get?
  . intro hmem
    rcases t with ⟨entries⟩
    unfold keys at hnodup
    dsimp only at hmem hnodup
    induction entries with
    | nil => cases hmem
    | cons entry rest ih =>
      rw [List.map_cons, List.nodup_cons] at hnodup
      rw [List.mem_cons] at hmem
      rcases hmem with rfl | hmem
      . rw [get?_cons, if_pos rfl]
      . have hkey : k ∈ rest.map Prod.fst := List.mem_map.mpr ⟨_, hmem, rfl⟩
        have hne : entry.1 ≠ k := (ne_of_mem_of_not_mem hkey hnodup.1).symm
        rw [get?_cons, if_neg hne]
        exact ih hnodup.2 hmem

theorem get?_filterMap (hnodup : t.keys.Nodup) (f : κ → ν → Option ν) (k : κ) :
    (t.filterMap f).get? k = (t.get? k).bind (f k) := by
  apply Option.ext
  intro v
  rw [get?_eq_some_iff (nodup_keys_filterMap hnodup f), Option.bind_eq_some_iff]
  simp only [get?_eq_some_iff hnodup, filterMap, List.mem_filterMap, Option.map_eq_some_iff]
  constructor
  . rintro ⟨⟨key, w⟩, hmem, v', hv', heq⟩
    cases heq
    exact ⟨w, hmem, hv'⟩
  . rintro ⟨w, hmem, hv⟩
    exact ⟨(k, w), hmem, v, hv, rfl⟩

theorem filterMap_congr (hnodup : t.keys.Nodup) {f g : κ → ν → Option ν}
    (h : ∀ k v, t.get? k = some v → f k v = g k v) : t.filterMap f = t.filterMap g := by
  unfold filterMap
  congr 1
  apply List.filterMap_congr
  intro entry hentry
  rw [h]
  rw [get?_eq_some_iff hnodup]
  exact hentry

theorem filterMap_eq_self (hnodup : t.keys.Nodup) {f : κ → ν → Option ν}
    (h : ∀ k v, t.get? k = some v → f k v = some v) : t.filterMap f = t := by
  rw [filterMap_congr hnodup h]
  unfold filterMap
  simp

theorem modify_eq_filterMap (t : Table κ ν) (k : κ) (f : ν → ν) :
    t.modify k f = t.filterMap fun k' v => some (if k' = k then f v else v) := by
  unfold modify filterMap
  rw [← List.filterMap_eq_map]
  congr
  funext entry
  split <;> rfl

theorem erase_eq_filterMap (t : Table κ ν) (k : κ) :
    t.erase k = t.filterMap fun k' v => if k' = k then none else some v := by
  unfold erase filterMap
  rw [← List.filterMap_eq_filter]
  congr
  funext entry
  by_cases h : entry.1 = k
  . simp [h, Option.guard]
  . simp [h, Option.guard]

theorem erase_modify_self (t : Table κ ν) (k : κ) (f : ν → ν) :
    (t.modify k f).erase k = t.erase k := by
  rw [modify_eq_filterMap, erase_eq_filterMap, erase_eq_filterMap, filterMap_filterMap]
  congr
  funext k' v
  dsimp
  split <;> rfl

section Renamed

variable {ν' : Type} {t' : Table κ ν'} {f : κ → κ}

theorem map_update_of_notMem {k' : κ} {l : List κ} (h : k ∉ l) :
    l.map (Function.update f k k') = l.map f := by
  apply List.map_congr_left
  intro other hother
  rw [Function.update_of_ne (ne_of_mem_of_not_mem hother h)]

theorem map_filter_ne {l : List κ} (hinj : ∀ other ∈ l, f other = f k ↔ other = k) :
    (l.map f).filter (· ≠ f k) = (l.filter (· ≠ k)).map f := by
  rw [List.filter_map]
  congr 1
  apply List.filter_congr
  intro other hother
  have := hinj other hother
  simp [this]

/--
Tables with the same keys up to renaming get keys that none of them has.
-/
theorem keys_insert_update {k' : κ} (hkeys : t'.keys = t.keys.map f) (h : t.get? k = none)
    (h' : t'.get? k' = none) (v : ν) (v' : ν') :
    (t'.insert k' v').keys = (t.insert k v).keys.map (Function.update f k k') := by
  have hnotMem := get?_eq_none_iff_notMem_keys.mp h
  rw [keys_insert_of_fresh h, keys_insert_of_fresh h', List.map_append,
    map_update_of_notMem hnotMem, ← hkeys, List.map_singleton, Function.update_self]

theorem keys_erase_map (hkeys : t'.keys = t.keys.map f)
    (hinj : ∀ other ∈ t.keys, f other = f k ↔ other = k) :
    (t'.erase (f k)).keys = (t.erase k).keys.map f := by
  rw [keys_erase, keys_erase, hkeys]
  exact map_filter_ne hinj

end Renamed

theorem countP_insert_of_fresh (h : t.get? k = none) (v : ν) (p : ν → Bool) :
    (t.insert k v).values.countP p = t.values.countP p + if p v then 1 else 0 := by
  unfold values
  rw [entries_insert h]
  simp [List.countP_cons]

/--
Changing one value changes how often a property holds by what the change does to it there.
-/
theorem countP_filterMap_add (hnodup : t.keys.Nodup) (h : t.get? k = some v)
    {f : κ → ν → Option ν} {p : ν → Bool}
    (hothers : ∀ k' v', k' ≠ k → (f k' v').any p = p v') :
    (t.filterMap f).values.countP p + (if p v then 1 else 0)
      =
    t.values.countP p + if (f k v).any p then 1 else 0 := by
  rw [countP_filterMap, countP_values]
  rcases t with ⟨entries⟩
  unfold keys at hnodup
  dsimp only at *
  induction entries with
  | nil => cases h
  | cons entry rest ih =>
    rcases entry with ⟨key, value⟩
    rw [List.map_cons, List.nodup_cons] at hnodup
    rw [List.countP_cons, List.countP_cons]
    rw [get?_cons] at h
    split at h
    . next heq =>
      -- the other entries have other keys, so that they are counted the same
      cases h
      subst heq
      have hrest : (rest.countP fun entry => (f entry.1 entry.2).any p) =
          rest.countP fun entry => p entry.2 := by
        apply List.countP_congr
        intro entry hentry
        have hkey : entry.1 ∈ rest.map Prod.fst := List.mem_map.mpr ⟨_, hentry, rfl⟩
        rw [hothers _ _ (ne_of_mem_of_not_mem hkey hnodup.1)]
      rw [hrest]
      dsimp only
      omega
    . next hne =>
      have := ih hnodup.2 h
      dsimp only
      rw [hothers key value hne]
      omega

end Table
end ShaderBuild
