import Mathlib.Data.Finset.Card
import ShaderBuild.Proofs.Include.Memory
import ShaderBuild.Proofs.Template.Expands
import ShaderBuild.Proofs.Template.Settles

/-!
This module contains what the limit on the nesting of includes does. It is met only inside as many
texts as it allows, all under different keys, and a larger limit does not change any other result.
Whatever the providers generate, the limit brings every expansion to an end.
-/

namespace ShaderBuild
namespace Template

variable {t : Template} {name : String} {stack : List String} {found : Found}

/--
Expanding the text inside the texts of `stack` comes to an end. The result depends on the keys that
are not to be expanded again, and all that the text includes comes to an end first. There is no
measure for what is still to be done.
-/
inductive Ends (t : Template) :
    List String → Found → (List String → Except TemplateError Expansion) → Prop
  | cycle {stack : List String} {found : Found} :
    found.key ∈ stack → Ends t stack found fun _ => .error (.includeCycle (stack ++ [found.key]))
  | tooDeep {stack : List String} {found : Found} :
    found.key ∉ stack → t.maxDepth ≤ stack.length →
      Ends t stack found fun _ => .error (.tooDeep found.key t.maxDepth)
  | lines {stack : List String} {found : Found}
      {enter : Found → List String → Except TemplateError Expansion} :
    found.key ∉ stack → stack.length < t.maxDepth →
      (∀ inner, t.Includes found inner → Ends t (stack ++ [found.key]) inner (enter inner)) →
        Ends t stack found fun once =>
          t.expandLines enter found.key (Text.numberedLines found.text) once

/--
An expansion ends in the same way, however the texts are expanded that its text does not include.
-/
theorem Ends.unique {run run' : List String → Except TemplateError Expansion}
    (h : t.Ends stack found run) (h' : t.Ends stack found run') : run' = run := by
  induction h generalizing run' with
  | cycle hkey =>
    cases h' with
    | cycle _ => rfl
    | tooDeep hkey' _ => exact absurd hkey hkey'
    | lines hkey' _ _ => exact absurd hkey hkey'
  | tooDeep hkey hlength =>
    cases h' with
    | cycle hkey' => exact absurd hkey' hkey
    | tooDeep _ _ => rfl
    | lines _ hlength' _ => omega
  | lines hkey hlength _ ih =>
    cases h' with
    | cycle hkey' => exact absurd hkey' hkey
    | tooDeep _ hlength' => omega
    | lines _ _ hinner' =>
      funext once
      -- no error is open here, so that results which settle each other are equal
      have hsame : Widens (fun _ => False) t t := .refl t
      refine Settles.eq (hsame.expandText fun inner hincludes once => ?_) fun _ h => h.elim
      exact .inl (congrFun (ih inner hincludes (hinner' inner hincludes)) once)

theorem expand_of_mem {room : Nat} (h : found.key ∈ stack) :
    t.expand room stack found = fun _ => .error (.includeCycle (stack ++ [found.key])) := by
  funext once
  rw [expand_eq, if_pos h]

/--
The levels that are left are enough for an expansion to come to its end.
-/
theorem ends_expand {room : Nat} (hroom : stack.length + room = t.maxDepth) :
    t.Ends stack found (t.expand room stack found) := by
  induction room generalizing stack found with
  | zero =>
    by_cases hkey : found.key ∈ stack
    . rw [expand_of_mem hkey]
      exact .cycle hkey
    . have htooDeep : t.expand 0 stack found = fun _ => _ := funext fun _ => if_neg hkey
      rw [htooDeep]
      exact .tooDeep hkey (by omega)
  | succ room ih =>
    by_cases hkey : found.key ∈ stack
    . rw [expand_of_mem hkey]
      exact .cycle hkey
    . have hlines : t.expand (room + 1) stack found = fun _ => _ := funext fun _ => if_neg hkey
      rw [hlines]
      apply Ends.lines hkey (by omega)
      intro inner _
      apply ih
      rw [List.length_append, List.length_singleton]
      omega

/--
Every text that is entered or met on the way is found for some name.
-/
theorem Nests.lookup {outer : List Found} {last : Found} (h : t.Nests name outer last) :
    ∀ found ∈ outer ++ [last], ∃ includer included,
      t.lookup includer included = .ok (some found) := by
  apply h.includes.induction
  . rintro found inner ⟨_, _, included, _, hlookup⟩ _
    exact ⟨some found.key, included, hlookup⟩
  . intro hne
    rcases h.root with ⟨root, hhead, hlookup⟩
    rw [(List.head_eq_iff_head?_eq_some hne).mpr hhead]
    exact ⟨none, name, hlookup⟩

/--
As texts that are entered have different keys, a set of keys bounds their number.
-/
theorem Nests.length_lt_card {outer : List Found} {last : Found} {keys : Finset String}
    (h : t.Nests name outer last) (hkey : last.key ∉ outer.map Found.key)
    (hkeys : ∀ includer included found,
      t.lookup includer included = .ok (some found) → found.key ∈ keys) :
    outer.length < keys.card := by
  have hsubset : ((outer ++ [last]).map Found.key).toFinset ⊆ keys := by
    intro key hmem
    rw [List.mem_toFinset, List.mem_map] at hmem
    rcases hmem with ⟨found, hfound, rfl⟩
    rcases h.lookup found hfound with ⟨includer, included, hlookup⟩
    exact hkeys includer included found hlookup
  have hcard := Finset.card_le_card hsubset
  rw [List.toFinset_card_of_nodup (h.nodup_concat hkey), List.length_map, List.length_append,
    List.length_singleton] at hcard
  exact hcard

/--
A limit that is not exceeded can be raised without any change. A limit is exceeded by a text that is
met inside as many others as are allowed, which lead to it from the text of the name and all have
different keys, so it is not exceeded if there are no more keys than levels. Every expansion comes
to an end, and in one way only.
-/
theorem load_setMaxDepth (t : Template) (name : String) (d : Nat) :
    (∀ d', d ≤ d' → (∀ key limit, (t.setMaxDepth d).load name ≠ .error (.tooDeep key limit)) →
      (t.setMaxDepth d').load name = (t.setMaxDepth d).load name) ∧
      (∀ key limit, (t.setMaxDepth d).load name = .error (.tooDeep key limit) →
        limit = d ∧ ∃ outer last,
          (t.setMaxDepth d).Nests name outer last ∧ outer.length = d ∧ last.key = key ∧
            key ∉ outer.map Found.key) ∧
      (∀ keys : Finset String,
        (∀ includer included found,
          t.lookup includer included = .ok (some found) → found.key ∈ keys) →
            keys.card ≤ d →
              ∀ key limit, (t.setMaxDepth d).load name ≠ .error (.tooDeep key limit)) ∧
      (∀ root, t.lookup none name = .ok (some root) → ∃ run,
        (t.setMaxDepth d).Ends [] root run ∧
          (∀ run', (t.setMaxDepth d).Ends [] root run' → run' = run) ∧
            (t.setMaxDepth d).load name = (run []).map Expansion.source) := by
  have htooDeep : ∀ key limit, (t.setMaxDepth d).load name = .error (.tooDeep key limit) →
      limit = d ∧ ∃ outer last,
        (t.setMaxDepth d).Nests name outer last ∧ outer.length = d ∧ last.key = key ∧
          key ∉ outer.map Found.key := by
    intro key limit h
    cases fault_of_load h with
    | @tooDeep outer last hnests hkey hlength =>
      exact ⟨rfl, outer, last, hnests, hlength, rfl, hkey⟩
  refine ⟨?_, htooDeep, ?_, ?_⟩
  . intro d' hd h
    have hwidens : Widens (fun e => ∃ key limit, e = .tooDeep key limit) (t.setMaxDepth d)
        (t.setMaxDepth d') :=
      ⟨fun _ _ => .inl rfl, .inr ⟨hd, fun key => ⟨key, d, rfl⟩⟩⟩
    apply (hwidens.load name).eq
    rintro _ ⟨key, limit, rfl⟩
    exact h key limit
  . intro keys hkeys hcard key limit h
    rcases htooDeep key limit h with ⟨_, outer, last, hnests, hlength, rfl, hkey⟩
    have hlt := hnests.length_lt_card hkey hkeys
    omega
  . intro root hlookup
    have hends : (t.setMaxDepth d).Ends [] root _ := ends_expand (Nat.zero_add d)
    exact ⟨_, hends, fun _ => hends.unique, load_eq_map hlookup⟩

/--
A provider that generates ever longer names, and two files that use up the levels that are allowed.
-/
theorem load_setMaxDepth_generating :
    let generating := empty.addProvider (.pattern "a" "#include <a\x7b\x7da>")
    let files := MemoryFiles.ofList [("main.glsl", "#include \"a.glsl\"\n"), ("a.glsl", "x\n")]
    let stored := empty.addSource files.source
    let root : Found := ⟨"a", "#include <aa>"⟩
    let keys : Finset String := {"main.glsl", "a.glsl"}
    ((generating.setMaxDepth 3).load "a" = .error (.tooDeep "aaaa" 3) ∧
      ∃ outer last,
        (generating.setMaxDepth 3).Nests "a" outer last ∧ outer.length = 3 ∧ last.key = "aaaa" ∧
          "aaaa" ∉ outer.map Found.key) ∧
      (generating.lookup none "a" = .ok (some root) ∧ ∃ run,
        (generating.setMaxDepth 3).Ends [] root run ∧
          (∀ run', (generating.setMaxDepth 3).Ends [] root run' → run' = run) ∧
            (generating.setMaxDepth 3).load "a" = (run []).map Expansion.source) ∧
      ((∀ includer included found,
        stored.lookup includer included = .ok (some found) → found.key ∈ keys) ∧ keys.card ≤ 2 ∧
          ∀ key limit, (stored.setMaxDepth 2).load "main.glsl" ≠ .error (.tooDeep key limit)) ∧
      (stored.setMaxDepth 5).load "main.glsl" = (stored.setMaxDepth 2).load "main.glsl" := by
  intro generating files stored root keys
  have hload : (generating.setMaxDepth 3).load "a" = .error (.tooDeep "aaaa" 3) := by
    simp only [generating]
    decide +kernel
  have hlookup : generating.lookup none "a" = .ok (some root) := by
    simp only [generating, root]
    decide +kernel
  have hentries : ∀ entry ∈ files.files.entries, entry.1 ∈ keys := by
    simp only [files, keys]
    decide +kernel
  have hkeys : ∀ includer included found,
      stored.lookup includer included = .ok (some found) → found.key ∈ keys := by
    intro includer included found h
    cases records_of_lookup h with
    | generated hprovide => cases hprovide
    | held _ hread =>
      rcases readFirst_eq_some hread with ⟨_, source, hsource, htext⟩
      exact hentries _ (MemoryFiles.mem_entries_of_read hsource htext)
  have hcard : keys.card ≤ 2 := Finset.card_le_two
  have hshallow := (load_setMaxDepth stored "main.glsl" 2).2.2.1 keys hkeys hcard
  exact ⟨⟨hload, ((load_setMaxDepth generating "a" 3).2.1 _ _ hload).2⟩,
    ⟨hlookup, (load_setMaxDepth generating "a" 3).2.2.2 root hlookup⟩, ⟨hkeys, hcard, hshallow⟩,
    (load_setMaxDepth stored "main.glsl" 2).1 5 (by decide) hshallow⟩

end Template
end ShaderBuild
