import Mathlib.Logic.Relation
import ShaderBuild.Proofs.Include.Memory
import ShaderBuild.Proofs.Template.Faults
import ShaderBuild.Proofs.Template.Substitution

/-!
This module contains that include cycles are reported truly and do not go unnoticed. A chain that is
reported is a way along include directives from the text of the name back to one of its keys. If no
text is expanded only once, no name is loaded from which there is such a way.
-/

namespace ShaderBuild
namespace Template

variable {t : Template} {stack once : List String} {key : String}

/--
While no text is to be left out, what is included in lines that are expanded is expanded as well.
-/
theorem Expands.exists_inner {ls : List (Nat × String)} {e : Expansion} {looked : List Found}
    {line included : String} {inner : Found} (honce : t.HasNoOnce)
    (h : Expands t stack key ls once e looked) (hempty : once = [])
    (hls : ∀ entry ∈ ls, Directive.parse? entry.2 ≠ some .pragmaOnce)
    (hline : line ∈ ls.map Prod.snd) (hparse : Directive.parse? line = some (.includeFile included))
    (hlookup : t.lookup (some key) included = .ok (some inner)) :
    inner.key ∉ stack ∧
      ∃ e looked,
        Expands t (stack ++ [inner.key]) inner.key (Text.numberedLines inner.text) [] e looked := by
  induction h with
  | nil => cases hline
  | copy hcopied _ ih =>
    rw [List.forall_mem_cons] at hls
    rw [List.map_cons, List.mem_cons] at hline
    rcases hline with rfl | hline
    . rw [hcopied] at hparse
      cases hparse
    . exact ih hempty hls.2 hline hlookup
  | pragmaOnce hpragma _ _ =>
    rw [List.forall_mem_cons] at hls
    exact absurd hpragma hls.1
  | skip _ _ hmem _ _ =>
    rw [hempty] at hmem
    cases hmem
  | enter hinclude hfound _ hstack hinner _ _ ih =>
    subst hempty
    rw [List.forall_mem_cons] at hls
    rw [List.map_cons, List.mem_cons] at hline
    rcases hline with rfl | hline
    . rw [hinclude] at hparse
      cases hparse
      rw [hlookup] at hfound
      cases hfound
      exact ⟨hstack, _, _, hinner⟩
    . -- after the text that is entered here there is still none to be left out
      have hstill := hinner.once_eq honce (honce.numberedLines (hasText_of_lookup hfound))
      exact ih hstill hls.2 hline hlookup

/--
A text that is recorded under the key has a directive that a text under the other key is found for.
-/
def Leads (t : Template) (key key' : String) : Prop :=
  ∃ found inner, t.Records found ∧ found.key = key ∧ t.Includes found inner ∧ inner.key = key'

/--
The text is expanded inside the texts of `stack`, while no text is to be left out.
-/
structure Expanded (t : Template) (stack : List String) (found : Found) : Prop where
  records : t.Records found
  key_notMem : found.key ∉ stack
  expands : ∃ e looked,
    Expands t (stack ++ [found.key]) found.key (Text.numberedLines found.text) [] e looked

namespace Expanded

variable {found inner : Found}

theorem of_load {name : String} {source : Source} (h : t.load name = .ok source)
    (hlookup : t.lookup none name = .ok (some found)) : t.Expanded [] found := by
  rcases Expands.of_load h with ⟨root, e, looked, hroot, hexpands, _⟩
  rw [hlookup] at hroot
  cases hroot
  exact ⟨records_of_lookup hlookup, List.not_mem_nil, e, looked, hexpands⟩

theorem includes (honce : t.HasNoOnce) (h : t.Expanded stack found)
    (hincludes : t.Includes found inner) : t.Expanded (stack ++ [found.key]) inner := by
  rcases hincludes with ⟨line, hline, included, hparse, hlookup⟩
  rcases h.expands with ⟨e, looked, hexpands⟩
  rw [← Text.map_snd_numberedLines] at hline
  have hls := honce.numberedLines h.records.hasText
  rcases hexpands.exists_inner honce rfl hls hline hparse hlookup with ⟨hkey, hinner⟩
  exact ⟨records_of_lookup hlookup, hkey, hinner⟩

/--
As there is one text under each key, what a key leads to is included by the text under the key.
-/
theorem leads (honce : t.HasNoOnce) (hapart : t.ProvidersApart) (h : t.Expanded stack found)
    (hleads : t.Leads found.key key) :
    ∃ inner, inner.key = key ∧ t.Expanded (stack ++ [found.key]) inner := by
  rcases hleads with ⟨found', inner, hrecords, hkey, hincludes, hinner⟩
  cases h.records.eq_of_key_eq hapart.answersAgree hrecords hkey.symm
  exact ⟨inner, hinner, h.includes honce hincludes⟩

theorem reaches (honce : t.HasNoOnce) (hapart : t.ProvidersApart) (h : t.Expanded stack found)
    (hreaches : Relation.ReflTransGen t.Leads found.key key) :
    ∃ stack' inner, stack ⊆ stack' ∧ inner.key = key ∧ t.Expanded stack' inner := by
  induction hreaches with
  | refl => exact ⟨stack, found, List.Subset.refl _, rfl, h⟩
  | tail _ hleads ih =>
    rcases ih with ⟨stack', inner, hsubset, rfl, hinner⟩
    rcases hinner.leads honce hapart hleads with ⟨next, hnext, hexpanded⟩
    exact ⟨_, next, List.subset_append_of_subset_left _ hsubset, hnext, hexpanded⟩

/--
A text that is expanded is not led to from its own key, as it would be met inside itself.
-/
theorem not_leads_self (honce : t.HasNoOnce) (hapart : t.ProvidersApart)
    (h : t.Expanded stack found) : ¬Relation.TransGen t.Leads found.key found.key := by
  intro hcycle
  rw [Relation.TransGen.head'_iff] at hcycle
  rcases hcycle with ⟨next, hleads, hreaches⟩
  rcases h.leads honce hapart hleads with ⟨inner, rfl, hinner⟩
  rcases hinner.reaches honce hapart hreaches with ⟨stack', again, hsubset, hkey, hagain⟩
  apply hagain.key_notMem
  rw [hkey]
  exact hsubset (List.mem_append_right _ (List.mem_singleton_self _))

end Expanded

/--
A chain that is reported leads along include directives from the text of the name to a key that it
holds already, and it has no more keys before that one than texts can be entered one inside the
other. If no text is expanded only once and no provider stands in front of a file, a name is not
loaded from which includes lead to a key that they lead back to.
-/
theorem load_cycle (t : Template) (name : String) :
    (∀ chain, t.load name = .error (.includeCycle chain) →
      ∃ outer last,
        t.Nests name outer last ∧ outer ≠ [] ∧ last.key ∈ outer.map Found.key ∧
          chain = (outer ++ [last]).map Found.key) ∧
      (t.HasNoOnce → t.ProvidersApart → ∀ root key,
        t.lookup none name = .ok (some root) → Relation.ReflTransGen t.Leads root.key key →
          Relation.TransGen t.Leads key key → ∀ source, t.load name ≠ .ok source) := by
  constructor
  . intro chain h
    cases fault_of_load h with
    | @cycle outer last hnests hkey =>
      refine ⟨outer, last, hnests, ?_, hkey, rfl⟩
      rintro rfl
      cases hkey
  . intro honce hapart root key hlookup hreaches hcycle source h
    have hroot := Expanded.of_load h hlookup
    rcases hroot.reaches honce hapart hreaches with ⟨_, inner, _, rfl, hinner⟩
    exact hinner.not_leads_self honce hapart hcycle

/--
Two files that include each other, reached from a third one.
-/
theorem load_cycle_two_files :
    let files := MemoryFiles.ofList
      [("main.glsl", "#include \"lib/a.glsl\"\n"), ("lib/a.glsl", "x\n#include \"b.glsl\"\n"),
        ("lib/b.glsl", "#include \"../lib/./a.glsl\"\n")]
    let t := empty.addSource files.source
    let chain := ["main.glsl", "lib/a.glsl", "lib/b.glsl", "lib/a.glsl"]
    t.load "main.glsl" = .error (.includeCycle chain) ∧
      (∃ outer last,
        t.Nests "main.glsl" outer last ∧ outer ≠ [] ∧ last.key ∈ outer.map Found.key ∧
          chain = (outer ++ [last]).map Found.key) ∧
      t.HasNoOnce ∧ t.ProvidersApart ∧ Relation.TransGen t.Leads "lib/a.glsl" "lib/a.glsl" ∧
        ∀ source, t.load "main.glsl" ≠ .ok source := by
  intro files t chain
  have honce : t.HasNoOnce := by
    have hlines : ∀ entry ∈ files.files.entries, ∀ line ∈ Text.lines entry.2,
        Directive.parse? line ≠ some .pragmaOnce := by
      simp only [files]
      decide +kernel
    intro text htext
    cases htext with
    | generated hprovider _ => cases hprovider
    | held hsource htext => exact hlines _ (MemoryFiles.mem_entries_of_read hsource htext)
  have hapart : t.ProvidersApart := by
    intro source _ path text _ _
    rfl
  have hload : t.load "main.glsl" = .error (.includeCycle chain) := by
    simp only [t, files, chain]
    decide +kernel
  let root : Found := ⟨"main.glsl", "#include \"lib/a.glsl\"\n"⟩
  let a : Found := ⟨"lib/a.glsl", "x\n#include \"b.glsl\"\n"⟩
  let b : Found := ⟨"lib/b.glsl", "#include \"../lib/./a.glsl\"\n"⟩
  have hroot : t.lookup none "main.glsl" = .ok (some root) := by
    simp only [t, files, root]
    decide +kernel
  have hrootA : t.lookup (some "main.glsl") "lib/a.glsl" = .ok (some a) := by
    simp only [t, files, a]
    decide +kernel
  have hab : t.lookup (some "lib/a.glsl") "b.glsl" = .ok (some b) := by
    simp only [t, files, b]
    decide +kernel
  have hba : t.lookup (some "lib/b.glsl") "../lib/./a.glsl" = .ok (some a) := by
    simp only [t, files, a]
    decide +kernel
  have hleadsRoot : t.Leads "main.glsl" "lib/a.glsl" :=
    ⟨root, a, records_of_lookup hroot, rfl,
      ⟨"#include \"lib/a.glsl\"", by decide +kernel, _, by decide +kernel, hrootA⟩, rfl⟩
  have hleadsA : t.Leads "lib/a.glsl" "lib/b.glsl" :=
    ⟨a, b, records_of_lookup hrootA, rfl,
      ⟨"#include \"b.glsl\"", by decide +kernel, _, by decide +kernel, hab⟩, rfl⟩
  have hleadsB : t.Leads "lib/b.glsl" "lib/a.glsl" :=
    ⟨b, a, records_of_lookup hab, rfl,
      ⟨"#include \"../lib/./a.glsl\"", by decide +kernel, _, by decide +kernel, hba⟩, rfl⟩
  have hcycle : Relation.TransGen t.Leads "lib/a.glsl" "lib/a.glsl" :=
    .tail (.single hleadsA) hleadsB
  exact ⟨hload, (load_cycle t "main.glsl").1 chain hload, honce, hapart, hcycle,
    (load_cycle t "main.glsl").2 honce hapart root "lib/a.glsl" hroot (.single hleadsRoot) hcycle⟩

end Template
end ShaderBuild
