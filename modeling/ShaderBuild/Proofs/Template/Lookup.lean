import ShaderBuild.Include.FileTree
import ShaderBuild.Proofs.Except
import ShaderBuild.Proofs.Path
import ShaderBuild.Template

/-!
This module contains what a name can be found as: a text that a provider generates, under the name
as it is written, or a text that a source holds, under a path in normal form.
-/

namespace ShaderBuild

namespace Place

theorem source_read (place : Place) (directory path : String) :
    (place.source directory).read path =
      match place.read (Path.join directory (Path.fromRoot path)) with
      | .ok text => .ok (some text)
      | .error .notFound => .ok none
      | .error e => .error e :=
  rfl

theorem source_read_eq_some_iff {place : Place} {directory path text : String} :
    (place.source directory).read path = .ok (some text)
      ↔
    place.read (Path.join directory (Path.fromRoot path)) = .ok text := by
  rw [source_read]
  cases place.read (Path.join directory (Path.fromRoot path)) with
  | ok text' => simp
  | error e => cases e <;> simp

end Place

namespace Template

variable {t : Template} {includer : Option String} {name path : String} {found : Found}

/--
A text that a template has, generated by a provider or held by a source.
-/
inductive HasText (t : Template) : String → Prop
  | generated {provider : Provider} {name text : String} :
    provider ∈ t.providers → provider name = some text → HasText t text
  | held {source : IncludeSource} {path text : String} :
    source ∈ t.sources → source.read path = .ok (some text) → HasText t text

/--
No name that a provider answers is the path of a file.
-/
def ProvidersApart (t : Template) : Prop :=
  ∀ source ∈ t.sources, ∀ path text, Path.IsNormal path →
    source.read path = .ok (some text) → t.provide? path = none

theorem readFirst_eq_some {sources : List IncludeSource}
    (h : readFirst path sources = .ok (some found)) :
    found.key = path ∧ ∃ source ∈ sources, source.read path = .ok (some found.text) := by
  induction sources with
  | nil => cases h
  | cons source rest ih =>
    rw [readFirst_cons] at h
    split at h
    . cases h
    . next text hread =>
      cases h
      exact ⟨rfl, source, List.mem_cons_self, hread⟩
    . rcases ih h with ⟨hkey, source, hsource, hread⟩
      exact ⟨hkey, source, List.mem_cons_of_mem _ hsource, hread⟩

theorem readFirst_eq_none_iff {sources : List IncludeSource} :
    readFirst path sources = .ok none ↔ ∀ source ∈ sources, source.read path = .ok none := by
  induction sources with
  | nil => simp
  | cons source rest ih =>
    rw [List.forall_mem_cons, ← ih, readFirst_cons]
    cases source.read path with
    | error cause => simp
    | ok text? =>
      cases text? with
      | none => simp
      | some text => simp

theorem isNormal_of_sourcePath? (h : sourcePath? includer name = some path) :
    Path.IsNormal path := by
  unfold sourcePath? at h
  split at h
  . apply Path.isNormal_of_normalize? h
  . rw [Path.resolve?_eq] at h
    apply Path.isNormal_of_normalize? h

theorem sourcePath?_root_eq_none_iff : sourcePath? none name = none ↔ Path.LeadsNowhere name :=
  Path.normalize?_eq_none_iff

theorem sourcePath?_include_eq_none_iff {includer : String} :
    sourcePath? (some includer) name = none ↔ Path.LeadsNowhere (Path.target includer name) := by
  unfold sourcePath?
  dsimp only
  rw [Path.resolve?_eq, Path.normalize?_eq_none_iff]

theorem lookup_eq_none (hprovide : t.provide? name = none)
    (hpath : sourcePath? includer name = none) : t.lookup includer name = .ok none := by
  rw [lookup_eq, hprovide, hpath]

theorem lookup_eq_some (h : t.lookup includer name = .ok (some found)) :
    (t.provide? name = some found.text ∧ found.key = name) ∨
      (t.provide? name = none ∧ sourcePath? includer name = some found.key ∧
        readFirst found.key t.sources = .ok (some found)) := by
  rw [lookup_eq] at h
  split at h
  . next text hprovide =>
    cases h
    exact .inl ⟨hprovide, rfl⟩
  . next hprovide =>
    split at h
    . cases h
    . next path hpath =>
      rcases readFirst_eq_some h with ⟨rfl, _⟩
      exact .inr ⟨hprovide, hpath, h⟩

/--
A text is recorded under its key: a provider generates it for the key, or the sources hold it under
the key, which is a path in normal form then.
-/
inductive Records (t : Template) (found : Found) : Prop
  | generated : t.provide? found.key = some found.text → Records t found
  | held : Path.IsNormal found.key → readFirst found.key t.sources = .ok (some found) →
    Records t found

theorem records_of_lookup (h : t.lookup includer name = .ok (some found)) : t.Records found := by
  rcases lookup_eq_some h with ⟨hprovide, hkey⟩ | ⟨_, hpath, hread⟩
  . rw [← hkey] at hprovide
    exact .generated hprovide
  . exact .held (isNormal_of_sourcePath? hpath) hread

theorem Records.hasText (h : t.Records found) : t.HasText found.text := by
  cases h with
  | generated hprovide =>
    rcases List.exists_of_findSome?_eq_some hprovide with ⟨provider, hprovider, hanswer⟩
    exact .generated hprovider hanswer
  | held _ hread =>
    rcases readFirst_eq_some hread with ⟨_, source, hsource, htext⟩
    exact .held hsource htext

theorem hasText_of_lookup (h : t.lookup includer name = .ok (some found)) :
    t.HasText found.text :=
  (records_of_lookup h).hasText

/--
What is found for a name is also found, as the same text, for the key that it is recorded under.
-/
theorem lookup_key (hapart : t.ProvidersApart) (h : t.lookup includer name = .ok (some found)) :
    t.lookup none found.key = .ok (some found) := by
  rcases lookup_eq_some h with ⟨hprovide, rfl⟩ | ⟨_, hpath, hread⟩
  . rw [lookup_eq, hprovide]
  . have hnormal := isNormal_of_sourcePath? hpath
    rcases readFirst_eq_some hread with ⟨_, source, hsource, htext⟩
    rw [lookup_eq, hapart source hsource _ _ hnormal htext]
    dsimp only
    unfold sourcePath?
    dsimp only
    rw [Path.normalize?_of_isNormal hnormal]
    exact hread

/--
A provider and the sources both have a text under one key.
-/
structure Clash (t : Template) (generated held : Found) : Prop where
  key_eq : generated.key = held.key
  provide?_eq : t.provide? generated.key = some generated.text
  isNormal : Path.IsNormal held.key
  readFirst_eq : readFirst held.key t.sources = .ok (some held)

/--
A name that both a provider and the sources answer is answered by them with the same text.
-/
def AnswersAgree (t : Template) : Prop :=
  ∀ generated held, t.Clash generated held → generated.text = held.text

theorem ProvidersApart.answersAgree (h : t.ProvidersApart) : t.AnswersAgree := by
  intro generated held hclash
  rcases readFirst_eq_some hclash.readFirst_eq with ⟨_, source, hsource, htext⟩
  have hnone := h source hsource _ _ hclash.isNormal htext
  rw [← hclash.key_eq, hclash.provide?_eq] at hnone
  cases hnone

/--
Only a provider and the sources can have two texts under one key.
-/
theorem Records.eq_or_clash {found' : Found} (h : t.Records found) (h' : t.Records found')
    (hkey : found.key = found'.key) :
    found = found' ∨ t.Clash found found' ∨ t.Clash found' found := by
  cases h with
  | generated hprovide =>
    cases h' with
    | generated hprovide' =>
      rw [hkey, hprovide', Option.some.injEq] at hprovide
      cases found
      cases found'
      cases hkey
      cases hprovide
      exact .inl rfl
    | held hnormal' hread' => exact .inr (.inl ⟨hkey, hprovide, hnormal', hread'⟩)
  | held hnormal hread =>
    cases h' with
    | generated hprovide' => exact .inr (.inr ⟨hkey.symm, hprovide', hnormal, hread⟩)
    | held _ hread' =>
      rw [hkey, hread'] at hread
      cases hread
      exact .inl rfl

theorem Records.eq_of_key_eq {found' : Found} (hagree : t.AnswersAgree) (h : t.Records found)
    (h' : t.Records found') (hkey : found.key = found'.key) : found = found' := by
  have htext : found.text = found'.text := by
    rcases h.eq_or_clash h' hkey with heq | hclash | hclash
    . rw [heq]
    . exact hagree _ _ hclash
    . exact (hagree _ _ hclash).symm
  cases found
  cases found'
  cases hkey
  cases htext
  rfl

end Template
end ShaderBuild
