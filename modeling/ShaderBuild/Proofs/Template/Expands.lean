import ShaderBuild.Proofs.Except
import ShaderBuild.Template.Expansion

/-!
This module contains the expansion of templates as a relation, which also says what was looked up on
the way, and that every expansion that succeeds is in it. Induction on this relation replaces the
one on the levels of nesting that are left.
-/

namespace ShaderBuild
namespace Template

variable {t : Template} {stack once : List String} {found : Found} {e : Expansion}

theorem expandLine_eq_ok {enter : Found → List String → Except TemplateError Expansion}
    {key line : String} {number : Nat} (h : t.expandLine enter key number line once = .ok e) :
    (Directive.parse? line = none ∧ e = ⟨[⟨line, ⟨key, number⟩⟩], once⟩) ∨
      (Directive.parse? line = some .pragmaOnce ∧ e = ⟨[], key :: once⟩) ∨
        ∃ name found,
          Directive.parse? line = some (.includeFile name) ∧
            t.lookup (some key) name = .ok (some found) ∧
              (found.key ∈ once ∧ e = ⟨[], once⟩ ∨
                found.key ∉ once ∧ enter found once = .ok e) := by
  rw [expandLine_eq] at h
  split at h
  . next hparse =>
    cases h
    exact .inl ⟨hparse, rfl⟩
  . next hparse =>
    cases h
    exact .inr (.inl ⟨hparse, rfl⟩)
  . next name hparse =>
    rw [bind_eq_ok_iff] at h
    rcases h with ⟨found?, hlookup, h⟩
    cases found? with
    | none => cases h
    | some found =>
      refine .inr (.inr ⟨name, found, hparse, hlookup, ?_⟩)
      dsimp only at h
      split at h
      . next honce =>
        cases h
        exact .inl ⟨honce, rfl⟩
      . next honce => exact .inr ⟨honce, h⟩

theorem expandLines_cons_eq_ok {enter : Found → List String → Except TemplateError Expansion}
    {key line : String} {number : Nat} {rest : List (Nat × String)}
    (h : t.expandLines enter key ((number, line) :: rest) once = .ok e) :
    ∃ first others,
      t.expandLine enter key number line once = .ok first ∧
        t.expandLines enter key rest first.once = .ok others ∧
          e = ⟨first.lines ++ others.lines, others.once⟩ := by
  rw [expandLines_cons, bind_eq_ok_iff] at h
  rcases h with ⟨first, hfirst, h⟩
  rw [bind_eq_ok_iff] at h
  rcases h with ⟨others, hothers, h⟩
  rw [pure_eq_ok_iff] at h
  exact ⟨first, others, hfirst, hothers, h.symm⟩

theorem expand_eq_ok {room : Nat} (h : t.expand room stack found once = .ok e) :
    found.key ∉ stack ∧
      ∃ room', room = room' + 1 ∧
        t.expandLines (t.expand room' (stack ++ [found.key])) found.key
          (Text.numberedLines found.text) once = .ok e := by
  rw [expand_eq] at h
  split at h
  . cases h
  . next hstack =>
    cases room with
    | zero => cases h
    | succ room => exact ⟨hstack, room, rfl, h⟩

theorem load_eq_map {name : String} {root : Found}
    (h : t.lookup none name = .ok (some root)) :
    t.load name = (t.expand t.maxDepth [] root []).map Expansion.source := by
  rw [load_eq, h]
  show t.expand t.maxDepth [] root [] >>= _ = _
  cases t.expand t.maxDepth [] root [] with
  | error e => rfl
  | ok e => rfl

theorem load_eq_ok {name : String} {source : Source} (h : t.load name = .ok source) :
    ∃ root e,
      t.lookup none name = .ok (some root) ∧ t.expand t.maxDepth [] root [] = .ok e ∧
        source = e.source := by
  rw [load_eq, bind_eq_ok_iff] at h
  rcases h with ⟨root?, hlookup, h⟩
  cases root? with
  | none => cases h
  | some root =>
    dsimp only at h
    rw [bind_eq_ok_iff] at h
    rcases h with ⟨e, hexpand, h⟩
    rw [pure_eq_ok_iff] at h
    exact ⟨root, e, hlookup, hexpand, h.symm⟩

/--
Numbered lines of the text under `key` expand to `e`, inside the texts of `stack`, which ends with
`key`. Meanwhile the texts of `looked` are looked up, in this order.
-/
inductive Expands (t : Template) :
    List String → String → List (Nat × String) → List String → Expansion → List Found → Prop
  | nil {stack : List String} {key : String} {once : List String} :
    Expands t stack key [] once ⟨[], once⟩ []
  | copy {stack : List String} {key : String} {number : Nat} {line : String}
      {rest : List (Nat × String)} {once : List String} {e : Expansion} {looked : List Found} :
    Directive.parse? line = none → Expands t stack key rest once e looked →
      Expands t stack key ((number, line) :: rest) once
        ⟨⟨line, ⟨key, number⟩⟩ :: e.lines, e.once⟩ looked
  | pragmaOnce {stack : List String} {key : String} {number : Nat} {line : String}
      {rest : List (Nat × String)} {once : List String} {e : Expansion} {looked : List Found} :
    Directive.parse? line = some .pragmaOnce → Expands t stack key rest (key :: once) e looked →
      Expands t stack key ((number, line) :: rest) once e looked
  | skip {stack : List String} {key : String} {number : Nat} {line name : String} {found : Found}
      {rest : List (Nat × String)} {once : List String} {e : Expansion} {looked : List Found} :
    Directive.parse? line = some (.includeFile name) →
      t.lookup (some key) name = .ok (some found) → found.key ∈ once →
        Expands t stack key rest once e looked →
          Expands t stack key ((number, line) :: rest) once e (found :: looked)
  | enter {stack : List String} {key : String} {number : Nat} {line name : String} {found : Found}
      {rest : List (Nat × String)} {once : List String} {inner e : Expansion}
      {lookedInner looked : List Found} :
    Directive.parse? line = some (.includeFile name) →
      t.lookup (some key) name = .ok (some found) → found.key ∉ once → found.key ∉ stack →
        Expands t (stack ++ [found.key]) found.key (Text.numberedLines found.text) once inner
            lookedInner →
          Expands t stack key rest inner.once e looked →
            Expands t stack key ((number, line) :: rest) once
              ⟨inner.lines ++ e.lines, e.once⟩ (found :: lookedInner ++ looked)

namespace Expands

theorem of_expandLines {enter : Found → List String → Except TemplateError Expansion}
    {key : String} {ls : List (Nat × String)}
    (henter : ∀ {found once e}, enter found once = .ok e →
      found.key ∉ stack ∧
        ∃ looked,
          Expands t (stack ++ [found.key]) found.key (Text.numberedLines found.text) once e looked)
    (h : t.expandLines enter key ls once = .ok e) :
    ∃ looked, Expands t stack key ls once e looked := by
  induction ls generalizing once e with
  | nil =>
    cases h
    exact ⟨[], .nil⟩
  | cons first rest ih =>
    rcases first with ⟨number, line⟩
    rcases expandLines_cons_eq_ok h with ⟨first, others, hfirst, hothers, rfl⟩
    rcases ih hothers with ⟨looked, hrest⟩
    rcases expandLine_eq_ok hfirst with ⟨hparse, rfl⟩ | ⟨hparse, rfl⟩ |
      ⟨name, found, hparse, hlookup, ⟨honce, rfl⟩ | ⟨honce, hfound⟩⟩
    . exact ⟨_, .copy hparse hrest⟩
    . exact ⟨_, .pragmaOnce hparse hrest⟩
    . exact ⟨_, .skip hparse hlookup honce hrest⟩
    . rcases henter hfound with ⟨hstack, lookedInner, hinner⟩
      exact ⟨_, .enter hparse hlookup honce hstack hinner hrest⟩

theorem of_expand {room : Nat} (h : t.expand room stack found once = .ok e) :
    found.key ∉ stack ∧
      ∃ looked,
        Expands t (stack ++ [found.key]) found.key (Text.numberedLines found.text) once e
          looked := by
  induction room generalizing stack found once e with
  | zero =>
    rcases expand_eq_ok h with ⟨_, _, hroom, _⟩
    cases hroom
  | succ room ih =>
    -- entering a text takes one level, so `ih` covers the texts that it enters
    rcases expand_eq_ok h with ⟨hstack, _, hroom, hlines⟩
    cases hroom
    exact ⟨hstack, of_expandLines ih hlines⟩

theorem of_load {name : String} {source : Source} (h : t.load name = .ok source) :
    ∃ root e looked,
      t.lookup none name = .ok (some root) ∧
        Expands t [root.key] root.key (Text.numberedLines root.text) [] e looked ∧
          source = e.source := by
  rcases load_eq_ok h with ⟨root, e, hlookup, hexpand, rfl⟩
  rcases of_expand hexpand with ⟨_, looked, hexpands⟩
  exact ⟨root, e, looked, hlookup, hexpands, rfl⟩

end Expands
end Template
end ShaderBuild
