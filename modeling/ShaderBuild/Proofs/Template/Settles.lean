import ShaderBuild.Proofs.Template.Faults

/-!
This module contains what stays of an expansion when more names are found or more levels of nesting
are allowed: every result but the errors that say that a name is not found or that the includes are
nested too deep.
-/

namespace ShaderBuild

section Settles

variable {ε α β : Type} {isOpen : ε → Prop} {r r' : Except ε α}

/--
The second result is the first one, unless the first one is an error that leaves the result open.
-/
def Settles (isOpen : ε → Prop) (r r' : Except ε α) : Prop :=
  r' = r ∨ ∃ e, isOpen e ∧ r = .error e

namespace Settles

theorem refl (r : Except ε α) : Settles isOpen r r :=
  .inl rfl

theorem of_open {e : ε} (h : isOpen e) : Settles isOpen (.error e) r' :=
  .inr ⟨e, h, rfl⟩

theorem eq (h : Settles isOpen r r') (hclosed : ∀ e, isOpen e → r ≠ .error e) : r' = r := by
  rcases h with h | ⟨e, he, h⟩
  . exact h
  . exact absurd h (hclosed e he)

theorem bind {f f' : α → Except ε β} (h : Settles isOpen r r')
    (hf : ∀ a, Settles isOpen (f a) (f' a)) : Settles isOpen (r >>= f) (r' >>= f') := by
  rcases h with rfl | ⟨e, he, rfl⟩
  . cases r' with
    | error e => exact refl _
    | ok a => exact hf a
  . exact of_open he

end Settles
end Settles

namespace Template

variable {isOpen : TemplateError → Prop} {t t' : Template} {found : Found} {once : List String}
variable {enter enter' : Found → List String → Except TemplateError Expansion}

/--
The second template finds what the first one finds and allows the same nesting, unless it is open
what becomes of a name that is not found or of includes that are nested too deep.
-/
structure Widens (isOpen : TemplateError → Prop) (t t' : Template) : Prop where
  lookup : ∀ includer name,
    t'.lookup includer name = t.lookup includer name ∨
      t.lookup includer name = .ok none ∧
        ∀ place, place.map LineOrigin.file = includer → isOpen (.notFound name place)
  maxDepth : t'.maxDepth = t.maxDepth ∨
    t.maxDepth ≤ t'.maxDepth ∧ ∀ key, isOpen (.tooDeep key t.maxDepth)

theorem Widens.refl (t : Template) : Widens isOpen t t where
  lookup _ _ := .inl rfl
  maxDepth := .inl rfl

theorem Widens.expandLine (h : Widens isOpen t t') {number : Nat} {line : String}
    (hline : line ∈ Text.lines found.text)
    (henter : ∀ inner, t.Includes found inner → ∀ once,
      Settles isOpen (enter inner once) (enter' inner once)) :
    Settles isOpen (t.expandLine enter found.key number line once)
      (t'.expandLine enter' found.key number line once) := by
  rw [expandLine_eq, expandLine_eq]
  split
  . exact .refl _
  . exact .refl _
  . next name hparse =>
    rcases h.lookup (some found.key) name with hlookup | ⟨hlookup, hopen⟩
    . rw [hlookup]
      cases hfound : t.lookup (some found.key) name with
      | error e => exact .refl _
      | ok found? =>
        cases found? with
        | none => exact .refl _
        | some inner =>
          show Settles isOpen (if inner.key ∈ once then pure _ else _) (ite _ _ _)
          split
          . exact .refl _
          . exact henter inner ⟨line, hline, name, hparse, hfound⟩ once
    . rw [hlookup]
      exact .of_open (hopen _ rfl)

theorem Widens.expandLines (h : Widens isOpen t t')
    (henter : ∀ inner, t.Includes found inner → ∀ once,
      Settles isOpen (enter inner once) (enter' inner once)) {ls : List (Nat × String)}
    (hls : ∀ entry ∈ ls, entry.2 ∈ Text.lines found.text) :
    Settles isOpen (t.expandLines enter found.key ls once)
      (t'.expandLines enter' found.key ls once) := by
  induction ls generalizing once with
  | nil => exact .refl _
  | cons entry rest ih =>
    rw [List.forall_mem_cons] at hls
    rw [expandLines_cons, expandLines_cons]
    apply (h.expandLine hls.1 henter).bind
    intro first
    exact (ih hls.2).bind fun _ => .refl _

/--
Expanding a whole text is settled as soon as the expansion of what the text includes is.
-/
theorem Widens.expandText (h : Widens isOpen t t')
    (henter : ∀ inner, t.Includes found inner → ∀ once,
      Settles isOpen (enter inner once) (enter' inner once)) :
    Settles isOpen (t.expandLines enter found.key (Text.numberedLines found.text) once)
      (t'.expandLines enter' found.key (Text.numberedLines found.text) once) := by
  apply h.expandLines henter
  intro entry hentry
  rw [← Text.map_snd_numberedLines]
  exact List.mem_map_of_mem hentry

theorem Widens.expand (h : Widens isOpen t t') {room room' : Nat} {stack : List String}
    (hroom : stack.length + room = t.maxDepth) (hroom' : stack.length + room' = t'.maxDepth) :
    Settles isOpen (t.expand room stack found once) (t'.expand room' stack found once) := by
  induction room generalizing room' stack found once with
  | zero =>
    rw [expand_eq, expand_eq]
    split
    . exact .refl _
    . rcases h.maxDepth with hmax | ⟨_, hopen⟩
      . -- the second template allows no more levels either
        have hzero : room' = 0 := by omega
        rw [hzero, hmax]
        exact .refl _
      . exact .of_open (hopen _)
  | succ room ih =>
    have hmax : t.maxDepth ≤ t'.maxDepth := by
      rcases h.maxDepth with hmax | ⟨hmax, _⟩
      . omega
      . exact hmax
    cases room' with
    | zero => omega
    | succ room' =>
      rw [expand_eq, expand_eq]
      split
      . exact .refl _
      . apply h.expandText
        intro inner _ once
        apply ih
        . rw [List.length_append, List.length_singleton]
          omega
        . rw [List.length_append, List.length_singleton]
          omega

theorem Widens.load (h : Widens isOpen t t') (name : String) :
    Settles isOpen (t.load name) (t'.load name) := by
  rw [load_eq, load_eq]
  rcases h.lookup none name with hlookup | ⟨hlookup, hopen⟩
  . rw [hlookup]
    apply (Settles.refl _).bind
    intro root?
    cases root? with
    | none => exact .refl _
    | some root =>
      exact (h.expand (Nat.zero_add _) (Nat.zero_add _)).bind fun _ => .refl _
  . rw [hlookup]
    exact .of_open (hopen _ rfl)

end Template
end ShaderBuild
