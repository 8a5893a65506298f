import Mathlib.Data.List.Chain
import Mathlib.Data.List.Nodup
import ShaderBuild.Proofs.Template.Lookup
import ShaderBuild.Proofs.Text.Lines
import ShaderBuild.Template.Expansion

/-!
This module contains why a name cannot be loaded. At any time of an expansion there are texts that
are entered one inside the other, each of them included by the one around it. Every error is
explained by the innermost of them: it cannot be entered, or one of its includes cannot be found.
-/

namespace ShaderBuild
namespace Template

variable {t : Template} {name : String} {outer : List Found} {found inner : Found}

/--
The text has a directive that the other text is found for.
-/
def Includes (t : Template) (found inner : Found) : Prop :=
  ∃ line ∈ Text.lines found.text, ∃ name, Directive.parse? line = some (.includeFile name) ∧
    t.lookup (some found.key) name = .ok (some inner)

/--
While `name` is loaded, the text `inner` is met inside the texts of `outer`, which are entered one
inside the other, outermost first. The outermost text is the one that is found for `name`.
-/
structure Nests (t : Template) (name : String) (outer : List Found) (inner : Found) : Prop where
  root : ∃ root, (outer ++ [inner]).head? = some root ∧ t.lookup none name = .ok (some root)
  includes : (outer ++ [inner]).IsChain t.Includes
  nodup : (outer.map Found.key).Nodup
  length_le : outer.length ≤ t.maxDepth

theorem Nests.of_lookup (h : t.lookup none name = .ok (some found)) : t.Nests name [] found where
  root := ⟨found, rfl, h⟩
  includes := .singleton found
  nodup := .nil
  length_le := Nat.zero_le _

theorem Nests.nodup_concat (h : t.Nests name outer found) (hkey : found.key ∉ outer.map Found.key) :
    ((outer ++ [found]).map Found.key).Nodup := by
  rw [List.map_append, List.map_singleton, List.nodup_append]
  simpa [h.nodup] using hkey

theorem Nests.included (h : t.Nests name outer found) (hkey : found.key ∉ outer.map Found.key)
    (hlength : outer.length < t.maxDepth) (hincludes : t.Includes found inner) :
    t.Nests name (outer ++ [found]) inner where
  root := by
    rcases h.root with ⟨root, hhead, hlookup⟩
    refine ⟨root, ?_, hlookup⟩
    rw [List.head?_append, hhead, Option.some_or]
  includes := by
    apply h.includes.append (.singleton inner)
    simpa using hincludes
  nodup := h.nodup_concat hkey
  length_le := by
    rw [List.length_append, List.length_singleton]
    exact hlength

/--
The text can be entered inside the texts of `outer`.
-/
structure Enters (t : Template) (name : String) (outer : List Found) (found : Found) : Prop where
  nests : t.Nests name outer found
  key_notMem : found.key ∉ outer.map Found.key
  length_lt : outer.length < t.maxDepth

/--
The errors that loading a name can end with, each with what is wrong.
-/
inductive Fault (t : Template) (name : String) : TemplateError → Prop
  /-- Nothing is found for the name. -/
  | unknown : t.lookup none name = .ok none → Fault t name (.notFound name none)
  /-- The file of the name cannot be read. -/
  | unreadable {path : String} {cause : ReadError} :
    t.lookup none name = .error (.unreadable path cause) → Fault t name (.unreadable path cause)
  /-- A text is met inside itself. -/
  | cycle {outer : List Found} {found : Found} :
    t.Nests name outer found → found.key ∈ outer.map Found.key →
      Fault t name (.includeCycle ((outer ++ [found]).map Found.key))
  /-- A text is met inside as many texts as there can be. -/
  | tooDeep {outer : List Found} {found : Found} :
    t.Nests name outer found → found.key ∉ outer.map Found.key → outer.length = t.maxDepth →
      Fault t name (.tooDeep found.key t.maxDepth)
  /-- Nothing is found for an include. -/
  | missing {outer : List Found} {found : Found} {number : Nat} {line included : String} :
    t.Enters name outer found → (number, line) ∈ Text.numberedLines found.text →
      Directive.parse? line = some (.includeFile included) →
        t.lookup (some found.key) included = .ok none →
          Fault t name (.notFound included (some ⟨found.key, number⟩))
  /-- The file of an include cannot be read. -/
  | broken {outer : List Found} {found : Found} {number : Nat} {line included path : String}
      {cause : ReadError} :
    t.Enters name outer found → (number, line) ∈ Text.numberedLines found.text →
      Directive.parse? line = some (.includeFile included) →
        t.lookup (some found.key) included = .error (.unreadable path cause) →
          Fault t name (.unreadable path cause)

theorem readFirst_eq_error {path : String} {sources : List IncludeSource} {e : TemplateError}
    (h : readFirst path sources = .error e) : ∃ cause, e = .unreadable path cause := by
  induction sources with
  | nil => cases h
  | cons source rest ih =>
    rw [readFirst_cons] at h
    split at h
    . next cause _ =>
      cases h
      exact ⟨cause, rfl⟩
    . cases h
    . exact ih h

theorem lookup_eq_error {includer : Option String} {e : TemplateError}
    (h : t.lookup includer name = .error e) : ∃ path cause, e = .unreadable path cause := by
  rw [lookup_eq] at h
  split at h
  . cases h
  . split at h
    . cases h
    . next path _ => exact ⟨path, readFirst_eq_error h⟩

section Lines

variable {enter : Found → List String → Except TemplateError Expansion} {key : String}
variable {once : List String} {e : TemplateError}

theorem expandLine_eq_error {number : Nat} {line : String}
    (h : t.expandLine enter key number line once = .error e) :
    ∃ included, Directive.parse? line = some (.includeFile included) ∧
      (t.lookup (some key) included = .error e ∨
        (t.lookup (some key) included = .ok none ∧ e = .notFound included (some ⟨key, number⟩)) ∨
          ∃ found, t.lookup (some key) included = .ok (some found) ∧
            enter found once = .error e) := by
  rw [expandLine_eq] at h
  split at h
  . cases h
  . cases h
  . next included hparse =>
    refine ⟨included, hparse, ?_⟩
    rw [bind_eq_error_iff] at h
    rcases h with hlookup | ⟨found?, hlookup, h⟩
    . exact .inl hlookup
    . cases found? with
      | none =>
        cases h
        exact .inr (.inl ⟨hlookup, rfl⟩)
      | some found =>
        dsimp only at h
        split at h
        . cases h
        . exact .inr (.inr ⟨found, hlookup, h⟩)

/--
An expansion that fails does so at one line, after lines that are expanded.
-/
theorem expandLines_eq_error {ls : List (Nat × String)}
    (h : t.expandLines enter key ls once = .error e) :
    ∃ number line once', (number, line) ∈ ls ∧
      t.expandLine enter key number line once' = .error e := by
  induction ls generalizing once with
  | nil => cases h
  | cons entry rest ih =>
    rcases entry with ⟨number, line⟩
    rw [expandLines_cons, bind_eq_error_iff] at h
    rcases h with hfirst | ⟨first, _, h⟩
    . exact ⟨number, line, once, List.mem_cons_self, hfirst⟩
    . rw [bind_eq_error_iff] at h
      rcases h with hothers | ⟨_, _, h⟩
      . rcases ih hothers with ⟨number', line', once', hmem, hline⟩
        exact ⟨number', line', once', List.mem_cons_of_mem _ hmem, hline⟩
      . cases h

theorem expand_eq_error {room : Nat} {stack : List String}
    (h : t.expand room stack found once = .error e) :
    (found.key ∈ stack ∧ e = .includeCycle (stack ++ [found.key])) ∨
      (found.key ∉ stack ∧ room = 0 ∧ e = .tooDeep found.key t.maxDepth) ∨
        (found.key ∉ stack ∧ ∃ room', room = room' + 1 ∧
          t.expandLines (t.expand room' (stack ++ [found.key])) found.key
            (Text.numberedLines found.text) once = .error e) := by
  rw [expand_eq] at h
  split at h
  . next hkey =>
    cases h
    exact .inl ⟨hkey, rfl⟩
  . next hkey =>
    cases room with
    | zero =>
      cases h
      exact .inr (.inl ⟨hkey, rfl, rfl⟩)
    | succ room => exact .inr (.inr ⟨hkey, room, rfl, h⟩)

end Lines

theorem map_key_concat (outer : List Found) (found : Found) :
    outer.map Found.key ++ [found.key] = (outer ++ [found]).map Found.key := by
  rw [List.map_append, List.map_singleton]

theorem fault_of_expand {room : Nat} {once : List String} {e : TemplateError}
    (hnests : t.Nests name outer found) (hroom : outer.length + room = t.maxDepth)
    (h : t.expand room (outer.map Found.key) found once = .error e) : t.Fault name e := by
  induction room generalizing outer found once with
  | zero =>
    rcases expand_eq_error h with ⟨hkey, rfl⟩ | ⟨hkey, _, rfl⟩ | ⟨_, _, hzero, _⟩
    . rw [map_key_concat]
      exact .cycle hnests hkey
    . exact .tooDeep hnests hkey hroom
    . cases hzero
  | succ room ih =>
    rcases expand_eq_error h with ⟨hkey, rfl⟩ | ⟨_, hzero, _⟩ | ⟨hkey, _, hsucc, hlines⟩
    . rw [map_key_concat]
      exact .cycle hnests hkey
    . cases hzero
    . cases hsucc
      have henters : t.Enters name outer found := ⟨hnests, hkey, by omega⟩
      rcases expandLines_eq_error hlines with ⟨number, line, once', hmem, hline⟩
      rcases expandLine_eq_error hline with
        ⟨included, hparse, hlookup | ⟨hlookup, rfl⟩ | ⟨inner, hlookup, hinner⟩⟩
      . rcases lookup_eq_error hlookup with ⟨path, cause, rfl⟩
        exact .broken henters hmem hparse hlookup
      . exact .missing henters hmem hparse hlookup
      . -- the text that is included has one more text around it and one level less
        have hincludes : t.Includes found inner := by
          rw [Text.mem_numberedLines_iff] at hmem
          exact ⟨line, List.mem_of_getElem? hmem.2, included, hparse, hlookup⟩
        rw [map_key_concat] at hinner
        apply ih (hnests.included hkey henters.length_lt hincludes) _ hinner
        rw [List.length_append, List.length_singleton]
        omega

/--
Every error of loading a name has its cause.
-/
theorem fault_of_load {e : TemplateError} (h : t.load name = .error e) : t.Fault name e := by
  rw [load_eq, bind_eq_error_iff] at h
  rcases h with hlookup | ⟨root?, hlookup, h⟩
  . rcases lookup_eq_error hlookup with ⟨path, cause, rfl⟩
    exact .unreadable hlookup
  . cases root? with
    | none =>
      cases h
      exact .unknown hlookup
    | some root =>
      dsimp only at h
      rw [bind_eq_error_iff] at h
      rcases h with hexpand | ⟨_, _, h⟩
      . exact fault_of_expand (.of_lookup hlookup) (Nat.zero_add _) hexpand
      . cases h

end Template
end ShaderBuild
