import ShaderBuild.Template
import ShaderBuild.Template.Directive

/-!
This module contains the expansion of templates: every include directive is replaced by the expanded
text that it names, and every line that is copied keeps the place that it was written at.
-/

namespace ShaderBuild

/--
A line of the expanded text together with the place that it was copied from.
-/
structure CopiedLine where
  text : String
  origin : LineOrigin
deriving DecidableEq

/--
What a part of a text expands to, and the keys that are not to be expanded again after it.
-/
structure Expansion where
  lines : List CopiedLine
  once : List String
deriving DecidableEq

namespace Expansion

/--
The expanded text as a source.
-/
def source (e : Expansion) : Source where
  contents := Text.ofLines (e.lines.map CopiedLine.text)
  origins := e.lines.map CopiedLine.origin

end Expansion

namespace Reading

variable {m : Type → Type} [Monad m]

/--
Expand one line of the text recorded under `key`. The expansion of an included text is left to
`enter`, unless that text is not to be expanded again.
-/
def expandLine (t : Template) (readers : List (Reader m))
    (enter : Found → List String → ExceptT TemplateError m Expansion)
    (key : String) (number : Nat) (line : String) (once : List String) :
    ExceptT TemplateError m Expansion :=
  match Directive.parse? line with
  | none => return ⟨[⟨line, ⟨key, number⟩⟩], once⟩
  | some .pragmaOnce => return ⟨[], key :: once⟩
  | some (.includeFile name) => do
    match ← lookup t readers (some key) name with
    | none => throw (.notFound name (some ⟨key, number⟩))
    | some found =>
      if found.key ∈ once then
        return ⟨[], once⟩
      else
        enter found once

/--
Expand lines from first to last.
-/
def expandLines (t : Template) (readers : List (Reader m))
    (enter : Found → List String → ExceptT TemplateError m Expansion)
    (key : String) : List (Nat × String) → List String → ExceptT TemplateError m Expansion
  | [], once => return ⟨[], once⟩
  | (number, line) :: rest, once => do
    let first ← expandLine t readers enter key number line once
    let others ← expandLines t readers enter key rest first.once
    return ⟨first.lines ++ others.lines, others.once⟩

/--
Expand a text inside the texts of `stack`, outermost first, when `room` more levels are allowed.
-/
def expand (t : Template) (readers : List (Reader m)) :
    Nat → List String → Found → List String → ExceptT TemplateError m Expansion
  | room, stack, found, once =>
    if found.key ∈ stack then
      throw (.includeCycle (stack ++ [found.key]))
    else
      match room with
      | 0 => throw (.tooDeep found.key t.maxDepth)
      | room + 1 =>
        expandLines t readers (expand t readers room (stack ++ [found.key])) found.key
          (Text.numberedLines found.text) once

/--
Expand the text of a name.
-/
def load (t : Template) (readers : List (Reader m)) (name : String) :
    ExceptT TemplateError m Source := do
  match ← lookup t readers none name with
  | none => throw (.notFound name none)
  | some root => return (← expand t readers t.maxDepth [] root []).source

/--
Without effects, to run a sequence is to run its parts one after the other.
-/
theorem run_bind {α β : Type} (x : ExceptT TemplateError Id α)
    (f : α → ExceptT TemplateError Id β) :
    (x >>= f).run.run = x.run.run >>= fun a => (f a).run.run := by
  change Except TemplateError α at x
  cases x with
  | error e => rfl
  | ok a => rfl

end Reading

namespace Template

variable (t : Template) (enter : Found → List String → Except TemplateError Expansion)

/--
Expand one line of the text recorded under `key` from the sources of the template.
-/
def expandLine (key : String) (number : Nat) (line : String) (once : List String) :
    Except TemplateError Expansion :=
  (Reading.expandLine t t.readers enter key number line once).run.run

/--
Expand lines from first to last from the sources of the template.
-/
def expandLines (key : String) (ls : List (Nat × String)) (once : List String) :
    Except TemplateError Expansion :=
  (Reading.expandLines t t.readers enter key ls once).run.run

/--
Expand a text inside the texts of `stack` from the sources of the template.
-/
def expand (room : Nat) (stack : List String) (found : Found) (once : List String) :
    Except TemplateError Expansion :=
  (Reading.expand t t.readers room stack found once).run.run

/--
Expand the text of a name from the sources of the template.
-/
def load (name : String) : Except TemplateError Source :=
  (Reading.load t t.readers name).run.run

theorem expandLine_eq (key : String) (number : Nat) (line : String) (once : List String) :
    t.expandLine enter key number line once =
      match Directive.parse? line with
      | none => .ok ⟨[⟨line, ⟨key, number⟩⟩], once⟩
      | some .pragmaOnce => .ok ⟨[], key :: once⟩
      | some (.includeFile name) => (do
        match ← t.lookup (some key) name with
        | none => throw (.notFound name (some ⟨key, number⟩))
        | some found =>
          if found.key ∈ once then
            return ⟨[], once⟩
          else
            enter found once) := by
  unfold expandLine Reading.expandLine
  cases Directive.parse? line with
  | none => rfl
  | some directive =>
    cases directive with
    | pragmaOnce => rfl
    | includeFile name =>
      dsimp only
      rw [Reading.run_bind]
      rfl

theorem expandLines_cons (key : String) (number : Nat) (line : String)
    (rest : List (Nat × String)) (once : List String) :
    t.expandLines enter key ((number, line) :: rest) once = (do
      let first ← t.expandLine enter key number line once
      let others ← t.expandLines enter key rest first.once
      return ⟨first.lines ++ others.lines, others.once⟩) := by
  unfold expandLines
  rw [Reading.expandLines, Reading.run_bind]
  simp only [Reading.run_bind]
  rfl

theorem expand_eq (room : Nat) (stack : List String) (found : Found) (once : List String) :
    t.expand room stack found once =
      if found.key ∈ stack then
        .error (.includeCycle (stack ++ [found.key]))
      else
        match room with
        | 0 => .error (.tooDeep found.key t.maxDepth)
        | room + 1 =>
          t.expandLines (t.expand room (stack ++ [found.key])) found.key
            (Text.numberedLines found.text) once := by
  show (Reading.expand t t.readers room stack found once).run.run = _
  rw [Reading.expand.eq_def]
  rfl

theorem load_eq (name : String) :
    t.load name = (do
      match ← t.lookup none name with
      | none => throw (.notFound name none)
      | some root => return (← t.expand t.maxDepth [] root []).source) := by
  unfold load Reading.load
  rw [Reading.run_bind]
  congr 1
  funext root?
  cases root? with
  | none => rfl
  | some root => exact Reading.run_bind _ _

end Template
end ShaderBuild
