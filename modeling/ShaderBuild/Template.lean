import ShaderBuild.Include
import ShaderBuild.Path
import ShaderBuild.Source

/-!
This module contains templates: the places that named texts come from, and how a name is looked up
in them. The lookup is written once, for sources whose answers have effects in a monad. A template
has sources without effects.
-/

namespace ShaderBuild

/--
The reasons why a template cannot be expanded.
-/
inductive TemplateError
  /-- No provider and no source knows the name. -/
  | notFound (name : String) (includedFrom : Option LineOrigin)
  /-- A file includes itself. The chain leads from the outermost file to the repeated one. -/
  | includeCycle (chain : List String)
  /-- Includes are nested deeper than the limit. -/
  | tooDeep (name : String) (limit : Nat)
  /-- A file exists but cannot be read. -/
  | unreadable (path : String) (cause : ReadError)
deriving DecidableEq

namespace TemplateError

def message : TemplateError → String
  | notFound name none => s!"cannot find '{name}'"
  | notFound name (some place) => s!"cannot find '{name}' (included from {place.text})"
  | includeCycle chain => "include cycle: " ++ Text.join " -> " chain
  | tooDeep name limit => s!"include depth limit of {limit} exceeded while including '{name}'"
  | unreadable path cause => s!"failed to read '{path}': {cause.message}"

end TemplateError

/--
A generator of texts, which gives nothing for a name that it does not generate.
-/
abbrev Provider := String → Option String

namespace Provider

/--
The generator of one fixed text.
-/
def snippet (key text : String) : Provider :=
  fun name => if name = key then some text else none

/--
A text in which every pair of braces is replaced.
-/
def fill (filler : List Char) : List Char → List Char
  | [] => []
  | '\x7b' :: '\x7d' :: cs => filler ++ fill filler cs
  | c :: cs => c :: fill filler cs

/--
The generator of a text for every name with the given beginning. The rest of the name takes the
place of each pair of braces in the text.
-/
def pattern (start text : String) : Provider :=
  fun name => (Text.after? start.toList name.toList).map fun rest =>
    String.ofList (fill rest text.toList)

end Provider

/--
Named texts that can include each other. Providers are asked before sources, and each kind in the
order of its list.
-/
structure Template where
  providers : List Provider
  sources : List IncludeSource
  maxDepth : Nat

/--
A text and the key that its lines are recorded under.
-/
structure Found where
  key : String
  text : String
deriving DecidableEq

namespace Template

/--
The limit on the nesting of includes where none is set.
-/
def defaultMaxDepth : Nat := 32

/--
The template that knows no names.
-/
def empty : Template where
  providers := []
  sources := []
  maxDepth := defaultMaxDepth

def addProvider (t : Template) (provider : Provider) : Template :=
  { t with providers := t.providers ++ [provider] }

/--
Add a fixed text under a name.
-/
def addSnippet (t : Template) (key text : String) : Template :=
  t.addProvider (.snippet key text)

def addSource (t : Template) (source : IncludeSource) : Template :=
  { t with sources := t.sources ++ [source] }

def setMaxDepth (t : Template) (maxDepth : Nat) : Template :=
  { t with maxDepth := maxDepth }

/--
A one line account of the template.
-/
def summary (t : Template) : String :=
  "Template \x7b providers: " ++ toString t.providers.length ++
  ", sources: " ++ toString t.sources.length ++
  ", max_depth: " ++ toString t.maxDepth ++ " \x7d"

/--
The text of the first provider that generates the name.
-/
def provide? (t : Template) (name : String) : Option String :=
  t.providers.findSome? (· name)

/--
The path that the sources are asked for. The name of a root is a path itself, the name in an include
is resolved against the includer.
-/
def sourcePath? (includer : Option String) (name : String) : Option String :=
  match includer with
  | none => Path.normalize? name
  | some includer => Path.resolve? includer name

end Template

namespace Reading

variable {m : Type → Type} [Monad m]

/--
The text of the first source that has the path. A source that fails ends the search.
-/
def readFirst (path : String) : List (Reader m) → ExceptT TemplateError m (Option Found)
  | [] => return none
  | read :: rest => do
    match ← ExceptT.lift (read path) with
    | .error cause => throw (.unreadable path cause)
    | .ok (some text) => return some ⟨path, text⟩
    | .ok none => readFirst path rest

/--
Find the text for a name. A generated text is recorded under the name as it is written, a file under
its normalized path.
-/
def lookup (t : Template) (readers : List (Reader m)) (includer : Option String) (name : String) :
    ExceptT TemplateError m (Option Found) :=
  match t.provide? name with
  | some text => return some ⟨name, text⟩
  | none =>
    match Template.sourcePath? includer name with
    | none => return none
    | some path => readFirst path readers

end Reading

namespace Template

/--
The sources as ones whose answers have no effects.
-/
def readers (t : Template) : List (Reader Id) :=
  t.sources.map IncludeSource.reader

/--
The text of the first source that has the path, from sources without effects.
-/
def readFirst (path : String) (sources : List IncludeSource) :
    Except TemplateError (Option Found) :=
  (Reading.readFirst path (sources.map IncludeSource.reader)).run.run

/--
Find the text for a name in the sources of the template.
-/
def lookup (t : Template) (includer : Option String) (name : String) :
    Except TemplateError (Option Found) :=
  (Reading.lookup t t.readers includer name).run.run

@[simp]
theorem readFirst_nil (path : String) : readFirst path [] = .ok none := rfl

theorem readFirst_cons (path : String) (source : IncludeSource) (rest : List IncludeSource) :
    readFirst path (source :: rest) =
      match source.read path with
      | .error cause => .error (.unreadable path cause)
      | .ok (some text) => .ok (some ⟨path, text⟩)
      | .ok none => readFirst path rest := by
  unfold readFirst
  rw [List.map_cons, Reading.readFirst]
  unfold IncludeSource.reader
  cases source.read path with
  | error cause => rfl
  | ok text? => cases text? <;> rfl

theorem lookup_eq (t : Template) (includer : Option String) (name : String) :
    t.lookup includer name =
      match t.provide? name with
      | some text => .ok (some ⟨name, text⟩)
      | none =>
        match sourcePath? includer name with
        | none => .ok none
        | some path => readFirst path t.sources := by
  unfold lookup Reading.lookup
  cases t.provide? name with
  | some text => rfl
  | none => cases sourcePath? includer name <;> rfl

end Template
end ShaderBuild
