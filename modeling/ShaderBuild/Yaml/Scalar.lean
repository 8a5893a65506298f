import ShaderBuild.Yaml.Gap

/-!
This module contains the reading of scalars from the text they start at. Each reader gives the value
of the scalar and the text after it, or nothing if the scalar is malformed.
-/

namespace ShaderBuild
namespace Yaml

/--
A scalar that was read, and what follows it.
-/
structure ScalarRead where
  value : String
  rest : List Char
  /-- The scalar is followed by a line end. -/
  endsLine : Bool

namespace Plain

/--
The characters that end a plain scalar in a flow collection.
-/
def isFlowMark (c : Char) : Bool :=
  c = ',' || c = '[' || c = ']' || c = '\x7b' || c = '\x7d'

/--
A colon that is followed by white space ends a plain scalar.
-/
def atKeyEnd : List Char → Bool
  | ':' :: cs => atGap cs
  | _ => false

/--
A colon in front of these characters is not allowed in a flow collection.
-/
def atStrayColon : List Char → Bool
  | ':' :: c :: _ => isFlowMark c || c = '?'
  | _ => false

/--
Read a plain scalar. In block collections it goes on over lines that are indented by `margin` at
least. The characters before `cs` are in `done`, the last one first.
-/
def go (inFlow : Bool) (margin : Nat) (gap : Gap) (done : List Char) :
    List Char → Option ScalarRead
  | [] => some ⟨String.ofList done.reverse, [], gap.isFolded⟩
  | '\r' :: '\n' :: cs => go inFlow margin (gap.addBreak '\n') done cs
  | c :: cs =>
    if isBreak c then
      go inFlow margin (gap.addBreak c) done cs
    else if isSpace c then
      if c = '\t' && gap.isFolded && gap.column < margin then
        none
      else
        go inFlow margin (gap.addSpace c) done cs
    else
      let isOver :=
        (gap.isFolded && !inFlow && gap.column < margin) ||
        (gap.atLineStart && atDocumentMark (c :: cs)) ||
        (c = '#' && !gap.text.isEmpty)
      if isOver then
        some ⟨String.ofList done.reverse, c :: cs, gap.isFolded⟩
      else if inFlow && atStrayColon (c :: cs) then
        none
      else if atKeyEnd (c :: cs) || (inFlow && isFlowMark c) then
        some ⟨String.ofList done.reverse, c :: cs, gap.isFolded⟩
      else
        go inFlow margin .empty (c :: (gap.text.reverse ++ done)) cs

/--
Read the plain scalar at the start of a text.
-/
def read (inFlow : Bool) (margin : Nat) (cs : List Char) : Option ScalarRead :=
  go inFlow margin .empty [] cs

end Plain

namespace Quoted

/--
The value of a hexadecimal digit.
-/
def hexDigit? (c : Char) : Option Nat :=
  if c.isDigit then some (c.toNat - '0'.toNat)
  else if 'a' ≤ c && c ≤ 'f' then some (c.toNat - 'a'.toNat + 10)
  else if 'A' ≤ c && c ≤ 'F' then some (c.toNat - 'A'.toNat + 10)
  else none

/--
The character whose number is written with so many hexadecimal digits.
-/
def hexChar? (digits : Nat) (cs : List Char) : Option (Char × List Char) := do
  if cs.length < digits then
    none
  let n ← (cs.take digits).foldlM (fun n c => do return 16 * n + (← hexDigit? c)) 0
  if n.isValidChar then
    return (Char.ofNat n, cs.drop digits)
  else
    none

/--
The character that an escape sequence stands for, from the text after its backslash.
-/
def escape? : List Char → Option (Char × List Char)
  | [] => none
  | c :: cs =>
    match c with
    | '0' => some ('\x00', cs)
    | 'a' => some ('\x07', cs)
    | 'b' => some ('\x08', cs)
    | 't' | '\t' => some ('\t', cs)
    | 'n' => some ('\n', cs)
    | 'v' => some ('\x0b', cs)
    | 'f' => some ('\x0c', cs)
    | 'r' => some ('\r', cs)
    | 'e' => some ('\x1b', cs)
    | ' ' => some (' ', cs)
    | '\x22' => some ('\x22', cs)
    | '/' => some ('/', cs)
    | '\\' => some ('\\', cs)
    | 'N' => some ('\x85', cs)
    | '_' => some ('\xa0', cs)
    | 'L' => some ('\u2028', cs)
    | 'P' => some ('\u2029', cs)
    | 'x' => hexChar? 2 cs
    | 'u' => hexChar? 4 cs
    | 'U' => hexChar? 8 cs
    | _ => none

/--
Read a quoted scalar up to its closing mark, in a number of steps that the length of the text
bounds. The characters before `cs` are in `done`, the last one first.
-/
def go (mark : Char) (gap : Gap) (done : List Char) : Nat → List Char → Option ScalarRead
  | 0, _ => none
  | _, [] => none
  | steps + 1, c :: cs =>
    if c = '\r' && cs.head? = some '\n' then
      go mark gap done steps cs
    else if isBreak c then
      go mark (gap.addBreak c) done steps cs
    else if isSpace c then
      go mark (gap.addSpace c) done steps cs
    else if gap.atLineStart && atDocumentMark (c :: cs) then
      none
    else
      let done := gap.text.reverse ++ done
      if c = mark then
        if mark = '\x27' && cs.head? = some mark then
          go mark .empty (mark :: done) steps cs.tail
        else
          some ⟨String.ofList done.reverse, cs, false⟩
      else if mark = '\x22' && c = '\\' then
        if !cs.isEmpty && atLineEnd cs then
          go mark .escapedBreak done steps (afterBreak cs)
        else
          match escape? cs with
          | none => none
          | some (e, rest) => go mark .empty (e :: done) steps rest
      else
        go mark .empty (c :: done) steps cs

/--
Read the rest of a scalar after its opening mark, which is a quote or an apostrophe.
-/
def read (mark : Char) (cs : List Char) : Option ScalarRead :=
  go mark .empty [] (cs.length + 1) cs

end Quoted

namespace Block

/--
How the line ends at the end of a block scalar are kept.
-/
inductive Chomping
  | strip
  | clip
  | keep
deriving DecidableEq

/--
The indicators after the mark of a block scalar: how it ends, how far it is indented if that is
given, and the text from the next line on.
-/
structure Header where
  chomping : Chomping
  increment : Option Nat
  rest : List Char

/--
A chomping indicator at the start of a text.
-/
def chomping? : List Char → Option (Chomping × List Char)
  | '+' :: cs => some (.keep, cs)
  | '-' :: cs => some (.strip, cs)
  | _ => none

/--
An indentation indicator at the start of a text, which is not zero.
-/
def increment? : List Char → Option (Option Nat × List Char)
  | c :: cs =>
    if c = '0' then none
    else if c.isDigit then some (some (c.toNat - '0'.toNat), cs)
    else some (none, c :: cs)
  | [] => some (none, [])

/--
Read the header of a block scalar. The indicators come in either order, a comment may follow, and
nothing else.
-/
def header? (cs : List Char) : Option Header := do
  let (chomping, increment, rest) ← match chomping? cs with
    | some (chomping, rest) => do
      let (increment, rest) ← increment? rest
      pure (chomping, increment, rest)
    | none => do
      let (increment, rest) ← increment? cs
      match increment, chomping? rest with
      | some _, some (chomping, rest) => pure (chomping, increment, rest)
      | _, _ => pure (.clip, increment, rest)
  let rest := afterComment rest
  if atLineEnd rest then
    return ⟨chomping, increment, afterBreak rest⟩
  else
    none

/--
The empty lines in front of a line with content.
-/
structure Blank where
  breaks : List Char
  /-- The number of spaces in front of the content. -/
  column : Nat
  /-- The greatest number of spaces in front of a line end or the content. -/
  widest : Nat
  rest : List Char

/--
Skip the indentation of a line, and the lines that have nothing else. A tab in the indentation is
not allowed. Without a limit all spaces are indentation.
-/
def skipBlank? (limit : Option Nat) (breaks : List Char) (column widest : Nat) :
    List Char → Option Blank
  | [] => some ⟨breaks, column, max widest column, []⟩
  | '\r' :: '\n' :: cs => skipBlank? limit (breaks ++ ['\n']) 0 (max widest column) cs
  | c :: cs =>
    let isIndentation := match limit with
      | none => true
      | some limit => column < limit
    if c = ' ' && isIndentation then
      skipBlank? limit breaks (column + 1) widest cs
    else if c = '\t' && isIndentation then
      none
    else if isBreak c then
      skipBlank? limit (breaks ++ [normalBreak c]) 0 (max widest column) cs
    else
      some ⟨breaks, column, max widest column, c :: cs⟩

/--
The first line end of a text as it is kept in a scalar.
-/
def leadingBreak : List Char → List Char
  | [] => []
  | c :: _ => if isBreak c then [normalBreak c] else []

/--
What is written between two lines of content. A folded scalar has a space for a single line end, and
leaves out the first of several, unless one of the lines starts with a space.
-/
def between (folds : Bool) (lineEnd blank : List Char) (spaceBefore spaceAfter : Bool) :
    List Char :=
  if folds && lineEnd = ['\n'] && !spaceBefore && !spaceAfter then
    if blank.isEmpty then [' '] else blank
  else
    lineEnd ++ blank

/--
Read the lines of content that are indented by `indent`, in a number of steps that the length of the
text bounds. The line before them ended with `lineEnd`, and the characters so far are in `done`, the
last one first.
-/
def go (folds : Bool) (chomping : Chomping) (indent : Nat) (lineEnd : List Char)
    (spaceBefore : Bool) (done : List Char) : Nat → Blank → Option ScalarRead
  | 0, _ => none
  | steps + 1, blank =>
    if blank.column = indent && !blank.rest.isEmpty then do
      let startsWithSpace := match blank.rest with
        | c :: _ => isSpace c
        | [] => false
      let gap := between folds lineEnd blank.breaks spaceBefore startsWithSpace
      let line := blank.rest.takeWhile (fun c => !isBreak c)
      let rest := blank.rest.dropWhile (fun c => !isBreak c)
      let next ← skipBlank? (some indent) [] 0 0 (afterBreak rest)
      go folds chomping indent (leadingBreak rest) startsWithSpace
        (line.reverse ++ (gap.reverse ++ done)) steps next
    else
      let tail := match chomping with
        | .strip => []
        | .clip => lineEnd
        | .keep => lineEnd ++ blank.breaks
      some ⟨String.ofList (done.reverse ++ tail), blank.rest, true⟩

/--
Read a block scalar after its mark, inside collections whose content is indented by `margin`. Where
its indentation is not given, it is that of the widest of the lines up to the first with content.
-/
def read (folds : Bool) (margin : Nat) (cs : List Char) : Option ScalarRead := do
  let header ← header? cs
  let limit := header.increment.map (margin - 1 + ·)
  let blank ← skipBlank? limit [] 0 0 header.rest
  let indent := limit.getD (max (max blank.widest margin) 1)
  go folds header.chomping indent [] false [] (cs.length + 1) blank

end Block
end Yaml
end ShaderBuild
