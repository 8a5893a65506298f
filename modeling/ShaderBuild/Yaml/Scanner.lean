import ShaderBuild.Text.Pieces
import ShaderBuild.Yaml.Scalar
import ShaderBuild.Yaml.Token

/-!
This module contains the cutting of YAML texts into tokens. That a scalar or a collection is the key
of a mapping only shows when the colon after it is found, so that a token is given out only when no
key can start with it any more.
-/

namespace ShaderBuild
namespace Yaml

/--
A place in a text, counted from zero. The index counts bytes, the column characters.
-/
structure Mark where
  index : Nat
  line : Nat
  column : Nat

namespace Mark

/--
The place after so many characters of a text.
-/
def advance (m : Mark) : Nat → List Char → Mark
  | 0, _ => m
  | _, [] => m
  | n + 1, c :: cs =>
    if isBreak c && !(c = '\r' && cs.head? = some '\n') then
      advance ⟨m.index + c.utf8Size, m.line + 1, 0⟩ n cs
    else
      advance ⟨m.index + c.utf8Size, m.line, m.column + 1⟩ n cs

/--
The start of the next line, unless the place is the start of one.
-/
def toLineStart (m : Mark) : Mark :=
  if m.column = 0 then m else ⟨m.index, m.line + 1, 0⟩

end Mark

/--
The start of what may turn out to be a key.
-/
structure KeyCandidate where
  /-- A key is the only thing that can stand here. -/
  isRequired : Bool
  /-- The number of the token that the key starts with. -/
  token : Nat
  mark : Mark

/--
The state of the cutting.
-/
structure Scanner where
  rest : List Char
  /-- The text goes on after `rest` with characters that may not occur. -/
  isCut : Bool
  mark : Mark
  /-- The least column of the content of the innermost block collection, zero outside of them. -/
  margin : Nat
  /-- The margins around the innermost block collection. -/
  outerMargins : List Nat
  /-- A key may start at the next token. -/
  allowsKey : Bool
  /-- The candidate of the innermost flow collection, or of the block collections around them. -/
  candidate : Option KeyCandidate
  /-- The candidates outside of the flow collections that are open, innermost first. -/
  outerCandidates : List (Option KeyCandidate)
  /-- The tokens that are not given out yet. -/
  pending : List Token
  /-- The number of tokens that are given out. -/
  given : Nat

namespace Scanner

/--
The state before the first token.
-/
def start (text : List Char) (isCut : Bool) : Scanner where
  rest := text
  isCut := isCut
  mark := ⟨0, 0, 0⟩
  margin := 0
  outerMargins := []
  allowsKey := true
  candidate := none
  outerCandidates := []
  pending := []
  given := 0

/--
Inside a flow collection.
-/
def inFlow (s : Scanner) : Bool :=
  !s.outerCandidates.isEmpty

/--
Go on after so many characters.
-/
def skip (s : Scanner) (n : Nat) : Scanner :=
  { s with rest := s.rest.drop n, mark := s.mark.advance n s.rest }

/--
Go on at a later place of the text.
-/
def goTo (s : Scanner) (rest : List Char) : Scanner :=
  s.skip (s.rest.length - rest.length)

def push (s : Scanner) (token : Token) : Scanner :=
  { s with pending := s.pending ++ [token] }

/--
Put a token in front of the pending token of that number.
-/
def insert (s : Scanner) (number : Nat) (token : Token) : Scanner :=
  let n := number - s.given
  { s with pending := s.pending.take n ++ token :: s.pending.drop n }

/--
The greatest number of bytes that a key can have.
-/
def keyLimit : Nat := 1024

/--
A key ends on the line that it starts on, and is not too long.
-/
def isStale (s : Scanner) (k : KeyCandidate) : Bool :=
  k.mark.line < s.mark.line || k.mark.index + keyLimit < s.mark.index

/--
Drop a candidate, which must not be required.
-/
def dropCandidate : Option KeyCandidate → Option (Option KeyCandidate)
  | some k => if k.isRequired then none else some none
  | none => some none

/--
Drop the candidate of the innermost collection.
-/
def removeCandidate (s : Scanner) : Option Scanner := do
  return { s with candidate := ← dropCandidate s.candidate }

/--
Drop the candidates that can no longer be keys.
-/
def removeStale (s : Scanner) : Option Scanner := do
  let renew (k? : Option KeyCandidate) : Option (Option KeyCandidate) :=
    match k? with
    | some k => if s.isStale k then dropCandidate (some k) else some (some k)
    | none => some none
  let outer ← s.outerCandidates.mapM renew
  return { s with candidate := ← renew s.candidate, outerCandidates := outer }

/--
Note that a key may start here.
-/
def saveCandidate (s : Scanner) : Option Scanner :=
  if s.allowsKey then do
    let s ← s.removeCandidate
    let isRequired := !s.inFlow && s.margin = s.mark.column + 1
    return { s with candidate := some ⟨isRequired, s.given + s.pending.length, s.mark⟩ }
  else
    some s

/--
Open a block collection whose entries start at a column, unless one is open there. The token that
says so stands in front of the token `before`, or at the end.
-/
def openBlock (s : Scanner) (column : Nat) (before : Option Nat) (token : Token) : Scanner :=
  if s.inFlow || column < s.margin then
    s
  else
    let s := { s with outerMargins := s.margin :: s.outerMargins, margin := column + 1 }
    match before with
    | some number => s.insert number token
    | none => s.push token

/--
Close the block collections whose entries start after the given margin.
-/
def closeBlocks (s : Scanner) (margin : Nat) : Scanner :=
  if s.inFlow then s else close s.margin s.outerMargins []
where
  close (current : Nat) (outer : List Nat) (tokens : List Token) : Scanner :=
    match outer with
    | [] => { s with margin := current, outerMargins := [], pending := s.pending ++ tokens }
    | next :: outer' =>
      if margin < current then
        close next outer' (.blockEnd :: tokens)
      else
        { s with margin := current, outerMargins := outer, pending := s.pending ++ tokens }

/--
The number of characters in front of the next token, added to `n`, and whether a key may start
there. Line ends outside of flow collections allow keys, and tabs are skipped only where none may
start.
-/
def spaceToToken (inFlow : Bool) (allowsKey atLineStart inComment : Bool) (n : Nat) :
    List Char → Nat × Bool
  | [] => (n, allowsKey)
  | c :: cs =>
    if isBreak c then
      spaceToToken inFlow (allowsKey || !inFlow) true false (n + 1) cs
    else if inComment then
      spaceToToken inFlow allowsKey false true (n + 1) cs
    else if c = byteOrderMark && atLineStart then
      spaceToToken inFlow allowsKey false false (n + 1) cs
    else if c = ' ' || (c = '\t' && (inFlow || !allowsKey)) then
      spaceToToken inFlow allowsKey false false (n + 1) cs
    else if c = '#' then
      spaceToToken inFlow allowsKey false true (n + 1) cs
    else
      (n, allowsKey)

/--
Add a token that takes so many characters and leaves no candidate.
-/
def indicator (s : Scanner) (token : Token) (length : Nat) (allowsKey : Bool) : Option Scanner := do
  let s ← s.removeCandidate
  return ({ s with allowsKey := allowsKey }.skip length).push token

/--
The text is at its end, which also ends the line.
-/
def atStreamEnd (s : Scanner) : Option Scanner := do
  let s := { s with mark := s.mark.toLineStart }.closeBlocks 0
  s.indicator .streamEnd 0 false

def atDirective (s : Scanner) : Option Scanner := do
  let s ← (s.closeBlocks 0).removeCandidate
  let (token, rest) ← Token.directive? s.rest.tail
  return ({ s with allowsKey := false }.goTo rest).push token

def atDocument (s : Scanner) (token : Token) : Option Scanner :=
  (s.closeBlocks 0).indicator token 3 false

def atFlowStart (s : Scanner) (token : Token) : Option Scanner := do
  let s ← s.saveCandidate
  let s := { s with
    candidate := none
    outerCandidates := s.candidate :: s.outerCandidates
    allowsKey := true }
  return (s.skip 1).push token

def atFlowEnd (s : Scanner) (token : Token) : Option Scanner := do
  let s ← s.removeCandidate
  let s := match s.outerCandidates with
    | [] => s
    | candidate :: outer => { s with candidate := candidate, outerCandidates := outer }
  return ({ s with allowsKey := false }.skip 1).push token

def atBlockEntry (s : Scanner) : Option Scanner :=
  if s.inFlow then
    s.indicator .blockEntry 1 true
  else if s.allowsKey then
    (s.openBlock s.mark.column none .blockSequenceStart).indicator .blockEntry 1 true
  else
    none

def atKey (s : Scanner) : Option Scanner :=
  if s.inFlow then
    s.indicator .key 1 false
  else if s.allowsKey then
    (s.openBlock s.mark.column none .blockMappingStart).indicator .key 1 true
  else
    none

/--
A colon makes a key of the candidate, if there is one.
-/
def atValue (s : Scanner) : Option Scanner :=
  match s.candidate with
  | some k =>
    let s := s.insert k.token .key
    let s := s.openBlock k.mark.column (some k.token) .blockMappingStart
    some (({ s with candidate := none, allowsKey := false }.skip 1).push .value)
  | none =>
    if s.inFlow then
      some (({ s with allowsKey := false }.skip 1).push .value)
    else if s.allowsKey then
      let s := s.openBlock s.mark.column none .blockMappingStart
      some (({ s with allowsKey := true }.skip 1).push .value)
    else
      none

/--
Add a token that a key may start with, read from a later place of the text.
-/
def atNode (s : Scanner) (token : Token) (rest : List Char) (allowsKey : Bool) :
    Option Scanner := do
  let s ← s.saveCandidate
  return ({ s with allowsKey := allowsKey }.goTo rest).push token

def atBlockScalar (s : Scanner) (folds : Bool) : Option Scanner := do
  let s ← s.removeCandidate
  let read ← Block.read folds s.margin s.rest.tail
  return ({ s with allowsKey := true }.goTo read.rest).push
    (.scalar read.value (if folds then .folded else .literal))

/--
Whether a plain scalar can start with a text.
-/
def startsPlain (inFlow : Bool) (cs : List Char) : Bool :=
  match cs with
  | [] => false
  | c :: rest =>
    if c = '-' then
      !rest.head?.any isSpace
    else if c = '?' || c = ':' then
      !inFlow && !atGap rest
    else
      !(isSpace c || isBreak c) &&
      c ∉ [',', '[', ']', '\x7b', '\x7d', '#', '&', '*', '!', '|', '>', '\x27', '\x22', '%', '@',
        '\x60']

def atPlain (s : Scanner) : Option Scanner :=
  if startsPlain s.inFlow s.rest then do
    let read ← Plain.read s.inFlow s.margin s.rest
    s.atNode (.scalar read.value .plain) read.rest read.endsLine
  else
    none

/--
Add the token that the text goes on with, together with those that go before it.
-/
def atToken (s : Scanner) : Option Scanner := do
  let atLineStart := s.mark.column = 0
  match s.rest with
  | [] => s.atStreamEnd
  | c :: cs =>
    if atLineStart && c = '%' then
      s.atDirective
    else if atLineStart && atDocumentMark s.rest then
      s.atDocument (if c = '-' then .documentStart else .documentEnd)
    else match c with
    | '[' => s.atFlowStart .flowSequenceStart
    | '\x7b' => s.atFlowStart .flowMappingStart
    | ']' => s.atFlowEnd .flowSequenceEnd
    | '\x7d' => s.atFlowEnd .flowMappingEnd
    | ',' => s.indicator .flowEntry 1 true
    | '-' => if atGap cs then s.atBlockEntry else s.atPlain
    | '?' => if s.inFlow || atGap cs then s.atKey else s.atPlain
    | ':' => if s.inFlow || atGap cs then s.atValue else s.atPlain
    | '*' => do
      let (name, rest) ← Token.anchorName? cs
      s.atNode (.alias name) rest false
    | '&' => do
      let (name, rest) ← Token.anchorName? cs
      s.atNode (.anchor name) rest false
    | '!' => do
      let (token, rest) ← Token.tag? s.inFlow s.rest
      s.atNode token rest false
    | '|' => if s.inFlow then none else s.atBlockScalar false
    | '>' => if s.inFlow then none else s.atBlockScalar true
    | '\x27' => do
      let read ← Quoted.read c cs
      s.atNode (.scalar read.value .quoted) read.rest false
    | '\x22' => do
      let read ← Quoted.read c cs
      s.atNode (.scalar read.value .quoted) read.rest false
    | _ => s.atPlain

/--
The number of characters that are looked at to tell a token.
-/
def lookahead : Nat := 4

/--
Fewer than so many characters are left before the ones that may not occur.
-/
def isCutWithin (s : Scanner) (n : Nat) : Bool :=
  s.isCut && (s.rest.drop (n - 1)).isEmpty

/--
Add the next token of the text, together with those that go before it. There is nothing if the text
is malformed.
-/
def fetch (s : Scanner) : Option Scanner := do
  let (n, allowsKey) := spaceToToken s.inFlow s.allowsKey (s.mark.column = 0) false 0 s.rest
  let s ← removeStale ({ s with allowsKey := allowsKey }.skip n)
  if s.isCutWithin lookahead then
    none
  let s ← (s.closeBlocks (s.mark.column + 1)).atToken
  if s.isCutWithin 1 then
    none
  return s

/--
Whether a key may turn out to start with the first pending token.
-/
def awaitsKey (s : Scanner) : Bool :=
  (s.candidate :: s.outerCandidates).any fun k? => k?.any fun k => k.token = s.given

/--
The tokens that are given out from a state on, up to the end of the text or to the place where it is
malformed. The number of steps is bounded.
-/
def run : Nat → Scanner → List Token
  | 0, _ => []
  | steps + 1, s =>
    match s.pending with
    | [] =>
      match s.fetch with
      | none => []
      | some s => run steps s
    | token :: pending =>
      match s.removeStale with
      | none => []
      | some s =>
        if s.awaitsKey then
          match s.fetch with
          | none => []
          | some s => run steps s
        else if token = .streamEnd then
          [token]
        else
          token :: run steps { s with pending := pending, given := s.given + 1 }

end Scanner

/--
The number of bytes that are read of a text at a time.
-/
def blockSize : Nat := 16384

/--
The front of a text that can be read. A character that may not occur makes the block that it ends in
unreadable, and what comes after it.
-/
def readable (cs : List Char) : List Char :=
  match cs.dropWhile isPrintable with
  | [] => cs
  | c :: _ =>
    let stop := Text.byteSize (cs.takeWhile isPrintable) + c.utf8Size
    Text.takeBytes ((stop - 1) / blockSize * blockSize) cs

/--
The tokens of a text. They end with the end of the stream if the text is well formed, and short of
the first fault if it is not.
-/
def tokens (text : String) : List Token :=
  let cs := text.toList
  let front := readable cs
  Scanner.run (8 * (front.length + 4)) (.start front (front.length < cs.length))

end Yaml
end ShaderBuild
