import ShaderBuild.Proofs.Text.Lines

/-!
This module contains the ways to write the line ends of a text: a carriage return in front of every
line feed, and a line feed behind the last line. Neither changes the lines that the text is cut into,
as long as no carriage return is in front of a line feed already.
-/

namespace ShaderBuild
namespace Text

variable {cs : List Char}

/--
The text with a carriage return in front of every line feed.
-/
def addReturns (cs : List Char) : List Char :=
  cs.flatMap fun c => if c = '\n' then ['\r', '\n'] else [c]

/--
The text with a line feed behind its last line, unless it is empty or ends with a line feed or a
carriage return.
-/
def endLastLine (cs : List Char) : List Char :=
  match cs.getLast? with
  | none | some '\n' | some '\r' => cs
  | some _ => cs ++ ['\n']

/--
The second text is the first one with its line ends written in one of these ways.
-/
inductive Respelled (text text' : String) : Prop
  | same : text' = text → Respelled text text'
  | returns : text'.toList = addReturns text.toList → Respelled text text'
  | ended : text'.toList = endLastLine text.toList → Respelled text text'
  | returnsEnded : text'.toList = endLastLine (addReturns text.toList) → Respelled text text'
  | endedReturns : text'.toList = addReturns (endLastLine text.toList) → Respelled text text'

/--
No carriage return is directly in front of a line feed.
-/
def HasNoPairs (cs : List Char) : Prop :=
  ¬ ['\r', '\n'] <:+: cs

instance (cs : List Char) : Decidable (HasNoPairs cs) :=
  inferInstanceAs (Decidable (¬ ['\r', '\n'] <:+: cs))

theorem HasNoPairs.tail {c : Char} (h : HasNoPairs (c :: cs)) : HasNoPairs cs := by
  intro hinfix
  exact h (List.infix_cons hinfix)

theorem HasNoPairs.head?_ne (h : HasNoPairs ('\r' :: cs)) : cs.head? ≠ some '\n' := by
  intro hhead
  rcases List.head?_eq_some_iff.mp hhead with ⟨rest, rfl⟩
  exact h ⟨[], rest, rfl⟩

theorem head?_addReturns_ne (cs : List Char) : (addReturns cs).head? ≠ some '\n' := by
  cases cs with
  | nil => simp [addReturns]
  | cons c cs =>
    unfold addReturns
    rw [List.flatMap_cons]
    split
    . simp
    . next hc => simpa using hc

theorem cutLines_addReturns (h : HasNoPairs cs) : cutLines (addReturns cs) = cutLines cs := by
  induction cs with
  | nil => rfl
  | cons c cs ih =>
    specialize ih h.tail
    by_cases hc : c = '\n'
    . subst hc
      rw [cutLines_newline_cons, ← ih]
      rfl
    . have hcons : addReturns (c :: cs) = c :: addReturns cs := by simp [addReturns, hc]
      rw [hcons, cutLines_cons hc, ih, cutLines_cons hc]
      . rintro rfl
        exact h.head?_ne
      . intro _
        apply head?_addReturns_ne

theorem cutLines_append_newline_of_getLast? {c : Char} (h : cs.getLast? = some c)
    (hfeed : c ≠ '\n') (hreturn : c ≠ '\r') : cutLines (cs ++ ['\n']) = cutLines cs := by
  induction cs with
  | nil => cases h
  | cons first rest ih =>
    cases rest with
    | nil =>
      rw [List.getLast?_singleton, Option.some.injEq] at h
      subst h
      rw [List.singleton_append, cutLines_cons hfeed (absurd · hreturn), cutLines_cons hfeed]
      . rfl
      . intro hc
        contradiction
    | cons second rest =>
      rw [List.getLast?_cons_cons] at h
      specialize ih h
      by_cases hfirst : first = '\n'
      . subst hfirst
        rw [List.cons_append, cutLines_newline_cons, cutLines_newline_cons, ih]
      . by_cases hpair : first = '\r' ∧ second = '\n'
        . -- the line feed takes the carriage return along, so that `ih` is about the same lines
          rcases hpair with ⟨rfl, rfl⟩
          exact ih
        . have hhead : first = '\r' → second ≠ '\n' := fun hr hn => hpair ⟨hr, hn⟩
          rw [List.cons_append, cutLines_cons hfirst (by simpa using hhead), ih,
            cutLines_cons hfirst (by simpa using hhead)]

theorem endLastLine_eq (cs : List Char) :
    endLastLine cs = cs ∨
      endLastLine cs = cs ++ ['\n'] ∧ ∃ c, cs.getLast? = some c ∧ c ≠ '\n' ∧ c ≠ '\r' := by
  unfold endLastLine
  split
  . exact .inl rfl
  . exact .inl rfl
  . exact .inl rfl
  . next c hfeed hreturn hlast =>
    exact .inr ⟨rfl, c, hlast, by simpa using hfeed, by simpa using hreturn⟩

theorem cutLines_endLastLine (cs : List Char) : cutLines (endLastLine cs) = cutLines cs := by
  rcases endLastLine_eq cs with h | ⟨h, c, hlast, hfeed, hreturn⟩
  . rw [h]
  . rw [h, cutLines_append_newline_of_getLast? hlast hfeed hreturn]

theorem HasNoPairs.endLastLine (h : HasNoPairs cs) : HasNoPairs (endLastLine cs) := by
  rcases endLastLine_eq cs with heq | ⟨heq, c, hlast, _, hreturn⟩
  . rw [heq]
    exact h
  . rw [heq]
    intro hinfix
    rw [List.infix_concat_iff, List.suffix_concat_iff] at hinfix
    rcases hinfix with (hnil | ⟨before, hbefore, hsuffix⟩) | hinfix
    . cases hnil
    . have hbefore : ['\r'] = before := List.append_cancel_right hbefore
      rcases hsuffix with ⟨front, rfl⟩
      rw [← hbefore, List.getLast?_concat, Option.some.injEq] at hlast
      exact hreturn hlast.symm
    . exact h hinfix

/--
Texts that differ in how their line ends are written have the same lines.
-/
theorem Respelled.lines_eq {text text' : String} (h : Respelled text text')
    (hpairs : HasNoPairs text.toList) : lines text' = lines text := by
  unfold lines
  apply congrArg
  cases h with
  | same h => rw [h]
  | returns h => rw [h, cutLines_addReturns hpairs]
  | ended h => rw [h, cutLines_endLastLine]
  | returnsEnded h => rw [h, cutLines_endLastLine, cutLines_addReturns hpairs]
  | endedReturns h => rw [h, cutLines_addReturns hpairs.endLastLine, cutLines_endLastLine]

end Text
end ShaderBuild
