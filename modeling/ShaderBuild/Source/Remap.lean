import ShaderBuild.Source
import ShaderBuild.Text.Decimal

/-!
This module contains the rewriting of driver logs, which point into the text that was compiled,
into logs that point into the authored files.
-/

namespace ShaderBuild

/--
A log line of the form `0:<line>(<column>): <message>`. The message keeps the space before it.
-/
structure LogEntry where
  line : Nat
  column : Nat
  message : List Char

namespace LogEntry

/--
Read a log line. Both numbers are runs of ASCII digits that fit a 32 bit word.
-/
def parse? (cs : List Char) : Option LogEntry := do
  let (line, cs) := Text.spanDigits (← Text.after? ['0', ':'] cs)
  let (column, cs) := Text.spanDigits (← Text.after? ['('] cs)
  let message ← Text.after? [')', ':'] cs
  if message.head? = some ' ' then
    return ⟨← Text.word? line, ← Text.word? column, message⟩
  else
    none

end LogEntry

namespace Source

/--
Point a log line into the authored file that the reported line comes from. A line that is no log
entry, or whose line has no origin, stays as it is.
-/
def remapLine (source : Source) (line : List Char) : List Char :=
  match LogEntry.parse? line with
  | none => line
  | some entry =>
    match source.lineOrigin? entry.line with
    | none => line
    | some origin => s!"{origin.text}({entry.column}):".toList ++ entry.message

/--
Rewrite each line of a log on its own.
-/
def remapLog (source : Source) (log : String) : String :=
  String.ofList (['\n'].intercalate ((Text.pieces '\n' log.toList).map source.remapLine))

end Source
end ShaderBuild
