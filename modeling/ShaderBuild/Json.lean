import ShaderBuild.Record
import ShaderBuild.Text.Decimal

/-!
This module contains JSON values, the reading of records from them, and their printed form.
-/

namespace ShaderBuild

/--
A JSON value. A decimal is the number `mantissa / 10 ^ places`.
-/
inductive JsonValue
  | null
  | boolean (b : Bool)
  | integer (n : Int)
  | decimal (mantissa : Int) (places : Nat)
  | text (s : String)
  | list (items : List JsonValue)
  | object (entries : List (String × JsonValue))

namespace JsonValue

/--
Records in JSON are strict: every value has to be of the kind that is asked for, and null stands for
nothing.
-/
def format : Format JsonValue where
  text
    | .text s => return s
    | _ => throw .malformed
  present?
    | .null => return none
    | value => return some value
  word
    | .integer n => if 0 ≤ n && n < Text.wordLimit then return n.toNat else throw .malformed
    | _ => throw .malformed
  items
    | .list items => return items
    | _ => throw .malformed
  fields
    | .object entries => return .named (entries.map fun (key, value) => (.text key, value))
    | .list items => return .ordered items
    | _ => throw .malformed
  ignore _ := return ()

/--
A character inside a printed text. Quotes, backslashes and control characters are escaped.
-/
def escapeChar (c : Char) : List Char :=
  match c with
  | '\x22' => ['\\', '\x22']
  | '\\' => ['\\', '\\']
  | '\x08' => ['\\', 'b']
  | '\x0c' => ['\\', 'f']
  | '\n' => ['\\', 'n']
  | '\r' => ['\\', 'r']
  | '\t' => ['\\', 't']
  | c =>
    if c.toNat < 0x20 then
      ['\\', 'u', '0', '0', Nat.digitChar (c.toNat / 16), Nat.digitChar (c.toNat % 16)]
    else
      [c]

/--
The printed form of a text.
-/
def quote (s : String) : String :=
  String.ofList ('\x22' :: s.toList.flatMap escapeChar ++ ['\x22'])

/--
A new line that is indented to a depth.
-/
def newLine (depth : Nat) : String :=
  String.ofList ('\n' :: List.replicate (2 * depth) ' ')

/--
The printed form of a number.
-/
def decimalText (mantissa : Int) (places : Nat) : String :=
  let digits := Nat.toDigits 10 mantissa.natAbs
  let digits := List.replicate (places + 1 - digits.length) '0' ++ digits
  let whole := digits.take (digits.length - places)
  let sign := if mantissa < 0 then ['-'] else []
  String.ofList (sign ++ whole ++ '.' :: digits.drop (digits.length - places))

mutual

/--
The printed form of a value inside `depth` lists and objects. Each item is on a line of its own.
-/
def pretty (depth : Nat) : JsonValue → String
  | null => "null"
  | boolean b => if b then "true" else "false"
  | integer n => toString n
  | decimal mantissa places => decimalText mantissa places
  | text s => quote s
  | list [] => "[]"
  | list (item :: rest) =>
    "[" ++ newLine (depth + 1) ++ pretty (depth + 1) item ++ prettyItems (depth + 1) rest ++
      newLine depth ++ "]"
  | object [] => "\x7b\x7d"
  | object ((key, value) :: rest) =>
    "\x7b" ++ newLine (depth + 1) ++ quote key ++ ": " ++ pretty (depth + 1) value ++
      prettyEntries (depth + 1) rest ++ newLine depth ++ "\x7d"

/--
The items of a list after the first.
-/
def prettyItems (depth : Nat) : List JsonValue → String
  | [] => ""
  | item :: rest => "," ++ newLine depth ++ pretty depth item ++ prettyItems depth rest

/--
The entries of an object after the first.
-/
def prettyEntries (depth : Nat) : List (String × JsonValue) → String
  | [] => ""
  | (key, value) :: rest =>
    "," ++ newLine depth ++ quote key ++ ": " ++ pretty depth value ++ prettyEntries depth rest

end

end JsonValue
end ShaderBuild
