/-!
This module contains the cutting of texts, at a separator or after a number of bytes. A text with
`n` separators has `n + 1` pieces, and joining the pieces with the separator gives the text back.
-/

namespace ShaderBuild
namespace Text

/--
Put one more character in front of the first piece.
-/
def extendFirst (c : Char) : List (List Char) → List (List Char)
  | [] => [[c]]
  | piece :: rest => (c :: piece) :: rest

/--
The pieces of a text between the occurrences of a separator, empty ones included.
-/
def pieces (sep : Char) : List Char → List (List Char)
  | [] => [[]]
  | c :: cs => if c = sep then [] :: pieces sep cs else extendFirst c (pieces sep cs)

theorem pieces_ne_nil (sep : Char) (cs : List Char) : pieces sep cs ≠ [] := by
  cases cs with
  | nil => simp [pieces]
  | cons c cs =>
    unfold pieces
    split
    . simp
    . cases pieces sep cs <;> simp [extendFirst]

/--
The rest of a text after a given beginning.
-/
def after? : List Char → List Char → Option (List Char)
  | [], cs => some cs
  | _ :: _, [] => none
  | e :: expected, c :: cs => if e = c then after? expected cs else none

/--
The number of bytes of a text.
-/
def byteSize : List Char → Nat
  | [] => 0
  | c :: cs => c.utf8Size + byteSize cs

/--
The characters of a text that end within so many bytes.
-/
def takeBytes : Nat → List Char → List Char
  | _, [] => []
  | n, c :: cs => if c.utf8Size ≤ n then c :: takeBytes (n - c.utf8Size) cs else []

/--
The texts one after the other, with `sep` between neighbours.
-/
def join (sep : String) (texts : List String) : String :=
  sep.intercalate texts

end Text
end ShaderBuild
