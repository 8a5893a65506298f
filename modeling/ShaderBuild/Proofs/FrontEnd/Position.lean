import ShaderBuild.FrontEnd
import ShaderBuild.Proofs.Text.Pieces

/-!
This module contains that the position of a byte is found by counting: its line is the piece of the
text that it is in, and its column is its distance from the start of that piece.
-/

namespace ShaderBuild
namespace Position

theorem ofOffset.go_append (here : Position) (l : List Char) (c : Char) (cs : List Char) :
    go here (Text.byteSize l) (l ++ c :: cs) =
      ⟨here.line + l.count '\n',
        (if l.count '\n' = 0 then here.column else 1) + (Text.byteSize l -
          Text.pieceStart '\n' (l ++ c :: cs) (l.count '\n'))⟩ := by
  induction l generalizing here with
  | nil =>
    have hpos := Char.utf8Size_pos c
    rw [List.nil_append, Text.byteSize_nil, go, if_pos hpos]
    rfl
  | cons d l ih =>
    have hstart : Text.pieceStart '\n' (l ++ c :: cs) (l.count '\n') ≤ Text.byteSize l :=
      Text.pieceStart_count_le l (c :: cs)
    rw [List.cons_append, Text.byteSize_cons, go, if_neg (by omega), Nat.add_sub_cancel_left]
    split
    . next hd =>
      subst hd
      rw [ih, List.count_cons_self, Text.pieceStart_sep_cons, if_neg (Nat.succ_ne_zero _), ite_self,
        Nat.add_sub_add_left, Nat.add_assoc, Nat.add_comm 1]
    . next hd =>
      -- the start of the line does not move, so its distance grows by the character
      rw [ih, List.count_cons_of_ne hd]
      cases hcount : l.count '\n' with
      | zero =>
        rw [Text.pieceStart_zero, Text.pieceStart_zero, if_pos rfl, if_pos rfl]
        simp only [mk.injEq, true_and]
        omega
      | succ k =>
        rw [hcount] at hstart
        rw [Text.pieceStart_cons_of_ne hd, if_neg (Nat.succ_ne_zero _),
          if_neg (Nat.succ_ne_zero _), Nat.add_sub_add_left]

theorem ofOffset_eq {text : String} {l cs : List Char} {c : Char}
    (h : text.toList = l ++ c :: cs) :
    ofOffset text (Text.byteSize l) =
      ⟨l.count '\n' + 1,
        Text.byteSize l - Text.pieceStart '\n' text.toList (l.count '\n') + 1⟩ := by
  unfold ofOffset
  rw [h, ofOffset.go_append, ite_self, Nat.add_comm 1, Nat.add_comm 1]

end Position
end ShaderBuild
