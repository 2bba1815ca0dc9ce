import Scriptorium.Text.Blank

/-!
# Lines

A line ends at a line feed, and a carriage return directly before that line feed belongs to the
line's end.  A carriage return elsewhere is an ordinary character, and a text that ends in a line
feed has no empty line after it.
-/

namespace Scriptorium.Text

/-- The lines of a list of characters, without their ends. -/
def splitLines : List Char → List (List Char)
  | [] => []
  | '\n' :: r => [] :: splitLines r
  | '\r' :: '\n' :: r => [] :: splitLines r
  | c :: r => match splitLines r, r with
    | l :: ls, _ :: _ => (c :: l) :: ls
    | ls, _ => [c] :: ls

/-- The lines of a text, without their ends. -/
def lines (s : String) : List String := (splitLines s.toList).map String.ofList

/-- Lists of characters joined by a separator. -/
def joinChars (sep : List Char) : List (List Char) → List Char
  | [] => []
  | [l] => l
  | l :: ls => l ++ sep ++ joinChars sep ls

/-- The parts between the places where one character stands; there is always at least one. -/
def splitAtChar (sep : Char) : List Char → List (List Char)
  | [] => [[]]
  | c :: r => if c = sep then [] :: splitAtChar sep r else match splitAtChar sep r with
    | [] => [[c]]
    | p :: ps => (c :: p) :: ps

end Scriptorium.Text
