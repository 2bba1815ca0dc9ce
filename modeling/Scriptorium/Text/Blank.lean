/-!
# Blanks

White space is the Unicode property of that name: besides the ASCII blanks it holds the next-line
control, the no-break space, the line and paragraph separators and the spaces of fixed width, but
not the zero-width space.  Trimming and splitting into words go by it.
-/

namespace Scriptorium.Text

def isBlank (c : Char) : Bool :=
  let n := c.toNat
  n == 0x20 || (0x9 ≤ n && n ≤ 0xD) || n == 0x85 || n == 0xA0 || n == 0x1680 ||
    (0x2000 ≤ n && n ≤ 0x200A) || n == 0x2028 || n == 0x2029 || n == 0x202F || n == 0x205F ||
    n == 0x3000

/-- The characters after the leading blanks. -/
def dropBlanks (cs : List Char) : List Char := cs.dropWhile isBlank

/-- The characters before the trailing blanks. -/
def dropBlanksEnd (cs : List Char) : List Char := (cs.reverse.dropWhile isBlank).reverse

/-- The characters between the blanks at either end. -/
def stripBlanks (cs : List Char) : List Char := dropBlanksEnd (dropBlanks cs)

def trimEnd (s : String) : String := String.ofList (dropBlanksEnd s.toList)

def trim (s : String) : String := String.ofList (stripBlanks s.toList)

/-- Whether a text holds nothing but blanks. -/
def blank (s : String) : Bool := s.toList.all isBlank

/-- The maximal runs of characters that are not blank. -/
def wordsOf : List Char → List (List Char)
  | [] => []
  | c :: r =>
    if isBlank c then wordsOf r
    else match r, wordsOf r with
      | d :: _, w :: ws => if isBlank d then [c] :: w :: ws else (c :: w) :: ws
      | _, ws => [c] :: ws

def wordCount (s : String) : Nat := (wordsOf s.toList).length

end Scriptorium.Text
