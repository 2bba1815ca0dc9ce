/-!
# Places in a YAML text

A text is read as a list of characters that know where they stand.  Every line break is one
character: the two-character break, the carriage return and the next-line control are read as a
line feed, while the line and the paragraph separator stay what they are.
-/

namespace Scriptorium.Yaml

/-- A character with its offset in the text, its line and its column. -/
structure Spot where
  char : Char
  offset : Nat
  line : Nat
  column : Nat
  deriving Repr, DecidableEq, Inhabited

def isAllowed (c : Char) : Bool :=
  let n := c.toNat
  n == 0x9 || n == 0xA || n == 0xD || (0x20 ≤ n && n ≤ 0x7E) || n == 0x85
    || (0xA0 ≤ n && n ≤ 0xFFFD) || 0x10000 ≤ n

def isBreak (c : Char) : Bool := c == '\n' || c == '\u2028' || c == '\u2029'

/-- Whether a character separates tokens on a line. -/
def isSpaceOrTab (c : Char) : Bool := c == ' ' || c == '\t'

/-- Whether a character may stand in the name of an anchor or a directive. -/
def isNameChar (c : Char) : Bool :=
  c.toNat < 128 && (c.isAlphanum || c == '_' || c == '-')

/-- The characters of a text from a place on. -/
def spotsFrom (offset line column : Nat) : List Char → List Spot
  | [] => []
  | '\r' :: '\n' :: r => ⟨'\n', offset, line, column⟩ :: spotsFrom (offset + 2) (line + 1) 0 r
  | c :: r =>
    let c := if c = '\r' ∨ c = '\u0085' then '\n' else c
    ⟨c, offset, line, column⟩ ::
      (if isBreak c then spotsFrom (offset + 1) (line + 1) 0 r
        else spotsFrom (offset + 1) line (column + 1) r)

/-- The characters of a text, unless one of them may not stand there. -/
def spots? (text : String) : Option (List Spot) :=
  let cs := text.toList
  if cs.all isAllowed then some (spotsFrom 0 0 0 cs) else none

/-- Whether the text goes on with a character. -/
def nextIs (c : Char) : List Spot → Bool
  | s :: _ => s.char == c
  | [] => false

/-- Whether a break or the end is next. -/
def endsLine : List Spot → Bool
  | s :: _ => isBreak s.char
  | [] => true

/-- Whether a blank, a break or the end is next. -/
def endsWord : List Spot → Bool
  | s :: _ => isSpaceOrTab s.char || isBreak s.char
  | [] => true

/-- Whether the text goes on with three of a character and a blank at the beginning of a line. -/
def isMarker (c : Char) : List Spot → Bool
  | s :: t :: u :: r =>
    s.column == 0 && s.char == c && t.char == c && u.char == c && endsWord r
  | _ => false

/-- Whether a line that begins or ends a document is next. -/
def atMarker (ss : List Spot) : Bool := isMarker '-' ss || isMarker '.' ss

/-- The characters after the blanks of this line. -/
def dropSpaces (ss : List Spot) : List Spot := ss.dropWhile fun s => isSpaceOrTab s.char

/-- The characters from the end of this line on. -/
def dropLine (ss : List Spot) : List Spot := ss.dropWhile fun s => !isBreak s.char

/-- What lies between two words of a scalar: blanks, or a break and the breaks after it. -/
structure Gap where
  blanks : List Char := []
  first : List Char := []
  more : List Char := []
  broken : Bool := false
  deriving Repr, DecidableEq, Inhabited

namespace Gap

def none : Gap := {}

/-- Whether nothing lies between. -/
def isEmpty (g : Gap) : Bool := g == none

/-- The gap with a blank more; after a break blanks are indentation. -/
def addBlank (g : Gap) (c : Char) : Gap :=
  if g.broken then g else { g with blanks := g.blanks ++ [c] }

/-- The gap with a break more; blanks before the first break do not count. -/
def addBreak (g : Gap) (c : Char) : Gap :=
  if g.broken then { g with more := g.more ++ [c] } else { first := [c], broken := true }

/-- What a gap stands for: a single line feed is a space, and of several the first does not count. -/
def text (g : Gap) : List Char :=
  if g.broken then
    if g.first = ['\n'] then (if g.more.isEmpty then [' '] else g.more) else g.first ++ g.more
  else g.blanks

end Gap

end Scriptorium.Yaml
