import Scriptorium.Text.WordTable
import Scriptorium.Text.Case

/-!
# Word characters

The Unicode classes of word characters and decimal digits, with their ASCII part told directly.
-/

namespace Scriptorium.Text

/-- Whether a character may stand in a word: letters, marks, decimal digits, connectors. -/
def isWord (c : Char) : Bool :=
  if isAscii c then c.isAlphanum || c == '_' else inRanges wordRanges c

/-- Whether a character is a decimal digit of any script. -/
def isDecimal (c : Char) : Bool :=
  if isAscii c then c.isDigit else inRanges digitRanges c

end Scriptorium.Text
