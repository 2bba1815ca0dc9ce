import Scriptorium.Text.CategoryTable

/-!
# Quoted texts

A text in double quotes, in which quotes, backslashes and characters that cannot be seen are
escaped.
-/

namespace Scriptorium.Text

/-- The general categories whose characters are shown as they are. -/
def visibleCategories : List String :=
  ["lu", "ll", "lt", "lm", "lo", "mc", "nd", "nl", "no", "pc", "pd", "ps", "pe", "pi", "pf", "po",
    "sm", "sc", "sk", "so"]

/-- The characters that are shown as they are. -/
def visibleRanges : List CodeRange :=
  (visibleCategories.filterMap fun n => (categoryTable.lookup n).map CodeRange.ofText).flatten

/-- Whether a character is shown as it is. -/
def isVisible (c : Char) : Bool :=
  if c.toNat < 0x7F then 0x20 ≤ c.toNat else inRanges visibleRanges c

/-- A character in quotes. -/
def quotedChar (c : Char) : List Char :=
  match c with
  | '"' => ['\\', '"']
  | '\\' => ['\\', '\\']
  | '\n' => ['\\', 'n']
  | '\r' => ['\\', 'r']
  | '\t' => ['\\', 't']
  | '\x00' => ['\\', '0']
  | c =>
    if isVisible c then [c]
    else '\\' :: 'u' :: '\x7b' :: (Nat.toDigits 16 c.toNat ++ ['\x7d'])

/-- A text in quotes. -/
def quoted (s : String) : String :=
  String.ofList ('"' :: s.toList.flatMap quotedChar ++ ['"'])

end Scriptorium.Text
