import Scriptorium.Yaml.Value

/-!
# Styles of written scalars

A text is written plain where that is safe and reads back as a text, else in single quotes; a text
of several lines is written as a literal block.  Double quotes, which can write everything, are
left for what the other styles cannot hold.
-/

namespace Scriptorium.Yaml

/-- How a scalar is written. -/
inductive Style where
  | plain | single | double | literal
  deriving Repr, DecidableEq, Inhabited

/-- The form that a style reads back as. -/
def Style.form : Style → Form
  | plain => .plain
  | single | double => .quoted
  | literal => .literal

/-! ## What a text contains -/

/-- Whether a character ends a line of any kind. -/
def breaksLine (c : Char) : Bool := isBreak c || c == '\r' || c == '\u0085'

/-- Whether a character separates words. -/
def separates (c : Char) : Bool := isSpaceOrTab c || breaksLine c || c == '\x00'

/-- Whether a character is written as it is; tabs, control characters and those beyond the basic
plane are not. -/
def isPrintable (c : Char) : Bool :=
  let n := c.toNat
  n == 0xA || (0x20 ≤ n && n ≤ 0x7E) || (0xA0 ≤ n && n ≤ 0xFFFD && n != 0xFEFF)

/-- Whether two characters that satisfy conditions stand side by side. -/
def adjacent (p q : Char → Bool) : List Char → Bool
  | a :: b :: r => (p a && q b) || adjacent p q (b :: r)
  | _ => false

/-- Whether a character that means something stands at the beginning of a text. -/
def beginsSpecial : List Char → Bool
  | [] => false
  | c :: r =>
    c ∈ ['#', ',', '[', ']', '\x7b', '\x7d', '&', '*', '!', '|', '>', '\'', '"', '%', '@', '\x60']
      || (c ∈ ['?', ':', '-'] && r.head?.all separates)

/-- Whether a text has a mark that ends a plain scalar: a colon that ends a word, a number sign
that begins one, or a marker of a document at its beginning. -/
def hasMark (cs : List Char) : Bool :=
  beginsSpecial cs || cs.take 3 == ['-', '-', '-'] || cs.take 3 == ['.', '.', '.']
    || adjacent (· == ':') separates cs || (1 < cs.length && cs.getLast? == some ':')
    || adjacent separates (· == '#') cs

/-- Whether a blank stands before a break. -/
def blankBeforeBreak (cs : List Char) : Bool := adjacent (· == ' ') breaksLine cs

/-- Whether a text may stand in a literal block. -/
def fitsLiteral (cs : List Char) : Bool :=
  cs.all isPrintable && !blankBeforeBreak cs && cs.getLast? != some ' '

/-- Whether a text may stand in single quotes. -/
def fitsSingle (cs : List Char) : Bool :=
  cs.all isPrintable && !blankBeforeBreak cs && !adjacent breaksLine (· == ' ') cs

/-- Whether a text may be written plain. -/
def fitsPlain (cs : List Char) : Bool :=
  cs.all isPrintable && !cs.any breaksLine && cs.head? != some ' ' && cs.getLast? != some ' '
    && !hasMark cs

/-! ## The choice -/

/-- Words that some readers take for truth values. -/
def truthWords : List String :=
  ["y", "Y", "yes", "Yes", "YES", "n", "N", "no", "No", "NO", "true", "True", "TRUE", "false",
    "False", "FALSE", "on", "On", "ON", "off", "Off", "OFF"]

/-- Whether a number of 128 bits, with or without sign, is written here. -/
def isInteger (s : String) : Bool :=
  (naturalOf? s).any (· < Nat.pow 2 128) || (negativeOf? s).any (· ≤ Nat.pow 2 127)

/-- Whether a plain text would read as something other than a text. -/
def looksTyped (s : String) : Bool :=
  s == "" || isNull s || s ∈ truthWords || isInteger s || zeroLed s.toList || (realOf? s).isSome

/-- The style that can hold a text, given the style that is wished for. -/
def Style.fitting (cs : List Char) : Style → Style
  | .plain => if fitsPlain cs then .plain else if fitsSingle cs then .single else .double
  | .single => if fitsSingle cs then .single else .double
  | .literal => if fitsLiteral cs then .literal else .double
  | .double => .double

def Style.ofText (s : String) : Style :=
  Style.fitting s.toList <|
    if s ∈ truthWords then .single
    else if s.toList.contains '\n' then .literal
    else if looksTyped s then .single
    else .plain

namespace Node

def ofText (s : String) : Node := .scalar { text := s, form := (Style.ofText s).form }

def ofTexts (l : List String) : Node := .sequence (l.map ofText)

def ofNat (n : Nat) : Node := .scalar { text := toString n }

def ofNothing : Node := .scalar { text := "null" }

def ofOption {α : Type} (f : α → Node) : Option α → Node
  | none => ofNothing
  | some a => f a

end Node

end Scriptorium.Yaml
