import Scriptorium.Yaml.Style

/-!
# Printing YAML

Mappings and lists are written in blocks, two columns deeper at each level; a list that is a value
stands in the column of its key.  What is empty is written in brackets.  A key that is long or has
several lines is announced by a question mark.
-/

namespace Scriptorium.Yaml

/-- Text moved two columns to the right; lines without content stay as they are. -/
def indented (atStart : Bool) : List Char → List Char
  | [] => []
  | c :: r =>
    if isBreak c then c :: indented true r
    else if atStart then ' ' :: ' ' :: c :: indented false r
    else c :: indented false r

/-- Text with a break at its end, unless it has one. -/
def closed (cs : List Char) : List Char :=
  match cs.getLast? with
  | some c => if isBreak c then cs else cs ++ ['\n']
  | none => ['\n']

/-- A number in hexadecimal digits of a width. -/
def hexDigits (width n : Nat) : List Char :=
  let ds := (Nat.toDigits 16 n).map Char.toUpper
  List.replicate (width - ds.length) '0' ++ ds

/-- A character in double quotes. -/
def escape (c : Char) : List Char :=
  if c = '"' ∨ c = '\\' then ['\\', c]
  else if isPrintable c ∧ !breaksLine c then [c]
  else
    let n := c.toNat
    match n with
    | 0x00 => ['\\', '0']
    | 0x07 => ['\\', 'a']
    | 0x08 => ['\\', 'b']
    | 0x09 => ['\\', 't']
    | 0x0A => ['\\', 'n']
    | 0x0B => ['\\', 'v']
    | 0x0C => ['\\', 'f']
    | 0x0D => ['\\', 'r']
    | 0x1B => ['\\', 'e']
    | 0x85 => ['\\', 'N']
    | 0x2028 => ['\\', 'L']
    | 0x2029 => ['\\', 'P']
    | _ =>
      if n ≤ 0xFF then '\\' :: 'x' :: hexDigits 2 n
      else if n ≤ 0xFFFF then '\\' :: 'u' :: hexDigits 4 n
      else '\\' :: 'U' :: hexDigits 8 n

/-- The mark for the breaks at the end of a literal block: none but one, as many as there are. -/
def chompMark (cs : List Char) : List Char :=
  match cs.reverse with
  | [] => ['-']
  | c :: r =>
    if !isBreak c then ['-']
    else match r with
      | [] => ['+']
      | d :: _ => if isBreak d then ['+'] else []

/-- A literal block; its indentation is told when it would be guessed wrong. -/
def literalText (cs : List Char) : List Char :=
  let hint := if cs.head?.any fun c => c == ' ' || isBreak c then ['2'] else []
  '|' :: (hint ++ chompMark cs ++ '\n' :: indented true cs)

/-- The text of a scalar in a style. -/
def Style.write (cs : List Char) : Style → List Char
  | .plain => cs
  | .single =>
    indented false ('\'' :: cs.flatMap (fun c => if c = '\'' then ['\'', '\''] else [c]) ++ ['\''])
  | .double => '"' :: cs.flatMap escape ++ ['"']
  | .literal => literalText cs

def Scalar.write (s : Scalar) : List Char :=
  let cs := s.text.toList
  let wish : Style := match s.form with
    | .plain => .plain
    | _ => if cs.contains '\n' then .literal else .single
  (wish.fitting cs).write cs

/-- Whether a scalar may be a key on the line of its value. -/
def Scalar.isShort (s : Scalar) : Bool :=
  s.text.utf8ByteSize ≤ 128 && !s.text.toList.any breaksLine

/-- Whether a key may stand on the line of its value. -/
def isShortKey : Node → Bool
  | .scalar s => s.isShort
  | .sequence l => l.isEmpty
  | .mapping l => l.isEmpty
  | .loop => true

/-- The lines of a node after a mark of two columns. -/
def marked (v : Node) (lines : List Char) : List Char :=
  match v with
  | .scalar _ => lines
  | _ => indented false lines

/-- The lines of a node after the colon of its key. -/
def member (v : Node) (lines : List Char) : List Char :=
  match v with
  | .sequence (_ :: _) => '\n' :: lines
  | .mapping (_ :: _) => '\n' :: indented true lines
  | _ => ' ' :: lines

/-- An entry of a mapping from the lines of its key and of its value. -/
def entry (k v : Node) (key value : List Char) : List Char :=
  if isShortKey k then key.dropLast ++ ':' :: member v value
  else '?' :: ' ' :: marked k key ++ ':' :: ' ' :: marked v value

mutual

def render : Node → List Char
  | .scalar s => closed s.write
  | .sequence l => if l.isEmpty then ['[', ']', '\n'] else renderItems l
  | .mapping l => if l.isEmpty then ['\x7b', '\x7d', '\n'] else renderEntries l
  | .loop => ['\n']

def renderItems : List Node → List Char
  | [] => []
  | v :: vs => '-' :: ' ' :: marked v (render v) ++ renderItems vs

def renderEntries : List (Node × Node) → List Char
  | [] => []
  | (k, v) :: es => entry k v (render k) (render v) ++ renderEntries es

end

def Node.print (n : Node) : String := String.ofList (render n)

end Scriptorium.Yaml
