import Scriptorium.Yaml.Spot
import Scriptorium.Text.CodeRange

/-!
# Scalars

The five ways to write a text: plain, in single quotes, in double quotes with escapes, as a literal
block and as a folded block.  Each reader is given the characters after the opening mark and tells
the text and what follows it.
-/

namespace Scriptorium.Yaml

/-- How a scalar was written, as far as that matters for its meaning. -/
inductive Form where
  | plain | quoted | literal
  deriving Repr, DecidableEq, Inhabited

/-- Reads a plain scalar at an indentation: its text, whether a break was the last thing read, and
the rest.  It ends before a comment, a colon that ends a word, a marker, a line that is indented
less, and inside brackets before a bracket or a comma. -/
def readPlain (flow : Bool) (indent : Int) (gap : Gap) :
    List Spot → Option (List Char × Bool × List Spot)
  | [] => some ([], gap.broken, [])
  | s :: r =>
    if isSpaceOrTab s.char then
      if gap.broken ∧ s.char = '\t' ∧ (s.column : Int) < indent then none
      else readPlain flow indent (gap.addBlank s.char) r
    else if isBreak s.char then readPlain flow indent (gap.addBreak s.char) r
    else
      let stop := some ([], gap.broken, s :: r)
      if !gap.isEmpty && (s.char == '#' || atMarker (s :: r)) then stop
      else if gap.broken ∧ !flow ∧ (s.column : Int) < indent then stop
      else if flow && s.char == ':' && r.head?.any fun t => t.char ∈ [',', '?', '[', ']', '\x7b', '\x7d']
      then none
      else if s.char == ':' && endsWord r then stop
      else if flow && s.char ∈ [',', '[', ']', '\x7b', '\x7d'] then stop
      else (readPlain flow indent .none r).map fun (text, rest) =>
        (gap.text ++ s.char :: text, rest)

/-- Reads a scalar in single quotes; a quote in it is written twice. -/
def readSingle (gap : Gap) : List Spot → Option (List Char × List Spot)
  | [] => none
  | s :: r =>
    if isSpaceOrTab s.char then readSingle (gap.addBlank s.char) r
    else if isBreak s.char then readSingle (gap.addBreak s.char) r
    else if atMarker (s :: r) then none
    else if s.char = '\'' then
      match r with
      | t :: r' =>
        if t.char = '\'' then
          (readSingle .none r').map fun (text, rest) => (gap.text ++ '\'' :: text, rest)
        else some (gap.text, r)
      | [] => some (gap.text, [])
    else (readSingle .none r).map fun (text, rest) => (gap.text ++ s.char :: text, rest)

/-- The character of a number of hexadecimal digits. -/
def charOfHex? (ss : List Spot) (width : Nat) : Option Char := do
  let ds := ss.take width
  if ds.length < width then none
  else
    let n ← ds.foldlM (fun acc s => (Text.hexValue s.char).map (acc * 16 + ·)) 0
    if h : n.isValidChar then some (Char.ofNatAux n h) else none

/-- The character that an escape stands for, and how many characters follow the backslash. -/
def escaped? : List Spot → Option (Char × Nat)
  | [] => none
  | s :: r =>
    match s.char with
    | '0' => some ('\x00', 1)
    | 'a' => some ('\x07', 1)
    | 'b' => some ('\x08', 1)
    | 't' | '\t' => some ('\t', 1)
    | 'n' => some ('\n', 1)
    | 'v' => some ('\x0b', 1)
    | 'f' => some ('\x0c', 1)
    | 'r' => some ('\r', 1)
    | 'e' => some ('\x1b', 1)
    | ' ' => some (' ', 1)
    | '"' => some ('"', 1)
    | '/' => some ('/', 1)
    | '\\' => some ('\\', 1)
    | 'N' => some ('\u0085', 1)
    | '_' => some ('\u00a0', 1)
    | 'L' => some ('\u2028', 1)
    | 'P' => some ('\u2029', 1)
    | 'x' => (charOfHex? r 2).map fun c => (c, 3)
    | 'u' => (charOfHex? r 4).map fun c => (c, 5)
    | 'U' => (charOfHex? r 8).map fun c => (c, 9)
    | _ => none

/-- Reads a scalar in double quotes; an escaped break joins two lines without a space. -/
def readDouble (gap : Gap) (ss : List Spot) : Option (List Char × List Spot) :=
  match ss with
  | [] => none
  | s :: r =>
    if isSpaceOrTab s.char then readDouble (gap.addBlank s.char) r
    else if isBreak s.char then readDouble (gap.addBreak s.char) r
    else if atMarker (s :: r) then none
    else if s.char = '"' then some (gap.text, r)
    else if s.char = '\\' then
      if r.head?.any fun t => isBreak t.char then
        (readDouble { broken := true } (r.drop 1)).map fun (text, rest) => (gap.text ++ text, rest)
      else match escaped? r with
        | none => none
        | some (c, n) =>
          (readDouble .none (r.drop n)).map fun (text, rest) => (gap.text ++ c :: text, rest)
    else (readDouble .none r).map fun (text, rest) => (gap.text ++ s.char :: text, rest)
  termination_by ss.length

/-! ## Blocks -/

/-- What becomes of the breaks at the end of a block. -/
inductive Chomp where
  | strip | clip | keep
  deriving Repr, DecidableEq, Inhabited

/-- Reads the mark for the breaks at the end, if there is one. -/
def readChomp : List Spot → Chomp × List Spot
  | s :: r =>
    if s.char = '+' then (.keep, r) else if s.char = '-' then (.strip, r) else (.clip, s :: r)
  | [] => (.clip, [])

/-- Reads a digit that tells the indentation, if there is one; it is not zero. -/
def readIndentDigit : List Spot → Option (Nat × List Spot)
  | s :: r =>
    if s.char.isDigit then
      if s.char = '0' then none else some (s.char.toNat - '0'.toNat, r)
    else some (0, s :: r)
  | [] => some (0, [])

/-- Reads the first line of a block: chomping and indentation in either order, then perhaps a
comment. -/
def readBlockHeader (ss : List Spot) : Option (Chomp × Nat × List Spot) := do
  let (chomp, r) := readChomp ss
  let (digit, r) ← readIndentDigit r
  let (chomp, r) := if chomp = .clip ∧ digit ≠ 0 then readChomp r else (chomp, r)
  let r := dropSpaces r
  let r := if nextIs '#' r then dropLine r else r
  if endsLine r then some (chomp, digit, r.drop 1) else none

/-- Reads empty lines and the indentation of the line after them: the breaks, the widest
indentation and the rest.  With indentation zero all spaces count as indentation. -/
def readEmptyLines (indent : Nat) : List Spot → Option (List Char × Nat × List Spot)
  | [] => some ([], 0, [])
  | s :: r =>
    let open_ : Bool := indent == 0 || s.column < indent
    if open_ && s.char == ' ' then
      (readEmptyLines indent r).map fun (breaks, widest, rest) =>
        (breaks, max (s.column + 1) widest, rest)
    else if open_ && s.char == '\t' then none
    else if isBreak s.char then
      (readEmptyLines indent r).map fun (breaks, widest, rest) => (s.char :: breaks, widest, rest)
    else some ([], 0, s :: r)

/-- Reads the lines of a block: its text, the break after its last line, the breaks after that one
and the rest.  `lead` is the break before the line, `breaks` those of the empty lines before it,
and `after` says whether the line before began with a blank; `fuel` bounds the lines. -/
def readBlockLines (folded : Bool) (indent : Nat) :
    Nat → List Char → List Char → Bool → List Spot →
      Option (List Char × List Char × List Char × List Spot)
  | 0, lead, breaks, _, ss => some ([], lead, breaks, ss)
  | fuel + 1, lead, breaks, after, ss =>
    match ss with
    | [] => some ([], lead, breaks, [])
    | s :: _ =>
      if s.column ≠ indent then some ([], lead, breaks, ss)
      else
        let begins := isSpaceOrTab s.char
        let joint :=
          if folded && lead == ['\n'] && !after && !begins then
            (if breaks.isEmpty then [' '] else [])
          else lead
        let line := (ss.takeWhile fun t => !isBreak t.char).map (·.char)
        let rest := dropLine ss
        let lead' := (rest.take 1).map (·.char)
        match readEmptyLines indent (rest.drop 1) with
        | none => none
        | some (breaks', _, rest) =>
          (readBlockLines folded indent fuel lead' breaks' begins rest).map
            fun (text, ends) => (joint ++ breaks ++ line ++ text, ends)

/-- Reads a block inside a node of an indentation. -/
def readBlock (folded : Bool) (outer : Int) (ss : List Spot) : Option (List Char × List Spot) := do
  let (chomp, digit, r) ← readBlockHeader ss
  let given : Nat := if digit = 0 then 0 else (max outer 0).toNat + digit
  let (breaks, widest, r) ← readEmptyLines given r
  let indent := if given = 0 then max (max widest (outer + 1).toNat) 1 else given
  let (text, last, more, rest) ← readBlockLines folded indent (r.length + 1) [] breaks false r
  let ends := match chomp with
    | .strip => []
    | .clip => last
    | .keep => last ++ more
  some (text ++ ends, rest)

end Scriptorium.Yaml
