import Scriptorium.Yaml.Scalar

/-!
# Tokens of YAML texts

Indentation becomes tokens: a block opens where a line is indented deeper than the one around it
and closes where a line is indented less.  A scalar that turns out to be a key, because a colon
follows it on its line, gets a `key` token in front after the fact; `Scan.keys` remembers for every
nesting of brackets where such a token would go.
-/

namespace Scriptorium.Yaml

inductive Token where
  | version (major minor : Nat)
  | tagHandle (handle : String) (meaning : String)
  | documentStart
  | documentEnd
  | sequenceStart
  | mappingStart
  | blockEnd
  | openBracket
  | closeBracket
  | openBrace
  | closeBrace
  | comma
  | entry
  | key
  | value
  | alias (name : String)
  | anchor (name : String)
  | tag (handle suffix : String)
  | scalar (form : Form) (text : String)
  deriving Repr, DecidableEq, Inhabited

/-- Where a key would begin: the number of its first token and its place.  A key at the indentation
of its mapping must turn out to be one. -/
structure KeyStart where
  token : Nat
  offset : Nat
  line : Nat
  column : Nat
  required : Bool
  deriving Repr, DecidableEq, Inhabited

/-- What is known while tokens are read. -/
structure Scan where
  tokens : List Token := []
  /-- Possible keys, one for each bracket that is open and one for the text around them. -/
  keys : List (Option KeyStart) := [none]
  /-- Indentations of the blocks around the innermost one. -/
  outer : List Int := []
  indent : Int := -1
  keyAllowed : Bool := true
  deriving Repr, Inhabited

namespace Scan

/-- Whether a bracket is open. -/
def inFlow (s : Scan) : Bool := 1 < s.keys.length

def push (s : Scan) (t : Token) : Scan := { s with tokens := s.tokens ++ [t] }

/-- Puts a token before others that were read already. -/
def insertAt (s : Scan) (n : Nat) (t : Token) : Scan :=
  { s with tokens := s.tokens.take n ++ t :: s.tokens.drop n }

/-- Allows or forbids a key at the next token. -/
def allowKey (s : Scan) (b : Bool) : Scan := { s with keyAllowed := b }

/-- Forgets the possible key of this nesting, unless it is required. -/
def dropKey (s : Scan) : Option Scan :=
  match s.keys with
  | some k :: r => if k.required then none else some { s with keys := none :: r }
  | _ => some s

/-- Remembers that a key may begin here. -/
def markKey (s : Scan) (here : Spot) : Option Scan :=
  if s.keyAllowed then do
    let s ← s.dropKey
    let k : KeyStart := ⟨s.tokens.length, here.offset, here.line, here.column,
      !s.inFlow && s.indent == here.column⟩
    some { s with keys := some k :: s.keys.drop 1 }
  else some s

/-- Whether a key that began somewhere may still be completed here: it is short and on one line. -/
def inReach (here : Spot) (k : KeyStart) : Bool :=
  k.line == here.line && here.offset ≤ k.offset + 1024

/-- Forgets the possible keys that can no longer be completed. -/
def dropStale (s : Scan) (here : Spot) : Option Scan := do
  let keys ← s.keys.mapM fun k =>
    match k with
    | none => some none
    | some k =>
      if inReach here k then some (some k) else if k.required then none else some none
  some { s with keys := keys }

/-- Opens a block that is indented deeper, before token `n`. -/
def openBlock (s : Scan) (column : Nat) (n : Nat) (t : Token) : Scan :=
  if s.inFlow ∨ (column : Int) ≤ s.indent then s
  else { s.insertAt n t with outer := s.indent :: s.outer, indent := column }

/-- Closes the blocks that are indented deeper than a column, given the blocks around. -/
def closeBlocks (s : Scan) (column : Int) : List Int → Scan
  | [] => s
  | i :: r =>
    if column < s.indent then
      closeBlocks { s.push .blockEnd with outer := r, indent := i } column r
    else s

/-- Closes blocks where a line is indented less; inside brackets indentation does not count. -/
def dedent (s : Scan) (column : Int) : Scan :=
  if s.inFlow then s else s.closeBlocks column s.outer

/-- Reads a token that cannot be a key and closes all blocks. -/
def topLevel (s : Scan) (t : Token) : Option Scan := do
  return ((← (s.dedent (-1)).dropKey).allowKey false).push t

def openFlow (s : Scan) (here : Spot) (t : Token) : Option Scan := do
  let s ← s.markKey here
  return ({ s with keys := none :: s.keys }.allowKey true).push t

def closeFlow (s : Scan) (t : Token) : Option Scan := do
  let s ← s.dropKey
  let s := if s.inFlow then { s with keys := s.keys.drop 1 } else s
  return (s.allowKey false).push t

def comma (s : Scan) : Option Scan := do return ((← s.dropKey).allowKey true).push .comma

def entry (s : Scan) (here : Spot) : Option Scan :=
  if !s.inFlow && !s.keyAllowed then none
  else do
    let s := s.openBlock here.column s.tokens.length .sequenceStart
    return ((← s.dropKey).allowKey true).push .entry

/-- Reads the question mark of a key. -/
def explicitKey (s : Scan) (here : Spot) : Option Scan :=
  if !s.inFlow && !s.keyAllowed then none
  else do
    let s := s.openBlock here.column s.tokens.length .mappingStart
    let s ← s.dropKey
    return (s.allowKey !s.inFlow).push .key

/-- Reads the colon of a value: it completes a possible key. -/
def value (s : Scan) (here : Spot) : Option Scan :=
  match s.keys with
  | some k :: r =>
    let s := { s.insertAt k.token .key with keys := none :: r }
    some (((s.openBlock k.column k.token .mappingStart).allowKey false).push .value)
  | _ =>
    if !s.inFlow && !s.keyAllowed then none
    else
      let s := s.openBlock here.column s.tokens.length .mappingStart
      some ((s.allowKey !s.inFlow).push .value)

/-- Reads a token that may be or begin a key. -/
def simple (s : Scan) (here : Spot) (t : Token) : Option Scan := do
  return ((← s.markKey here).allowKey false).push t

end Scan

/-! ## Names, tags and directives -/

/-- The leading characters that satisfy a condition, and the rest. -/
def spanChars (p : Char → Bool) (ss : List Spot) : List Char × List Spot :=
  ((ss.takeWhile fun s => p s.char).map (·.char), ss.dropWhile fun s => p s.char)

/-- Reads the name of an anchor or an alias. -/
def readAnchor (ss : List Spot) : Option (String × List Spot) :=
  let (name, r) := spanChars isNameChar ss
  let ended := endsWord r || r.head?.any fun s =>
    s.char ∈ ['?', ':', ',', ']', '\x7d', '%', '@', '\x60']
  if name.isEmpty || !ended then none else some (String.ofList name, r)

/-- Whether a character may stand in a tag; commas and brackets only in its long form. -/
def isTagChar (long : Bool) (c : Char) : Bool :=
  isNameChar c || c ∈ [';', '/', '?', ':', '@', '&', '=', '+', '$', '.', '%', '!', '~', '*', '\'',
    '(', ')'] || (long && c ∈ [',', '[', ']'])

/-- The byte of an escape in a tag. -/
def tagByte? : List Char → Option (Nat × List Char)
  | '%' :: a :: b :: r => do some ((← Text.hexValue a) * 16 + (← Text.hexValue b), r)
  | _ => none

/-- The characters of a tag with its escapes resolved; every escape is a byte of a character. -/
def unescapeTag : Nat → List Char → Option (List UInt8)
  | 0, _ => some []
  | _, [] => some []
  | fuel + 1, c :: r =>
    if c = '%' then do
      let (b, r) ← tagByte? (c :: r)
      some (UInt8.ofNat b :: (← unescapeTag fuel r))
    else do some ((String.singleton c).toUTF8.toList ++ (← unescapeTag fuel r))

def tagText? (cs : List Char) : Option String := do
  let bytes ← unescapeTag (cs.length + 1) cs
  String.fromUTF8? (ByteArray.mk bytes.toArray)

/-- Reads a tag after its exclamation mark. -/
def readTag (flow : Bool) : List Spot → Option (Token × List Spot)
  | ss => do
    let (token, r) ←
      if nextIs '<' ss then do
        let (body, r) := spanChars (isTagChar true) (ss.drop 1)
        if body.isEmpty || !nextIs '>' r then none
        else some (Token.tag "" (← tagText? body), r.drop 1)
      else
        let (name, r) := spanChars isNameChar ss
        if nextIs '!' r then do
          let (body, r) := spanChars (isTagChar false) (r.drop 1)
          if body.isEmpty then none
          else some (Token.tag ("!" ++ String.ofList name ++ "!") (← tagText? body), r)
        else do
          let (body, r) := spanChars (isTagChar false) r
          let suffix ← tagText? (name ++ body)
          some (if suffix = "" then Token.tag "" "!" else Token.tag "!" suffix, r)
    if endsWord r || (flow && nextIs ',' r) then some (token, r) else none

/-- Reads a number of a directive. -/
def readVersionNumber (ss : List Spot) : Option (Nat × List Spot) :=
  let (ds, r) := spanChars Char.isDigit ss
  if ds.isEmpty || 9 < ds.length then none
  else some (ds.foldl (fun n c => n * 10 + (c.toNat - '0'.toNat)) 0, r)

/-- Reads the handle of a directive. -/
def readHandle (ss : List Spot) : Option (String × List Spot) :=
  if !nextIs '!' ss then none
  else
    let (name, r) := spanChars isNameChar (ss.drop 1)
    if nextIs '!' r then some ("!" ++ String.ofList name ++ "!", r.drop 1)
    else if name.isEmpty then some ("!", r)
    else none

/-- Reads a directive after its percent sign. -/
def readDirective (ss : List Spot) : Option (Token × List Spot) := do
  let (name, r) := spanChars isNameChar ss
  if !endsWord r then none
  else
    let (token, r) ←
      match String.ofList name with
      | "YAML" => do
        let (major, r) ← readVersionNumber (dropSpaces r)
        if !nextIs '.' r then none
        else
          let (minor, r) ← readVersionNumber (r.drop 1)
          some (Token.version major minor, r)
      | "TAG" => do
        let (handle, r) ← readHandle (dropSpaces r)
        if !(r.head?.any fun s => isSpaceOrTab s.char) then none
        else
          let (body, r) := spanChars (isTagChar true) (dropSpaces r)
          if body.isEmpty || !endsWord r then none
          else some (Token.tagHandle handle (← tagText? body), r)
      | _ => none
    let r := dropSpaces r
    let r := if nextIs '#' r then dropLine r else r
    if endsLine r then some (token, r.drop 1) else none

/-! ## The tokens of a text -/

/-- Skips blanks, comments, breaks and a mark of the byte order that begins a line; `comment` says
whether a comment has begun.  A break allows a key again, and a tab is indentation where a key may
begin. -/
def skipFrom (comment : Bool) (s : Scan) : List Spot → Scan × List Spot
  | [] => (s, [])
  | c :: r =>
    if isBreak c.char then skipFrom false (if s.inFlow then s else s.allowKey true) r
    else if comment ∨ c.char = ' ' ∨ (c.char = '\t' ∧ (s.inFlow ∨ !s.keyAllowed))
        ∨ (c.char = '\ufeff' ∧ c.column = 0) then skipFrom comment s r
    else if c.char = '#' then skipFrom true s r
    else (s, c :: r)

def skipToToken (s : Scan) (ss : List Spot) : Scan × List Spot := skipFrom false s ss

/-- Whether a plain scalar may begin here. -/
def startsPlain (flow : Bool) (c : Char) (r : List Spot) : Bool :=
  if c = '-' then !(r.head?.any fun s => isSpaceOrTab s.char)
  else if c = '?' ∨ c = ':' then !flow && !endsWord r
  else !(isSpaceOrTab c || isBreak c ||
    c ∈ [',', '[', ']', '\x7b', '\x7d', '#', '&', '*', '!', '|', '>', '\'', '"', '%', '@', '\x60'])

/-- Reads a scalar that is not a block: its reader, then its token. -/
def readScalar (s : Scan) (c : Spot) (r : List Spot) : Option (Scan × List Spot) := do
  if c.char = '\'' then
    let (text, rest) ← readSingle .none r
    return (← s.simple c (.scalar .quoted (String.ofList text)), rest)
  else if c.char = '"' then
    let (text, rest) ← readDouble .none r
    return (← s.simple c (.scalar .quoted (String.ofList text)), rest)
  else if startsPlain s.inFlow c.char r then
    let (text, broken, rest) ← readPlain s.inFlow (s.indent + 1) .none (c :: r)
    let s ← s.simple c (.scalar .plain (String.ofList text))
    return (if broken then s.allowKey true else s, rest)
  else none

/-- Reads the token that begins here. -/
def readToken (s : Scan) (c : Spot) (r : List Spot) : Option (Scan × List Spot) :=
  let flow := s.inFlow
  if c.column = 0 ∧ c.char = '%' then do
    let (t, rest) ← readDirective r
    return (← s.topLevel t, rest)
  else if isMarker '-' (c :: r) then do return (← s.topLevel .documentStart, r.drop 2)
  else if isMarker '.' (c :: r) then do return (← s.topLevel .documentEnd, r.drop 2)
  else if c.char = '[' then do return (← s.openFlow c .openBracket, r)
  else if c.char = '\x7b' then do return (← s.openFlow c .openBrace, r)
  else if c.char = ']' then do return (← s.closeFlow .closeBracket, r)
  else if c.char = '\x7d' then do return (← s.closeFlow .closeBrace, r)
  else if c.char = ',' then do return (← s.comma, r)
  else if c.char = '-' ∧ endsWord r then do return (← s.entry c, r)
  else if c.char = '?' ∧ (flow ∨ endsWord r) then do return (← s.explicitKey c, r)
  else if c.char = ':' ∧ (flow ∨ endsWord r) then do return (← s.value c, r)
  else if c.char = '*' then do
    let (name, rest) ← readAnchor r
    return (← s.simple c (.alias name), rest)
  else if c.char = '&' then do
    let (name, rest) ← readAnchor r
    return (← s.simple c (.anchor name), rest)
  else if c.char = '!' then do
    let (t, rest) ← readTag flow r
    return (← s.simple c t, rest)
  else if !flow ∧ (c.char = '|' ∨ c.char = '>') then do
    let folded := c.char == '>'
    let (text, rest) ← readBlock folded s.indent r
    let form := if folded then Form.quoted else .literal
    return (((← s.dropKey).allowKey true).push (.scalar form (String.ofList text)), rest)
  else readScalar s c r

/-- Reads all tokens; every round reads one, so `fuel` is the number of characters. -/
def readTokens : Nat → Scan → List Spot → Option (List Token)
  | 0, _, _ => none
  | fuel + 1, s, ss =>
    match skipToToken s ss with
    | (s, []) => do return (← (s.dedent (-1)).dropKey).tokens
    | (s, c :: r) => do
      let s ← s.dropStale c
      let (s, rest) ← readToken (s.dedent c.column) c r
      readTokens fuel s rest

def tokens? (text : String) : Option (List Token) := do
  let ss ← spots? text
  readTokens (ss.length + 1) {} ss

end Scriptorium.Yaml
