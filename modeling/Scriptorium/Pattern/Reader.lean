import Scriptorium.Pattern.Basic
import Scriptorium.Text.CharClass

/-!
# Reading patterns

The written form knows alternatives, groups with or without a name, repetitions with counts, flags
for the rest of a group, bracketed classes with set operations, class escapes and conditions.
References back and looking around are not part of it and are refused, as is a repetition of
nothing.  Without the flag for Unicode no set may reach beyond ASCII.  A pattern that is nested too
deep or that grows too large is refused as well.
-/

namespace Scriptorium.Pattern

/-- The flags in force. -/
structure Flags where
  fold : Bool := false
  multi : Bool := false
  dotAll : Bool := false
  crlf : Bool := false
  verbose : Bool := false
  unicode : Bool := true
  deriving Repr, DecidableEq, Inhabited

/-- What is left to read, the flags and the group names in use. -/
structure Source where
  rest : List Char
  flags : Flags := {}
  names : List String := []
  deriving Repr, DecidableEq, Inhabited

/-- Skips blanks and comments where the flags allow them. -/
def skipVerbose (fuel : Nat) (cs : List Char) : List Char :=
  match fuel with
  | 0 => cs
  | fuel + 1 =>
    match cs with
    | [] => []
    | c :: r =>
      if Text.isBlank c then skipVerbose fuel r
      else if c = '#' then skipVerbose fuel ((r.dropWhile (· ≠ '\n')).drop 1)
      else c :: r

/-- The source without blanks and comments at its front, where the flags allow them. -/
def Source.skip (s : Source) : Source :=
  if s.flags.verbose then { s with rest := skipVerbose s.rest.length s.rest } else s

/-- Characters with a meaning of their own. -/
def isMeta (c : Char) : Bool := "\\.+*?()|[]\x7b\x7d^$#&-~".toList.contains c

/-- Characters that a backslash may stand before without changing their meaning. -/
def isEscapable (c : Char) : Bool :=
  isMeta c || (Text.isAscii c && !c.isAlphanum && c != '<' && c != '>')

/-- What an escape stands for. -/
inductive Escape where
  | char (c : Char)
  | set (s : CharSet)
  | look (l : Look)
  deriving Repr, Inhabited

def scalar? (n : Nat) : Option Char :=
  if n < 0xD800 ∨ (0xE000 ≤ n ∧ n < 0x110000) then some (Char.ofNat n) else none

/-- The number of a list of hexadecimal digits. -/
def hexNumber? (cs : List Char) : Option Nat :=
  if cs.isEmpty then none
  else cs.foldlM (fun acc c => (Text.hexValue c).map (acc * 16 + ·)) 0

/-- Reads a character by number, the letter already taken; `width` digits or any in braces. -/
def readHexChar (width : Nat) (cs : List Char) : Option (Char × List Char) :=
  match cs with
  | '\x7b' :: r => do
    let ds := r.takeWhile (· ≠ '\x7d')
    let rest := r.dropWhile (· ≠ '\x7d')
    if rest.isEmpty then none
    else
      let c ← scalar? (← hexNumber? ds)
      some (c, rest.drop 1)
  | r => do
    if r.length < width then none
    else
      let c ← scalar? (← hexNumber? (r.take width))
      some (c, r.drop width)

def cutAt (sep : List Char) : List Char → Option (List Char × List Char)
  | [] => none
  | c :: r =>
    if (c :: r).take sep.length = sep then some ([], (c :: r).drop sep.length)
    else (cutAt sep r).map fun (b, a) => (c :: b, a)

/-- The set of a named class. -/
def namedSet? (name : List Char) : Option CharSet :=
  let keyed (k v : List Char) : Option CharSet :=
    (Text.keyedRanges? (String.ofList k) (String.ofList v)).map .listed
  match cutAt ['!', '='] name with
  | some (k, v) => (keyed k v).map .compl
  | none =>
    match cutAt [':'] name with
    | some (k, v) => keyed k v
    | none =>
      match cutAt ['='] name with
      | some (k, v) => keyed k v
      | none => (Text.classRanges? (String.ofList name)).map .listed

/-- Reads a named class, the letter already taken. -/
def readNamedSet (cs : List Char) : Option (CharSet × List Char) :=
  match cs with
  | [] => none
  | '\x7b' :: r =>
    let name := r.takeWhile (· ≠ '\x7d')
    match r.dropWhile (· ≠ '\x7d') with
    | [] => none
    | _ :: rest => (namedSet? name).map (·, rest)
  | c :: r => if c = '\\' then none else (namedSet? [c]).map (·, r)

def asciiSet : CharSet := .range 0 0x7F

/-- A set with every character that agrees with a member but for its case, as the flags want it. -/
def foldSet (flags : Flags) (s : CharSet) : CharSet :=
  if !flags.fold then s
  else if flags.unicode then .folded s
  else .union s (.inter (.folded (.inter s asciiSet)) asciiSet)

/-- A set as the flags want it: folded, then complemented.  Without Unicode no complement stays
within ASCII. -/
def finish (flags : Flags) (negated : Bool) (s : CharSet) : Option CharSet :=
  if !negated then some (foldSet flags s)
  else if flags.unicode then some (.compl (foldSet flags s))
  else none

/-- A class that has an ASCII form. -/
def perlSet (flags : Flags) (full : CharSet) : CharSet :=
  if flags.unicode then full else .inter full asciiSet

/-- The condition named in braces after a word boundary. -/
def boundaryNamed? (ascii : Bool) (name : List Char) : Option Look :=
  match String.ofList name with
  | "start" => some (.wordStart ascii)
  | "end" => some (.wordEnd ascii)
  | "start-half" => some (.wordStartHalf ascii)
  | "end-half" => some (.wordEndHalf ascii)
  | _ => none

/-- Reads what follows the letter of a word boundary. -/
def readBoundary (ascii : Bool) (cs : List Char) : Option (Escape × List Char) :=
  let named (c : Char) : Bool := c.isAlpha || c == '-'
  match cs with
  | ['\x7b'] => none
  | '\x7b' :: c :: r =>
    if named c then
      match (c :: r).dropWhile named with
      | '\x7d' :: rest =>
        (boundaryNamed? ascii ((c :: r).takeWhile named)).map fun l => (.look l, rest)
      | _ => none
    else some (.look (.boundary ascii), cs)
  | _ => some (.look (.boundary ascii), cs)

/-- Reads an escape, the backslash already taken. -/
def readEscape (flags : Flags) : List Char → Option (Escape × List Char)
  | [] => none
  | c :: r =>
    let ascii := !flags.unicode
    let set (full : CharSet) (negated : Bool) : Option (Escape × List Char) :=
      if negated && ascii then none
      else some (.set (if negated then .compl (perlSet flags full) else perlSet flags full), r)
    if c.isDigit then none
    else if c = 'x' then do
      let (d, rest) ← readHexChar 2 r
      if ascii ∧ r.head? ≠ some '\x7b' ∧ ¬ Text.isAscii d then none else some (.char d, rest)
    else if c = 'u' then (readHexChar 4 r).map fun (c, r) => (.char c, r)
    else if c = 'U' then (readHexChar 8 r).map fun (c, r) => (.char c, r)
    else if c = 'p' ∨ c = 'P' then do
      let (s, rest) ← readNamedSet r
      if ascii then none else some (.set (← finish flags (c == 'P') s), rest)
    else if c = 'd' then set .decimal false
    else if c = 'D' then set .decimal true
    else if c = 's' then set .blank false
    else if c = 'S' then set .blank true
    else if c = 'w' then set .word false
    else if c = 'W' then set .word true
    else if isEscapable c then some (.char c, r)
    else if c = 'a' then some (.char '\x07', r)
    else if c = 'f' then some (.char '\x0c', r)
    else if c = 't' then some (.char '\t', r)
    else if c = 'n' then some (.char '\n', r)
    else if c = 'r' then some (.char '\r', r)
    else if c = 'v' then some (.char '\x0b', r)
    else if c = 'A' then some (.look .textStart, r)
    else if c = 'z' then some (.look .textEnd, r)
    else if c = 'b' then readBoundary ascii r
    else if c = 'B' then some (.look (.noBoundary ascii), r)
    else if c = '<' then some (.look (.wordStart ascii), r)
    else if c = '>' then some (.look (.wordEnd ascii), r)
    else none

/-! ## Bracketed classes -/

/-- The classes that may be named inside brackets. -/
def asciiClass? (name : String) : Option CharSet :=
  let ranges (l : List (Nat × Nat)) : CharSet := .listed (l.map fun (a, b) => ⟨a, b⟩)
  match name with
  | "alnum" => some (ranges [(0x30, 0x39), (0x41, 0x5A), (0x61, 0x7A)])
  | "alpha" => some (ranges [(0x41, 0x5A), (0x61, 0x7A)])
  | "ascii" => some (ranges [(0, 0x7F)])
  | "blank" => some (ranges [(0x9, 0x9), (0x20, 0x20)])
  | "cntrl" => some (ranges [(0, 0x1F), (0x7F, 0x7F)])
  | "digit" => some (ranges [(0x30, 0x39)])
  | "graph" => some (ranges [(0x21, 0x7E)])
  | "lower" => some (ranges [(0x61, 0x7A)])
  | "print" => some (ranges [(0x20, 0x7E)])
  | "punct" => some (ranges [(0x21, 0x2F), (0x3A, 0x40), (0x5B, 0x60), (0x7B, 0x7E)])
  | "space" => some (ranges [(0x9, 0xD), (0x20, 0x20)])
  | "upper" => some (ranges [(0x41, 0x5A)])
  | "word" => some (ranges [(0x30, 0x39), (0x41, 0x5A), (0x5F, 0x5F), (0x61, 0x7A)])
  | "xdigit" => some (ranges [(0x30, 0x39), (0x41, 0x46), (0x61, 0x66)])
  | _ => none

/-- Reads a class name between colons, the bracket and the first colon already taken. -/
def readAsciiClass (flags : Flags) (cs : List Char) : Option (Option CharSet × List Char) :=
  let (negated, cs) := match cs with
    | '^' :: r => (true, r)
    | r => (false, r)
  let name := cs.takeWhile (· ≠ ':')
  match cs.dropWhile (· ≠ ':') with
  | ':' :: ']' :: rest =>
    (asciiClass? (String.ofList name)).map fun s => (finish flags negated s, rest)
  | _ => none

/-- A member of a bracketed class: a character or a set. -/
def readMember (flags : Flags) (cs : List Char) : Option (Escape × List Char) :=
  let read := match cs with
    | [] => none
    | '\\' :: r => readEscape flags r
    | c :: r => some (.char c, r)
  match read with
  | some (.char c, r) => if flags.unicode || Text.isAscii c then some (.char c, r) else none
  | some (.set s, r) => some (.set s, r)
  | some (.look _, _) | none => none

/-- Takes the leading hyphens of a class as characters. -/
def leadingHyphens (acc : Option CharSet) : List Char → Option CharSet × List Char
  | '-' :: r => leadingHyphens (some (.one '-')) r
  | r => (acc, r)

/-- A set operation that waits for its right side. -/
inductive SetOp where
  | inter | diff | symmDiff
  deriving Repr, DecidableEq

def applyOp (flags : Flags) (waiting : Option (SetOp × CharSet)) (right : CharSet) : CharSet :=
  match waiting with
  | none => right
  | some (.inter, left) => .inter (foldSet flags left) (foldSet flags right)
  | some (.diff, left) => .diff (foldSet flags left) (foldSet flags right)
  | some (.symmDiff, left) => .symmDiff (foldSet flags left) (foldSet flags right)

mutual
/-- Reads a bracketed class, the bracket already taken, and tells how deep brackets are nested. -/
def readClass : Nat → Source → Option (CharSet × Nat × Source)
  | 0, _ => none
  | fuel + 1, s =>
    let s := s.skip
    let (negated, s) := match s.rest with
      | '^' :: r => (true, ({ s with rest := r }).skip)
      | _ => (false, s)
    let (hyphen, rest) := leadingHyphens none s.rest
    let (start, rest) : CharSet × List Char := match hyphen, rest with
      | some h, r => (h, r)
      | none, ']' :: r => (.one ']', r)
      | none, r => (.none, r)
    match readClassItems fuel { s with rest := rest } none start 0 with
    | some (set, depth, s) => (finish s.flags negated set).map (·, depth + 1, s)
    | none => none

/-- Reads the members of a class up to its closing bracket. -/
def readClassItems : Nat → Source → Option (SetOp × CharSet) → CharSet → Nat →
    Option (CharSet × Nat × Source)
  | 0, _, _, _, _ => none
  | fuel + 1, s, waiting, acc, depth =>
    let s := s.skip
    match s.rest with
    | [] => none
    | ']' :: r => some (applyOp s.flags waiting acc, depth, { s with rest := r })
    | '&' :: '&' :: r =>
      readClassItems fuel { s with rest := r } (some (.inter, applyOp s.flags waiting acc)) .none
        depth
    | '-' :: '-' :: r =>
      readClassItems fuel { s with rest := r } (some (.diff, applyOp s.flags waiting acc)) .none
        depth
    | '~' :: '~' :: r =>
      readClassItems fuel { s with rest := r } (some (.symmDiff, applyOp s.flags waiting acc)) .none
        depth
    | '[' :: r =>
      let nested : Option (CharSet × Nat × Source) :=
        match r.head? == some ':', readAsciiClass s.flags (r.drop 1) with
        | true, some (some set, rest) => some (set, 0, { s with rest := rest })
        | true, some (none, _) => none
        | _, _ => readClass fuel { s with rest := r }
      match nested with
      | some (set, d, s) => readClassItems fuel s waiting (.union acc set) (max depth d)
      | none => none
    | cs =>
      match readMember s.flags cs with
      | none => none
      | some (first, rest) =>
        let s := ({ s with rest := rest }).skip
        let single : CharSet := match first with
          | .char c => .one c
          | .set t => t
          | .look _ => .none
        match s.rest with
        | '-' :: r =>
          let after := ({ s with rest := r }).skip
          match after.rest with
          | ']' :: _ | '-' :: _ => readClassItems fuel s waiting (.union acc single) depth
          | r =>
            match first, readMember s.flags r with
            | .char a, some (.char b, rest) =>
              if a.toNat ≤ b.toNat then
                readClassItems fuel { s with rest := rest } waiting
                  (.union acc (.range a.toNat b.toNat)) depth
              else none
            | _, _ => none
        | _ => readClassItems fuel s waiting (.union acc single) depth
end

/-! ## Repetitions and groups -/

/-- Reads a decimal number, with blanks around it. -/
def readCount (cs : List Char) : Option (Nat × List Char) :=
  let cs := cs.dropWhile Text.isBlank
  let ds := cs.takeWhile Char.isDigit
  let n := ds.foldl (fun acc c => acc * 10 + (c.toNat - '0'.toNat)) 0
  if ds.isEmpty ∨ 4294967295 < n then none
  else some (n, (cs.dropWhile Char.isDigit).dropWhile Text.isBlank)

/-- Reads the bounds of a counted repetition, the opening brace already taken. -/
def readBounds (s : Source) : Option (Nat × Option Nat × List Char) := do
  let (least, r) ← readCount s.skip.rest
  match r with
  | '\x7d' :: r => some (least, some least, r)
  | ',' :: r =>
    match ({ s with rest := r }).skip.rest with
    | '\x7d' :: r => some (least, none, r)
    | r => do
      let (most, r) ← readCount r
      match r with
      | '\x7d' :: r => if least ≤ most then some (least, some most, r) else none
      | _ => none
  | _ => none

/-- The rest without a sign that a repetition is reluctant. -/
def dropReluctant : List Char → List Char
  | '?' :: r => r
  | r => r

def setFlag (on : Bool) (f : Flags) (c : Char) : Option Flags :=
  match c with
  | 'i' => some { f with fold := on }
  | 'm' => some { f with multi := on }
  | 's' => some { f with dotAll := on }
  | 'R' => some { f with crlf := on }
  | 'x' => some { f with verbose := on }
  | 'u' => some { f with unicode := on }
  | 'U' => some f
  | _ => none

/-- Reads flags up to a colon or a closing bracket: the new flags, whether any was named, what ended
them, and the rest. -/
def readFlags (on : Bool) (seen : List Char) (pending : Bool) (f : Flags) :
    List Char → Option (Flags × Bool × Char × List Char)
  | [] => none
  | c :: r =>
    if c = ':' ∨ c = ')' then
      if pending then none else some (f, !seen.isEmpty, c, r)
    else if c = '-' then if on then readFlags false seen true f r else none
    else if c ∈ seen then none
    else match setFlag on f c with
      | some f => readFlags on (c :: seen) false f r
      | none => none

/-- Whether a character may stand in a group name. -/
def isNameChar (first : Bool) (c : Char) : Bool :=
  c == '_' || (Text.isWord c && !(first && Text.isDecimal c)) ||
    (!first && (c == '.' || c == '[' || c == ']'))

/-- Reads a group name and the bracket after it. -/
def readName (cs : List Char) : Option (String × List Char) :=
  let name := cs.takeWhile (· ≠ '>')
  match name, cs.dropWhile (· ≠ '>') with
  | c :: r, _ :: rest =>
    if isNameChar true c && r.all (isNameChar false) then some (String.ofList name, rest) else none
  | _, _ => none

/-- The set of any character, without line ends unless the flags include them. -/
def anySet (f : Flags) : CharSet :=
  if f.dotAll then .range 0 0x10FFFF
  else if f.crlf then .compl (.union (.one '\n') (.one '\r'))
  else .compl (.one '\n')

def literal (f : Flags) (c : Char) : Pattern := .chars (foldSet f (.one c))

/-- A part of a pattern, and how deep its own parts are nested. -/
structure Item where
  pattern : Pattern
  height : Nat := 0
  deriving Repr, DecidableEq, Inhabited

/-- The items of a branch so far: those before the last as one pattern, the last one, to which a
repetition would apply, the number of all, and the height of the tallest before the last. -/
structure Branch where
  done : Pattern := .empty
  last : Option Item := none
  items : Nat := 0
  tallest : Nat := 0
  deriving Repr, DecidableEq, Inhabited

namespace Branch

/-- A branch whose last item is final. -/
def settled (b : Branch) : Branch :=
  match b.last with
  | none => b
  | some i => { b with done := .seq b.done i.pattern, last := none, tallest := max b.tallest i.height }

/-- A branch with one more item; flags are an item that cannot be repeated. -/
def push (b : Branch) (i : Option Item) : Branch := { b.settled with last := i, items := b.items + 1 }

/-- A branch whose last item is repeated. -/
def again (b : Branch) (least : Nat) (most : Option Nat) : Option Branch :=
  b.last.map fun i => { b with last := some ⟨.repeated i.pattern least most, i.height + 1⟩ }

/-- A branch as one item. -/
def item (b : Branch) : Item :=
  ⟨b.settled.done, if b.items ≤ 1 then b.settled.tallest else b.settled.tallest + 1⟩

end Branch

mutual
/-- Reads alternatives up to a closing bracket or the end; the height is that of the tallest. -/
def readAlternatives : Nat → Source → Option (Item × Source)
  | 0, _ => none
  | fuel + 1, s =>
    match readBranch fuel s {} with
    | none => none
    | some (i, s) =>
      match s.rest with
      | '|' :: r =>
        match readAlternatives fuel { s with rest := r } with
        | some (j, s) => some (⟨.alt i.pattern j.pattern, max i.height j.height⟩, s)
        | none => none
      | _ => some (i, s)

def readBranch : Nat → Source → Branch → Option (Item × Source)
  | 0, _, _ => none
  | fuel + 1, s, b =>
    let s := s.skip
    let push (p : Pattern) (rest : List Char) : Option (Item × Source) :=
      readBranch fuel { s with rest := rest } (b.push (some ⟨p, 0⟩))
    let again (least : Nat) (most : Option Nat) (rest : List Char) : Option (Item × Source) :=
      match b.again least most with
      | some b => readBranch fuel { s with rest := dropReluctant rest } b
      | none => none
    match s.rest with
    | [] => some (b.item, s)
    | ')' :: _ => some (b.item, s)
    | '|' :: _ => some (b.item, s)
    | '*' :: r => again 0 none r
    | '+' :: r => again 1 none r
    | '?' :: r => again 0 (some 1) r
    | '\x7b' :: r =>
      match readBounds { s with rest := r } with
      | some (least, most, r) => again least most r
      | none => none
    | '^' :: r => push (.look (if s.flags.multi then .lineStart s.flags.crlf else .textStart)) r
    | '$' :: r => push (.look (if s.flags.multi then .lineEnd s.flags.crlf else .textEnd)) r
    | '.' :: r => if s.flags.unicode then push (.chars (anySet s.flags)) r else none
    | '[' :: r =>
      match readClass fuel { s with rest := r } with
      | some (set, depth, s) => readBranch fuel s (b.push (some ⟨.chars set, depth⟩))
      | none => none
    | '\\' :: r =>
      match readEscape s.flags r with
      | some (.char c, r) => push (literal s.flags c) r
      | some (.set t, r) => push (.chars t) r
      | some (.look l, r) => push (.look l) r
      | none => none
    | '(' :: r =>
      match readGroup fuel { s with rest := r } with
      | some (i, s) => readBranch fuel s (b.push i)
      | none => none
    | c :: r => push (literal s.flags c) r

/-- Reads a group, the bracket already taken; flags for the rest of the group around it are no
item. -/
def readGroup : Nat → Source → Option (Option Item × Source)
  | 0, _ => none
  | fuel + 1, s =>
    let outer := s.flags
    let inside (s : Source) : Option (Option Item × Source) :=
      match readAlternatives fuel s with
      | some (i, s) =>
        match s.rest with
        | ')' :: r => some (some { i with height := i.height + 1 }, { s with rest := r, flags := outer })
        | _ => none
      | none => none
    let named (r : List Char) : Option (Option Item × Source) :=
      match readName r with
      | some (name, r) =>
        if name ∈ s.names then none else inside { s with rest := r, names := name :: s.names }
      | none => none
    match s.skip.rest with
    | '?' :: 'P' :: '<' :: r => named r
    | '?' :: '<' :: '=' :: _ => none
    | '?' :: '<' :: '!' :: _ => none
    | '?' :: '<' :: r => named r
    | '?' :: r =>
      match readFlags true [] false s.flags r with
      | some (f, any, ')', r) => if any then some (none, { s with rest := r, flags := f }) else none
      | some (f, _, _, r) => inside { s with rest := r, flags := f }
      | none => none
    | r => inside { s with rest := r }
end

/-- How deep a pattern may be nested. -/
def heightLimit : Nat := 250

/-- How large a pattern may be. -/
def weightLimit : Nat := 10 * Nat.pow 2 20

/-- The pattern that a text writes. -/
def ofText? (s : String) : Option Pattern :=
  let cs := s.toList
  match readAlternatives (4 * cs.length + 4) { rest := cs } with
  | some (i, s) =>
    if s.rest.isEmpty ∧ i.height ≤ heightLimit ∧ i.pattern.weight ≤ weightLimit then some i.pattern
    else none
  | none => none

end Scriptorium.Pattern
