import Scriptorium.Json.Basic
import Scriptorium.Number.Literal
import Scriptorium.Text.CodeRange

/-!
# Reading JSON

The reader takes one value from the front of a list of characters and returns it with the rest.
Only the four ASCII blanks separate tokens, control characters may not stand in a quoted text, an
escaped surrogate needs its partner, and containers nest at most 127 deep.  A number without a
fraction or an exponent is an integer when it fits into 64 bits; every other number keeps as many
digits as fit into 64 bits and is scaled by a power of ten once.
-/

namespace Scriptorium.Json

/-- Containers nest less deep than this. -/
def depthLimit : Nat := 128

/-- The four blanks of the format. -/
def isSpace (c : Char) : Bool := c == ' ' || c == '\n' || c == '\t' || c == '\r'

def skipSpace (cs : List Char) : List Char := cs.dropWhile isSpace

def digitValue (c : Char) : Nat := c.toNat - '0'.toNat

/-- The largest number of 64 bits. -/
def wordMax : Nat := 18446744073709551615

/-- Takes digits while the number fits into 64 bits, and counts them. -/
def takeDigits (acc count : Nat) : List Char → Nat × Nat × List Char
  | [] => (acc, count, [])
  | c :: r =>
    if c.isDigit && acc * 10 + digitValue c ≤ wordMax then
      takeDigits (acc * 10 + digitValue c) (count + 1) r
    else (acc, count, c :: r)

/-- Drops digits and counts them. -/
def dropDigits (count : Nat) : List Char → Nat × List Char
  | [] => (count, [])
  | c :: r => if c.isDigit then dropDigits (count + 1) r else (count, c :: r)

def digitsValue (ds : List Char) : Nat := ds.foldl (fun acc c => acc * 10 + digitValue c) 0

/-- A real number from its digits, or nothing beyond the largest. -/
def makeReal (negative : Bool) (digits : Nat) (exponent : Int) : Option JsonNumber :=
  (Number.scaled digits exponent).map fun p => .real ⟨negative, p⟩

/-- The number with an exponent that is written with some digits. -/
def scaleBy (negative : Bool) (digits : Nat) (exponent : Int) (down : Bool) (ds : List Char) :
    Option JsonNumber :=
  if ds.isEmpty then none
  else
    let e := digitsValue ds
    if 2147483647 < e then if digits ≠ 0 ∧ ¬ down then none else some (.real ⟨negative, 0⟩)
    else makeReal negative digits (if down then exponent - e else exponent + e)

/-- Reads the digits of an exponent, its sign already taken. -/
def readPower (negative : Bool) (digits : Nat) (exponent : Int) (down : Bool) (cs : List Char) :
    Option (JsonNumber × List Char) :=
  (scaleBy negative digits exponent down (cs.takeWhile Char.isDigit)).map
    (·, cs.dropWhile Char.isDigit)

/-- Reads an exponent, the letter already taken. -/
def readExponent (negative : Bool) (digits : Nat) (exponent : Int) :
    List Char → Option (JsonNumber × List Char)
  | '+' :: r => readPower negative digits exponent false r
  | '-' :: r => readPower negative digits exponent true r
  | r => readPower negative digits exponent false r

/-- Reads what may follow the digits of a real number: an exponent. -/
def readTail (negative : Bool) (digits : Nat) (exponent : Int) (cs : List Char) :
    Option (JsonNumber × List Char) :=
  match cs with
  | c :: r =>
    if c = 'e' ∨ c = 'E' then readExponent negative digits exponent r
    else (makeReal negative digits exponent).map (·, cs)
  | [] => (makeReal negative digits exponent).map (·, cs)

/-- Reads the digits after the point. -/
def readFraction (negative : Bool) (digits : Nat) (exponent : Int) (cs : List Char) :
    Option (JsonNumber × List Char) :=
  let (digits, kept, rest) := takeDigits digits 0 cs
  let (dropped, rest) := dropDigits 0 rest
  if kept + dropped = 0 then none else readTail negative digits (exponent - kept) rest

/-- An integer; a negative one below the signed range, and minus zero, are real. -/
def integer (negative : Bool) (digits : Nat) : JsonNumber :=
  if !negative then .natural digits
  else if digits = 0 ∨ 9223372036854775808 < digits then
    .real ⟨true, Number.double.round digits 1⟩
  else .negative digits

/-- Reads what may follow the digits before the point, of which some were dropped. -/
def readAfter (negative : Bool) (digits dropped : Nat) :
    List Char → Option (JsonNumber × List Char)
  | '.' :: r => readFraction negative digits dropped r
  | c :: r =>
    if c = 'e' ∨ c = 'E' ∨ 0 < dropped then readTail negative digits dropped (c :: r)
    else some (integer negative digits, c :: r)
  | [] =>
    if 0 < dropped then readTail negative digits dropped [] else some (integer negative digits, [])

/-- Reads a number that has no minus sign of its own. -/
def readNumber (negative : Bool) (cs : List Char) : Option (JsonNumber × List Char) :=
  match cs with
  | [] => none
  | c :: r =>
    if !c.isDigit then none
    else if c = '0' then
      if r.head?.any Char.isDigit then none else readAfter negative 0 0 r
    else
      let (digits, _, rest) := takeDigits 0 0 (c :: r)
      let (dropped, rest) := dropDigits 0 rest
      readAfter negative digits dropped rest

/-- The value of four hexadecimal digits. -/
def hexQuad : List Char → Option (Nat × List Char)
  | a :: b :: c :: d :: r => do
    let a ← Text.hexValue a
    let b ← Text.hexValue b
    let c ← Text.hexValue c
    let d ← Text.hexValue d
    some (((a * 16 + b) * 16 + c) * 16 + d, r)
  | _ => none

/-- Reads an escape, the backslash already taken. -/
def readEscape : List Char → Option (Char × List Char)
  | '"' :: r => some ('"', r)
  | '\\' :: r => some ('\\', r)
  | '/' :: r => some ('/', r)
  | 'b' :: r => some ('\x08', r)
  | 'f' :: r => some ('\x0c', r)
  | 'n' :: r => some ('\n', r)
  | 'r' :: r => some ('\r', r)
  | 't' :: r => some ('\t', r)
  | 'u' :: r => do
    let (n, r) ← hexQuad r
    if 0xD800 ≤ n ∧ n < 0xDC00 then
      match r with
      | '\\' :: 'u' :: r => do
        let (m, r) ← hexQuad r
        if 0xDC00 ≤ m ∧ m < 0xE000 then
          some (Char.ofNat (0x10000 + (n - 0xD800) * 0x400 + (m - 0xDC00)), r)
        else none
      | _ => none
    else if 0xDC00 ≤ n ∧ n < 0xE000 then none
    else some (Char.ofNat n, r)
  | _ => none

/-- Reads the characters of a quoted text up to its closing quote. -/
def readString : Nat → List Char → Option (List Char × List Char)
  | 0, _ => none
  | _, [] => none
  | fuel + 1, c :: r =>
    if c = '"' then some ([], r)
    else if c = '\\' then do
      let (d, r) ← readEscape r
      let (s, r) ← readString fuel r
      some (d :: s, r)
    else if c.toNat < 0x20 then none
    else do
      let (s, r) ← readString fuel r
      some (c :: s, r)

def readWord (word : List Char) (cs : List Char) : Option (List Char) :=
  match word, cs with
  | [], r => some r
  | a :: as, b :: bs => if a = b then readWord as bs else none
  | _ :: _, [] => none

mutual
/-- Reads one value; blanks may precede it.  `depth` is the room left for containers. -/
def readValue : Nat → Nat → List Char → Option (Json × List Char)
  | 0, _, _ => none
  | fuel + 1, depth, cs =>
    match skipSpace cs with
    | 'n' :: r => (readWord "ull".toList r).map (Json.null, ·)
    | 't' :: r => (readWord "rue".toList r).map (Json.bool true, ·)
    | 'f' :: r => (readWord "alse".toList r).map (Json.bool false, ·)
    | '"' :: r => (readString (r.length + 1) r).map fun (s, r) => (.str (String.ofList s), r)
    | '-' :: r => (readNumber true r).map fun (n, r) => (.num n, r)
    | '[' :: r =>
      if depth ≤ 1 then none
      else match skipSpace r with
        | ']' :: r => some (.arr [], r)
        | _ => (readItems fuel (depth - 1) r).map fun (l, r) => (.arr l, r)
    | '\x7b' :: r =>
      if depth ≤ 1 then none
      else match skipSpace r with
        | '\x7d' :: r => some (.obj [], r)
        | _ => (readMembers fuel (depth - 1) r).map fun (l, r) => (.obj l, r)
    | r => (readNumber false r).map fun (n, r) => (.num n, r)

/-- Reads items separated by commas up to the closing bracket. -/
def readItems : Nat → Nat → List Char → Option (List Json × List Char)
  | 0, _, _ => none
  | fuel + 1, depth, cs =>
    match readValue fuel depth cs with
    | none => none
    | some (v, r) =>
      match skipSpace r with
      | ']' :: r => some ([v], r)
      | ',' :: r => (readItems fuel depth r).map fun (l, r) => (v :: l, r)
      | _ => none

/-- Reads members separated by commas up to the closing brace. -/
def readMembers : Nat → Nat → List Char → Option (List (String × Json) × List Char)
  | 0, _, _ => none
  | fuel + 1, depth, cs =>
    match skipSpace cs with
    | '"' :: r =>
      match readString (r.length + 1) r with
      | none => none
      | some (k, r) =>
        match skipSpace r with
        | ':' :: r =>
          match readValue fuel depth r with
          | none => none
          | some (v, r) =>
            match skipSpace r with
            | '\x7d' :: r => some ([(String.ofList k, v)], r)
            | ',' :: r =>
              (readMembers fuel depth r).map fun (l, r) => ((String.ofList k, v) :: l, r)
            | _ => none
        | _ => none
    | _ => none
end

/-- The value at the front of a list of characters, and the rest. -/
def readFront (cs : List Char) : Option (Json × List Char) :=
  readValue (2 * cs.length + 2) depthLimit cs

/-- The value that a whole text holds; only blanks may follow it. -/
def parse? (s : String) : Option Json :=
  match readFront s.toList with
  | some (v, r) => if (skipSpace r).isEmpty then some v else none
  | none => none

end Scriptorium.Json
