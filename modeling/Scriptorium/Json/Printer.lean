import Scriptorium.Json.Basic

/-!
# Writing JSON

The compact form has no blanks; the pretty form puts every member and item on its own line, two
spaces deeper than its container, and writes an empty container in one piece.
-/

namespace Scriptorium.Json

/-- Numbers of 64 bits are positional from `1e-5` up to sixteen digits before the point. -/
def realNotation : Number.Notation := ⟨-5, 16, true⟩

def numberText : JsonNumber → String
  | .natural n => toString n
  | .negative n => "-" ++ toString n
  | .real x => if x.isFinite then realNotation.write x else "null"

def hexDigit (n : Nat) : Char := Nat.digitChar n

/-- A character inside a quoted text. -/
def escapeChar (c : Char) : List Char :=
  if c = '"' then ['\\', '"']
  else if c = '\\' then ['\\', '\\']
  else if c = '\n' then ['\\', 'n']
  else if c = '\r' then ['\\', 'r']
  else if c = '\t' then ['\\', 't']
  else if c = '\x08' then ['\\', 'b']
  else if c = '\x0c' then ['\\', 'f']
  else if c.toNat < 0x20 then
    ['\\', 'u', '0', '0', hexDigit (c.toNat / 16), hexDigit (c.toNat % 16)]
  else [c]

def quote (s : String) : List Char := '"' :: (s.toList.flatMap escapeChar ++ ['"'])

mutual
def compactChars : Json → List Char
  | .null => "null".toList
  | .bool b => (if b then "true" else "false").toList
  | .num n => (numberText n).toList
  | .str s => quote s
  | .arr [] => ['[', ']']
  | .arr (v :: r) => '[' :: (compactChars v ++ compactItems r)
  | .obj [] => ['\x7b', '\x7d']
  | .obj ((k, v) :: r) => '\x7b' :: (quote k ++ ':' :: (compactChars v ++ compactMembers r))

/-- The items after the first, and the closing bracket. -/
def compactItems : List Json → List Char
  | [] => [']']
  | v :: r => ',' :: (compactChars v ++ compactItems r)

/-- The members after the first, and the closing brace. -/
def compactMembers : List (String × Json) → List Char
  | [] => ['\x7d']
  | (k, v) :: r => ',' :: (quote k ++ ':' :: (compactChars v ++ compactMembers r))
end

def compact (v : Json) : String := String.ofList (compactChars v)

/-- A line break and the indentation of a depth. -/
def newline (depth : Nat) : List Char := '\n' :: List.replicate (2 * depth) ' '

mutual
/-- The pretty form of a value that stands at a depth. -/
def prettyChars (depth : Nat) : Json → List Char
  | .arr [] => ['[', ']']
  | .arr (v :: r) =>
    '[' :: (newline (depth + 1) ++ prettyChars (depth + 1) v ++ prettyItems depth r)
  | .obj [] => ['\x7b', '\x7d']
  | .obj ((k, v) :: r) =>
    '\x7b' :: (newline (depth + 1) ++ quote k ++ ':' :: ' ' :: prettyChars (depth + 1) v
      ++ prettyMembers depth r)
  | .null => "null".toList
  | .bool b => (if b then "true" else "false").toList
  | .num n => (numberText n).toList
  | .str s => quote s

/-- The items after the first, and the closing bracket. -/
def prettyItems (depth : Nat) : List Json → List Char
  | [] => newline depth ++ [']']
  | v :: r => ',' :: (newline (depth + 1) ++ prettyChars (depth + 1) v ++ prettyItems depth r)

/-- The members after the first, and the closing brace. -/
def prettyMembers (depth : Nat) : List (String × Json) → List Char
  | [] => newline depth ++ ['\x7d']
  | (k, v) :: r =>
    ',' :: (newline (depth + 1) ++ quote k ++ ':' :: ' ' :: prettyChars (depth + 1) v
      ++ prettyMembers depth r)
end

def pretty (v : Json) : String := String.ofList (prettyChars 0 v)

end Scriptorium.Json
