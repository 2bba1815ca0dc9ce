/-!
# Runs of code points

A class of characters is a list of closed code point ranges, and a case map is a list of runs that
shift every `step`-th code point by one distance.  A long class is written as a text of hexadecimal
numbers, read once.
-/

namespace Scriptorium.Text

def hexValue (c : Char) : Option Nat :=
  if '0' ≤ c ∧ c ≤ '9' then some (c.toNat - '0'.toNat)
  else if 'a' ≤ c ∧ c ≤ 'f' then some (c.toNat - 'a'.toNat + 10)
  else if 'A' ≤ c ∧ c ≤ 'F' then some (c.toNat - 'A'.toNat + 10)
  else none

/-- Reads hexadecimal digits from the left and returns the number and what follows. -/
def readHex (cs : List Char) : Nat × List Char :=
  let rec go (acc : Nat) : List Char → Nat × List Char
    | [] => (acc, [])
    | c :: r => match hexValue c with
      | some d => go (acc * 16 + d) r
      | none => (acc, c :: r)
  go 0 cs

/-- The pieces between spaces and line feeds, without the empty ones. -/
def piecesOf (cs : List Char) : List (List Char) :=
  let rec go (piece : List Char) : List Char → List (List Char)
    | [] => if piece.isEmpty then [] else [piece.reverse]
    | c :: r =>
      if c = ' ' ∨ c = '\n' then if piece.isEmpty then go [] r else piece.reverse :: go [] r
      else go (c :: piece) r
  go [] cs

/-- A closed range of code points. -/
structure CodeRange where
  first : Nat
  last : Nat
  deriving Repr, DecidableEq, Inhabited

namespace CodeRange

def contains (r : CodeRange) (n : Nat) : Bool := r.first ≤ n && n ≤ r.last

/-- Reads one range, `41-5A` or `5F`. -/
def ofPiece (cs : List Char) : CodeRange :=
  let (first, rest) := readHex cs
  match rest with
  | '-' :: rest => ⟨first, (readHex rest).1⟩
  | _ => ⟨first, first⟩

/-- Reads a list of ranges separated by blanks. -/
def ofText (s : String) : List CodeRange := (piecesOf s.toList).map ofPiece

end CodeRange

/-- Whether a character lies in one of the ranges. -/
def inRanges (rs : List CodeRange) (c : Char) : Bool := rs.any (·.contains c.toNat)

/-- A run of a case map: every `step`-th code point from `first` to `last`, the first of which goes
to `target`. -/
structure CaseRun where
  first : Nat
  last : Nat
  step : Nat
  target : Nat
  deriving Repr, DecidableEq, Inhabited

namespace CaseRun

/-- The image of a code point, if the run covers it. -/
def image? (r : CaseRun) (n : Nat) : Option Nat :=
  if r.first ≤ n ∧ n ≤ r.last ∧ (n - r.first) % r.step = 0 then some (n - r.first + r.target)
  else none

def preimage? (r : CaseRun) (n : Nat) : Option Nat :=
  if r.target ≤ n ∧ n - r.target ≤ r.last - r.first ∧ (n - r.target) % r.step = 0 then
    some (n - r.target + r.first)
  else none

end CaseRun

/-- The image of a character under a case map, if one of its runs covers it. -/
def caseImage? (runs : List CaseRun) (c : Char) : Option Char :=
  (runs.findSome? (·.image? c.toNat)).map Char.ofNat

end Scriptorium.Text
