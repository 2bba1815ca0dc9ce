import Scriptorium.Text.CaseTable

/-!
# Letter case

`lowercase` is the full lower-case mapping of Unicode: one letter becomes two, and a capital sigma
takes its final form at the end of a word.  `foldsTo` compares letters by simple case folding.
-/

namespace Scriptorium.Text

def isAscii (c : Char) : Bool := c.toNat < 0x80

/-- An ASCII capital becomes small, and all else stays. -/
def asciiLower (c : Char) : Char :=
  if 'A' ≤ c ∧ c ≤ 'Z' then Char.ofNat (c.toNat + 32) else c

/-- An ASCII small letter becomes a capital, and all else stays. -/
def asciiUpper (c : Char) : Char :=
  if 'a' ≤ c ∧ c ≤ 'z' then Char.ofNat (c.toNat - 32) else c

/-- Whether a character is a letter with a case. -/
def isCased (c : Char) : Bool :=
  if isAscii c then c.isAlpha else inRanges casedRanges c

/-- Whether a case context looks through a character. -/
def isCaseIgnorable (c : Char) : Bool := inRanges caseIgnorableRanges c

/-- Whether the first character that is not looked through is a letter with a case. -/
def reachesCased (cs : List Char) : Bool :=
  match cs.dropWhile isCaseIgnorable with
  | [] => false
  | c :: _ => isCased c

/-- The lower case of one character, away from its context. -/
def lowerChar (c : Char) : List Char :=
  if isAscii c then [asciiLower c]
  else if c = 'İ' then ['i', '\u0307']
  else [(caseImage? lowerRuns c).getD c]

/-- The lower case of `cs`, given the characters before it, the nearest first.  A capital sigma is
final when a cased letter reaches it from the left and none from the right. -/
def lowerFrom (before : List Char) : List Char → List Char
  | [] => []
  | c :: r =>
    (if c = 'Σ' then [if reachesCased before && !reachesCased r then 'ς' else 'σ']
      else lowerChar c) ++ lowerFrom (c :: before) r

def lowercase (s : String) : String := String.ofList (lowerFrom [] s.toList)

/-- The simple case folding of a character. -/
def foldChar (c : Char) : Char :=
  if isAscii c then asciiLower c else (caseImage? foldRuns c).getD c

/-- All characters with the same simple case folding as the given one. -/
def foldClass (c : Char) : List Char :=
  let f := foldChar c
  f :: (foldRuns.filterMap (·.preimage? f.toNat)).map Char.ofNat

end Scriptorium.Text
