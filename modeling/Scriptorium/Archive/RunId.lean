import Scriptorium.Text.CodeRange
import Scriptorium.Text.Search

/-!
# Run identifiers

A run is known by 128 bits, written as 32 hexadecimal digits in five groups.  The digits are also
read without hyphens, in braces and with the prefix of a resource name.
-/

namespace Scriptorium.Archive

/-- The 32 hexadecimal digits of a run identifier, small letters. -/
structure RunId where
  digits : List Char
  deriving Repr, DecidableEq, Inhabited

namespace RunId

def zero : RunId := ⟨List.replicate 32 '0'⟩

def text (id : RunId) : String :=
  let d := id.digits
  String.ofList (d.take 8 ++ '-' :: (d.drop 8).take 4 ++ '-' :: (d.drop 12).take 4
    ++ '-' :: (d.drop 16).take 4 ++ '-' :: d.drop 20)

def ofDigits? (cs : List Char) : Option RunId :=
  if cs.length = 32 then
    (cs.mapM fun c => (Text.hexValue c).map Nat.digitChar).map (⟨·⟩)
  else none

def ofGroups? (cs : List Char) : Option RunId :=
  let at_ (i : Nat) : Option Char := cs[i]?
  if cs.length = 36 ∧ at_ 8 = some '-' ∧ at_ 13 = some '-' ∧ at_ 18 = some '-'
      ∧ at_ 23 = some '-' then
    ofDigits? (cs.take 8 ++ (cs.drop 9).take 4 ++ (cs.drop 14).take 4 ++ (cs.drop 19).take 4
      ++ cs.drop 24)
  else none

def ofText? (s : String) : Option RunId :=
  let cs := s.toList
  if cs.length = 32 then ofDigits? cs
  else if cs.length = 36 then ofGroups? cs
  else if cs.length = 38 ∧ cs.head? = some '\x7b' ∧ cs.getLast? = some '\x7d' then
    ofGroups? ((cs.drop 1).take 36)
  else if cs.length = 45 ∧ cs.take 9 = "urn:uuid:".toList then ofGroups? (cs.drop 9)
  else none

end RunId

end Scriptorium.Archive
