import Scriptorium.Text.Blank
import Scriptorium.Text.Case

/-!
# File names

Names of artifacts come from catalogs and replies, so they are made safe first: only ASCII letters,
digits, dots, underscores and hyphens stay, and a name that would lead elsewhere becomes an
underscore.  When a name is taken, a number is put before its extension.
-/

namespace Scriptorium.Archive

/-- Whether a character may stand in a file name. -/
def isSafe (c : Char) : Bool :=
  (Text.isAscii c && c.isAlphanum) || c == '.' || c == '_' || c == '-'

/-- A name whose other characters are underscores, and which is neither empty nor dots that lead
to a directory. -/
def sanitizeChars (cs : List Char) : List Char :=
  let plain := cs.map fun c => if isSafe c then c else '_'
  if plain = [] ∨ plain = ['.'] ∨ plain = ['.', '.'] then ['_'] else plain

def sanitize (name : String) : String := String.ofList (sanitizeChars name.toList)

/-- The parts of a name before and from its last dot, unless that is its first character. -/
def splitExtension (cs : List Char) : List Char × List Char :=
  let tail := (cs.reverse.takeWhile (· ≠ '.')).reverse
  let stem := cs.take (cs.length - tail.length - 1)
  if tail.length < cs.length ∧ stem ≠ [] then (stem, '.' :: tail) else (cs, [])

/-- The `n`-th alternative of a name; the name itself is the alternative with number zero. -/
def versioned (name : String) (n : Nat) : String :=
  if n = 0 then name
  else
    let (stem, extension) := splitExtension name.toList
    String.ofList stem ++ "_" ++ toString n ++ String.ofList extension

/-- Whether a file name ends in an extension; a leading dot begins none. -/
def hasExtension (extension name : String) : Bool :=
  (splitExtension name.toList).2 == '.' :: extension.toList

end Scriptorium.Archive
