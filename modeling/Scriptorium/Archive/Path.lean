import Scriptorium.Text.Lines

/-!
# Paths

A path is a text in which slashes stand between parts.  Doubled slashes and slashes at the end do
not count, and a part that is a single dot stays where it is.
-/

namespace Scriptorium.Archive.Path

def isAbsolute (path : String) : Bool := path.toList.head? == some '/'

def parts (path : String) : List String :=
  ((Text.splitAtChar '/' path.toList).map String.ofList).filter (· ≠ "")

/-- A path extended by another: an absolute one replaces it. -/
def join (base path : String) : String :=
  if isAbsolute path ∨ base = "" then path
  else if base.toList.getLast? = some '/' then base ++ path
  else base ++ "/" ++ path

/-- What a path names: whether it starts at the top, and its parts; a dot counts only in front. -/
def named (path : String) : Bool × List String :=
  let front := if isAbsolute path then 0 else 1
  (isAbsolute path, (parts path).take front ++ ((parts path).drop front).filter (· ≠ "."))

/-- The parts from the last to the first of the directory that a path lies in, from its own. -/
def above (parts : List String) : List String := (parts.dropWhile (· = ".")).drop 1

theorem length_above_cons (part : String) (parts : List String) :
    (above (part :: parts)).length < (part :: parts).length := by
  have h := (List.dropWhile_suffix (l := part :: parts) (· = ".")).length_le
  simp only [above, List.length_drop, List.length_cons] at h ⊢
  omega

end Scriptorium.Archive.Path
