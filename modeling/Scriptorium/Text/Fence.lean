import Scriptorium.Text.Lines
import Scriptorium.Text.Search

/-!
# Code fences

A reply is often wrapped in one fenced block.  `unfence` removes such a wrapper when its opening
fence is the first line and the fence that closes it is the last; every other text is left alone.
-/

namespace Scriptorium.Text

/-- Three backticks. -/
def fenceMark : List Char := ['\x60', '\x60', '\x60']

/-- Whether a line opens or closes a fenced block. -/
def isFence (l : List Char) : Bool := startsWith fenceMark (stripBlanks l)

/-- The lines before the fence that closes a block nested `depth` deep, and those after it.  A
bare fence closes a block, and a fence with a tag opens one. -/
def toClosing : Nat → List (List Char) → Option (List (List Char) × List (List Char))
  | _, [] => none
  | depth, l :: ls =>
    if stripBlanks l = fenceMark then
      match depth with
      | 0 => some ([], ls)
      | d + 1 => (toClosing d ls).map fun (b, a) => (l :: b, a)
    else (toClosing (if isFence l then depth + 1 else depth) ls).map fun (b, a) => (l :: b, a)

/-- The text inside a fence that wraps the whole text, and any other text as it is. -/
def unfenceChars (cs : List Char) : List Char :=
  match splitLines (stripBlanks cs) with
  | [] => cs
  | first :: rest =>
    if isFence first then
      match toClosing 0 rest with
      | some (body, []) => stripBlanks (joinChars ['\n'] body)
      | _ => cs
    else cs

/-- The text inside a fence that wraps the whole text, and any other text as it is. -/
def unfence (s : String) : String := String.ofList (unfenceChars s.toList)

end Scriptorium.Text
