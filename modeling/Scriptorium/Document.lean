import Scriptorium.Manuscript
import Scriptorium.Text.Fence

/-!
# Documents

A document shows the sections that have text under the headings of their groups, in the order of
the taxonomy.  A group without text has no heading, and a manuscript without text gives the empty
document.
-/

namespace Scriptorium

namespace Document

/-- A section that the manuscript does not have. -/
structure MissingSection where
  id : String
  group : String
  deriving Repr, DecidableEq

def MissingSection.message (e : MissingSection) : String :=
  "section '" ++ e.id ++ "' of group '" ++ e.group ++ "' is missing from the document state"

/-- The text of a section as it is shown: without a fence around it and without blanks at its ends. -/
def shown (text : String) : String := Text.trim (Text.unfence text)

/-- The sections of a group that have text, with that text. -/
def entries (m : Manuscript) (g : Group) : Except MissingSection (List (String × String)) := do
  let all ← g.sections.mapM fun id =>
    match m.get? id with
    | some text => .ok (id, shown text)
    | none => .error ⟨id, g.name⟩
  return all.filter fun (_, text) => text ≠ ""

/-- A group with its entries, nothing when it has none. -/
def groupText (g : Group) (es : List (String × String)) : String :=
  if es.isEmpty then ""
  else "## " ++ g.name ++ "\n\n" ++
    String.join (es.map fun (id, text) => "### " ++ id ++ "\n\n" ++ text ++ "\n\n")

/-- The document of a manuscript, with a title over it unless the title is blank. -/
def compile (t : Taxonomy) (title : Option String) (m : Manuscript) :
    Except MissingSection String := do
  let body := String.join (← t.groups.mapM fun g => return groupText g (← entries m g))
  if body = "" then return ""
  let heading := match title with
    | some s => if Text.blank s then "" else "# " ++ Text.trim s ++ "\n\n"
    | none => ""
  return heading ++ Text.trimEnd body ++ "\n"

end Document

end Scriptorium
