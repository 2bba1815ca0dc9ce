import Scriptorium.Catalog
import Scriptorium.Taxonomy
import Scriptorium.Assistant.Reply

/-!
# Placement

Placement picks the sections that an accepted component belongs in.  The assistant is shown the
taxonomy and names sections; what is not in the taxonomy is dropped, and where the call fails the
fallback sections are taken.
-/

namespace Scriptorium

namespace Placement

/-- The sections picked, the names dropped, and whether the fallback was taken. -/
structure Outcome where
  sections : List String
  dropped : List String := []
  usedFallback : Bool := false
  deriving Repr, DecidableEq, Inhabited

/-- The taxonomy as the assistant is shown it. -/
def listing (t : Taxonomy) : String :=
  "\n".intercalate (t.groups.map fun g =>
    "- " ++ g.name ++ ":\n" ++ "\n".intercalate (g.sections.map ("  - " ++ ·)))

def request (template : String) (t : Taxonomy) (c : Component) : Assistant.Request :=
  ⟨.selector, .json, template, [("name", c.name), ("type", c.kindLabel),
    ("documentation", c.documentation), ("sections", listing t)]⟩

def sections? (v : Json) : Option (List String) :=
  match Json.slots [["relevant_sections"]] v with
  | some [s] => s.required (Json.asList? Json.asString?)
  | _ => none

/-- Splits the names of a reply, given the sections kept before: sections in the order of their
first mention, and names that are no sections as they were written. -/
def sift (t : Taxonomy) (seen : List String) : List String → List String × List String
  | [] => ([], [])
  | raw :: rest =>
    let id := Text.trim raw
    if !t.contains id then
      let (kept, dropped) := sift t seen rest
      (kept, raw :: dropped)
    else if id ∈ seen then sift t seen rest
    else
      let (kept, dropped) := sift t (id :: seen) rest
      (id :: kept, dropped)

/-- The outcome when the assistant cannot help. -/
def fallback (sections : List String) : Outcome where
  sections := sections.eraseDups
  usedFallback := true

def ofReply (t : Taxonomy) (fallbackSections : List String) :
    Except Assistant.Failure String → Outcome
  | .error _ => fallback fallbackSections
  | .ok reply =>
    match Assistant.decode sections? reply with
    | .error _ => fallback fallbackSections
    | .ok names =>
      let (kept, dropped) := sift t [] names
      ⟨kept, dropped, false⟩

end Placement

end Scriptorium
