import Scriptorium.Text.Blank

/-!
# Section taxonomies

A taxonomy lists groups of sections.  It fixes which sections exist and in which order a document
shows them.  `check` accepts a list of groups when no name is blank, no group is empty and no
section is listed twice.
-/

namespace Scriptorium

/-- A named group of sections. -/
structure Group where
  name : String
  sections : List String
  deriving Repr, DecidableEq, Inhabited

/-- Groups in the order of the document. -/
structure Taxonomy where
  groups : List Group
  deriving Repr, DecidableEq, Inhabited

namespace Taxonomy

/-- Why a list of groups is no taxonomy. -/
inductive Error where
  | noGroups
  | blankGroup
  | emptyGroup (group : String)
  | blankSection (group : String)
  | repeatedSection (id : String)
  deriving Repr, DecidableEq

def Error.message : Error → String
  | noGroups => "Taxonomy has no groups"
  | blankGroup => "Taxonomy group with empty name"
  | emptyGroup group => "Taxonomy group '" ++ group ++ "' has no sections"
  | blankSection group => "Taxonomy group '" ++ group ++ "' contains an empty section identifier"
  | repeatedSection id => "Duplicate section identifier '" ++ id ++ "'"

/-- Checks the sections of a group, given those seen before; returns all seen so far. -/
def checkSections (group : String) (seen : List String) : List String → Except Error (List String)
  | [] => .ok seen
  | s :: r =>
    if Text.blank s then .error (.blankSection group)
    else if s ∈ seen then .error (.repeatedSection s)
    else checkSections group (s :: seen) r

/-- Checks groups in order, given the sections seen before. -/
def checkGroups (seen : List String) : List Group → Except Error Unit
  | [] => .ok ()
  | g :: r =>
    if Text.blank g.name then .error .blankGroup
    else if g.sections.isEmpty then .error (.emptyGroup g.name)
    else do checkGroups (← checkSections g.name seen g.sections) r

/-- Accepts a taxonomy, or tells its first fault. -/
def check (t : Taxonomy) : Except Error Unit :=
  if t.groups.isEmpty then .error .noGroups else checkGroups [] t.groups

/-- All sections in order. -/
def sectionIds (t : Taxonomy) : List String := t.groups.flatMap (·.sections)

def contains (t : Taxonomy) (id : String) : Bool := t.sectionIds.contains id

def sectionCount (t : Taxonomy) : Nat :=
  t.groups.foldl (fun n g => n + g.sections.length) 0

/-- The first group that lists a section. -/
def groupOf? (t : Taxonomy) (id : String) : Option String :=
  (t.groups.find? (·.sections.contains id)).map (·.name)

/-- The sections of a technical documentation set. -/
def standard : Taxonomy := ⟨[
  ⟨"System Overview", ["Executive Summary", "System Purpose", "Architecture Overview"]⟩,
  ⟨"Code Documentation",
    ["Module Documentation", "Class Documentation", "Function Documentation",
      "API Documentation"]⟩,
  ⟨"Data Management", ["Data Models", "Database Schema", "Data Flow"]⟩,
  ⟨"Integration", ["External Integrations", "Internal Interfaces"]⟩,
  ⟨"Operations", ["Configuration", "Error Handling", "Security", "Performance Considerations"]⟩,
  ⟨"Developer Guide", ["Usage Examples", "Testing", "Dependencies"]⟩]⟩

end Taxonomy

end Scriptorium
