import Scriptorium.Catalog
import Scriptorium.CallGraph
import Scriptorium.Architecture.Model
import Scriptorium.Assistant.Reply

/-!
# Survey

The survey asks the assistant what a component is in the architecture and how it relates to others.
The request tells what the model holds already and who calls whom.
-/

namespace Scriptorium

namespace Survey

open Architecture

/-- What the request tells of the model and the call graph. -/
structure Context where
  components : List String := []
  relationships : List String := []
  neighbors : Neighbors := {}
  deriving Repr, DecidableEq, Inhabited

def Context.ofModel (m : Model) (n : Neighbors) : Context where
  components := m.components.map fun r =>
    r.name ++ " (" ++ r.kind.tag ++ ", " ++ r.layer.tag ++ ")"
  relationships := m.links.map fun l => l.source ++ " -" ++ l.kind.tag ++ "-> " ++ l.target
  neighbors := n

/-- Names on lines of their own. -/
def bullets (l : List String) : String :=
  if l.isEmpty then "(none)" else "\n".intercalate (l.map ("- " ++ ·))

/-- Names on one line. -/
def inlined (l : List String) : String :=
  if l.isEmpty then "(none)" else ", ".intercalate l

def request (template : String) (ctx : Context) (c : Component) : Assistant.Request :=
  ⟨.extractor, .json, template, [("name", c.name), ("type", c.kindLabel),
    ("documentation", c.documentation), ("callers", inlined ctx.neighbors.callers),
    ("callees", inlined ctx.neighbors.callees), ("known_components", bullets ctx.components),
    ("known_relationships", bullets ctx.relationships)]⟩

/-- Reads an extraction; the record must be there. -/
def extraction? (v : Json) : Option (Record × List Link × Option String) :=
  match Json.slots [["component"], ["relationships"], ["diagram_fragment"]] v with
  | some [component, links, fragment] => do
    let component ← component.required record?
    let links ← links.withDefault [] (Json.asList? link?)
    let fragment ← fragment.optionalDefault Json.asString?
    some (component, links, fragment)
  | _ => none

/-- An extraction under the name of its component, without links that lack an end. -/
def tidy (c : Component) (record : Record) (links : List Link) (fragment : Option String) :
    Extraction where
  component := some { record with name := c.name }
  links := links.filter fun l => !Text.blank l.source && !Text.blank l.target
  fragment := fragment

def ofReply (c : Component) (reply : Except Assistant.Failure String) :
    Except Assistant.Failure Extraction := do
  let (record, links, fragment) ← Assistant.decode extraction? (← reply)
  return tidy c record links fragment

end Survey

end Scriptorium
