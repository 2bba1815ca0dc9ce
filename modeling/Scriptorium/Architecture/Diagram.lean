import Scriptorium.Architecture.Model
import Scriptorium.Architecture.NodeId
import Scriptorium.Text.Search

/-!
# Architecture diagrams

A model is drawn as a top-down graph: one block per layer that has components, the endpoints of
relationships that have no record, then the relationships.  The summary tells the same in prose.
-/

namespace Scriptorium.Architecture

/-- The drawing, the prose and the raw fragments of a model. -/
structure Diagram where
  source : String
  summary : String
  fragments : Option String
  deriving Repr, DecidableEq

namespace Diagram

def emptyText : String := "No architectural components found"

def label (s : String) : String := "\"" ++ Text.replaceChar '"' "#quot;" s ++ "\""

def node (id : String) (r : Record) : String :=
  let text := label r.name
  match r.kind with
  | .apiEndpoint => id ++ "[/" ++ text ++ "/]"
  | .database => id ++ "[(" ++ text ++ ")]"
  | .external => id ++ "\x7b\x7b" ++ text ++ "\x7d\x7d"
  | .ui => id ++ "([" ++ text ++ "])"
  | .model => id ++ "[[" ++ text ++ "]]"
  | .queue => id ++ ">" ++ text ++ "]"
  | _ => id ++ "[" ++ text ++ "]"

def arrow : Relation → String
  | .dependsOn | .uses => "-.->"
  | .reads | .writes => "==>"
  | _ => "-->"

def nodeLines (ids : NodeIds) : List Record → NodeIds × List String
  | [] => (ids, [])
  | r :: rest =>
    let (ids, id) := ids.get r.name
    let (ids, ls) := nodeLines ids rest
    (ids, ("        " ++ node id r) :: ls)

/-- The blocks of the layers that have components. -/
def layerLines (m : Model) (ids : NodeIds) : List Layer → NodeIds × List String
  | [] => (ids, [])
  | l :: rest =>
    match m.components.filter (·.layer = l) with
    | [] => layerLines m ids rest
    | records =>
      let (ids, nodes) := nodeLines ids records
      let (ids, ls) := layerLines m ids rest
      (ids, ("    subgraph " ++ l.tag ++ "[" ++ label l.title ++ "]") :: nodes ++ "    end" :: ls)

/-- The endpoints that no layer declares, each once. -/
def endpointLines (declared : List String) (ids : NodeIds) : List String → NodeIds × List String
  | [] => (ids, [])
  | name :: rest =>
    if name ∈ declared then endpointLines declared ids rest
    else
      let (ids, id) := ids.get name
      let (ids, ls) := endpointLines (name :: declared) ids rest
      (ids, ("    " ++ id ++ "[" ++ label name ++ "]") :: ls)

def linkLines (ids : NodeIds) : List Link → List String
  | [] => []
  | l :: rest =>
    let (ids, source) := ids.get l.source
    let (ids, target) := ids.get l.target
    ("    " ++ source ++ " " ++ arrow l.kind ++ "|" ++ l.kind.verb ++ "| " ++ target)
      :: linkLines ids rest

def sourceLines (m : Model) : List String :=
  if m.isEmpty then ["graph TD", "    empty[\"" ++ emptyText ++ "\"]"]
  else
    let (ids, layers) := layerLines m {} Layer.all
    let (ids, endpoints) := endpointLines m.names ids (m.links.flatMap fun l => [l.source, l.target])
    "graph TD" :: layers ++ endpoints ++ linkLines ids m.links

def draw (m : Model) : String := "\n".intercalate (sourceLines m) ++ "\n"

def recordLine (r : Record) : String :=
  let duties := Text.trim r.responsibilities
  "- **" ++ r.name ++ "** (" ++ r.kind.tag ++ ")" ++
    (if duties = "" then "\n" else ": " ++ duties ++ "\n")

/-- The paragraph of a layer, empty when the layer is. -/
def layerText (m : Model) (l : Layer) : String :=
  match m.components.filter (·.layer = l) with
  | [] => ""
  | records => "## " ++ l.title ++ "\n\n" ++ String.join (records.map recordLine) ++ "\n"

/-- The paragraph of the relationships, empty when there are none. -/
def linkText (m : Model) : String :=
  if m.links.isEmpty then ""
  else "## Relationships\n\n" ++
    String.join (m.links.map fun l =>
      "- " ++ l.source ++ " " ++ l.kind.verb ++ " " ++ l.target ++ "\n") ++ "\n"

def describe (m : Model) : String :=
  let heading := "# Architecture Summary\n\n"
  if m.isEmpty then heading ++ emptyText ++ ".\n"
  else
    let body := heading ++ toString m.extent.components ++ " components, "
      ++ toString m.extent.relationships ++ " relationships.\n\n"
      ++ String.join (Layer.all.map (layerText m)) ++ linkText m
    Text.trimEnd body ++ "\n"

/-- Drawing, prose and fragments of a model; blank fragments count as none. -/
def ofModel (m : Model) : Diagram where
  source := draw m
  summary := describe m
  fragments := if Text.blank m.fragmentText then none else some m.fragmentText

end Diagram

end Scriptorium.Architecture
