import Scriptorium.Json.Reader
import Scriptorium.Json.Printer
import Scriptorium.Json.Record
import Scriptorium.Text.Ordered

/-!
# Call graphs

A call graph holds names and directed edges between them.  Nodes are numbered in the order in which
they are first mentioned, parallel edges and loops are kept, and the neighbours of a name are told
in order, each once and without the name itself.
-/

namespace Scriptorium

/-- A directed edge with its kind. -/
structure Edge where
  source : String
  target : String
  kind : String
  deriving Repr, DecidableEq

/-- Names in the order of their first mention, and edges. -/
structure CallGraph where
  nodes : List String := []
  edges : List Edge := []
  deriving Repr, DecidableEq, Inhabited

/-- The direct callers and callees of a name. -/
structure Neighbors where
  callers : List String := []
  callees : List String := []
  deriving Repr, DecidableEq, Inhabited

namespace CallGraph

inductive Error where
  | notNodeLink
  | rootNotObject
  | unreadable (path reason : String)

def Error.message : Error → String
  | notNodeLink => "Invalid node-link JSON"
  | rootNotObject => "Graph root must be an object with 'nodes' and 'links'"
  | unreadable path reason => "Cannot read " ++ path ++ ": " ++ reason

def addNode (g : CallGraph) (name : String) : CallGraph :=
  if name ∈ g.nodes then g else { g with nodes := g.nodes ++ [name] }

/-- The number of a node. -/
def nodeIndex? (g : CallGraph) (name : String) : Option Nat := g.nodes.idxOf? name

/-- The graph with an edge added; names it mentions become nodes, the source first. -/
def addEdge (g : CallGraph) (e : Edge) : CallGraph :=
  let g := (g.addNode e.source).addNode e.target
  { g with edges := g.edges ++ [e] }

def contains (g : CallGraph) (name : String) : Bool := g.nodes.contains name

def neighbors (g : CallGraph) (name : String) : Neighbors where
  callers := Text.sortedNames
    ((g.edges.filter fun e => e.target = name ∧ e.source ≠ name).map (·.source))
  callees := Text.sortedNames
    ((g.edges.filter fun e => e.source = name ∧ e.target ≠ name).map (·.target))

/-- The name that an identifier stands for: a text itself, any other value in compact form. -/
def nameOf : Json → String
  | .str s => s
  | v => v.compact

def node? (v : Json) : Option String :=
  match Json.slots [["id"]] v with
  | some [id] => (id.required some).map nameOf
  | _ => none

/-- Reads a link: a record with source, target and an optional kind. -/
def link? (v : Json) : Option Edge :=
  match Json.slots [["source"], ["target"], ["type", "kind", "relation"]] v with
  | some [source, target, kind] => do
    let source ← source.required some
    let target ← target.required some
    let kind ← kind.optionalDefault Json.asString?
    some ⟨nameOf source, nameOf target, kind.getD "calls"⟩
  | _ => none

def ofJson : Json → Except Error CallGraph
  | .obj ms =>
    match Json.slots [["nodes"], ["links", "edges"]] (.obj ms) with
    | some [nodes, links] =>
      match nodes.withDefault [] (Json.asList? node?), links.withDefault [] (Json.asList? link?) with
      | some nodes, some links => .ok (links.foldl addEdge (nodes.foldl addNode {}))
      | _, _ => .error .notNodeLink
    | _ => .error .notNodeLink
  | _ => .error .rootNotObject

def ofText (text : String) : Except Error CallGraph :=
  match Json.parse? text with
  | some v => ofJson v.canonical
  | none => .error .notNodeLink

end CallGraph

end Scriptorium
