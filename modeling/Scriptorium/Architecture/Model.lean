import Scriptorium.Architecture.Tag
import Scriptorium.Json.Record
import Scriptorium.Text.Ordered

/-!
# Architecture models

A model grows by one extraction at a time.  It keeps the significant components by name, the last
record of a name counting, the relationships in the order of their first mention, each once, and
the diagram fragments that are not blank.
-/

namespace Scriptorium.Architecture

/-- What is recorded about a component. -/
structure Record where
  name : String
  kind : Kind
  layer : Layer
  responsibilities : String := ""
  significant : Bool := false
  deriving Repr, DecidableEq, Inhabited

/-- A relation between two named components. -/
structure Link where
  source : String
  target : String
  kind : Relation
  deriving Repr, DecidableEq, Inhabited

/-- What one reply adds to a model. -/
structure Extraction where
  component : Option Record := none
  links : List Link := []
  fragment : Option String := none
  deriving Repr, DecidableEq, Inhabited

/-- Significant components by name, links and fragments; the keys are the links as a set, which tells
the known ones and has no order that counts. -/
structure Model where
  records : List (String × Record) := []
  links : List Link := []
  keys : List Link := []
  fragments : List String := []
  deriving Repr, DecidableEq, Inhabited

/-- How many components and relationships a model holds. -/
structure Extent where
  components : Nat := 0
  relationships : Nat := 0
  deriving Repr, DecidableEq, Inhabited

/-- What a merge changed. -/
structure MergeResult where
  componentStored : Bool := false
  linksAdded : Nat := 0
  fragmentKept : Bool := false
  deriving Repr, DecidableEq, Inhabited

namespace Model

/-- Stores a record if it is significant, and tells whether it did. -/
def upsert (m : Model) (r : Record) : Model × Bool :=
  if r.significant then ({ m with records := Text.tableSet r.name r m.records }, true)
  else (m, false)

/-- Adds a link unless it is among the keys, and tells whether it did. -/
def relate (m : Model) (l : Link) : Model × Bool :=
  if l ∈ m.keys then (m, false)
  else ({ m with keys := m.keys.insert l, links := m.links ++ [l] }, true)

/-- Keeps a fragment unless it is blank, and tells whether it did. -/
def keepFragment (m : Model) (f : String) : Model × Bool :=
  if Text.blank f then (m, false) else ({ m with fragments := m.fragments ++ [f] }, true)

/-- Adds links in order and counts those that are new. -/
def relateAll (m : Model) : List Link → Model × Nat
  | [] => (m, 0)
  | l :: r =>
    let (m, new) := m.relate l
    let (m, n) := m.relateAll r
    (m, (if new then 1 else 0) + n)

/-- Folds an extraction into the model. -/
def merge (m : Model) (e : Extraction) : Model × MergeResult :=
  let (m, stored) := match e.component with
    | some r => m.upsert r
    | none => (m, false)
  let (m, added) := m.relateAll e.links
  let (m, kept) := match e.fragment with
    | some f => m.keepFragment f
    | none => (m, false)
  (m, ⟨stored, added, kept⟩)

/-- The records in the order of their names. -/
def components (m : Model) : List Record := m.records.map (·.2)

def get? (m : Model) (name : String) : Option Record := m.records.lookup name

def names (m : Model) : List String := m.records.map (·.1)

/-- All fragments as one text. -/
def fragmentText (m : Model) : String := "\n".intercalate m.fragments

def extent (m : Model) : Extent := ⟨m.records.length, m.links.length⟩

def isEmpty (m : Model) : Bool := m.records.isEmpty && m.links.isEmpty

end Model

/-! ## Records as JSON -/

def record? (v : Json) : Option Record :=
  match Json.slots
      [["name"], ["kind", "component_type", "type"], ["layer"], ["responsibilities"],
        ["is_significant"]] v with
  | some [name, kind, layer, responsibilities, significant] => do
    let name ← name.required Json.asString?
    let kind ← kind.required Json.asString?
    let layer ← layer.required Json.asString?
    let responsibilities ← responsibilities.withDefault "" Json.asString?
    let significant ← significant.withDefault false Json.asBool?
    some ⟨name, Kind.ofTag kind, Layer.ofTag layer, responsibilities, significant⟩
  | _ => none

def link? (v : Json) : Option Link :=
  match Json.slots [["source"], ["target"], ["kind", "relationship_type", "type"]] v with
  | some [source, target, kind] => do
    let source ← source.required Json.asString?
    let target ← target.required Json.asString?
    let kind ← kind.required Json.asString?
    some ⟨source, target, Relation.ofTag kind⟩
  | _ => none

def Record.toJson (r : Record) : Json :=
  .obj [("name", .str r.name), ("kind", .str r.kind.tag), ("layer", .str r.layer.tag),
    ("responsibilities", .str r.responsibilities), ("is_significant", .bool r.significant)]

def Link.toJson (l : Link) : Json :=
  .obj [("source", .str l.source), ("target", .str l.target), ("kind", .str l.kind.tag)]

def Extent.toJson (e : Extent) : Json :=
  .obj [("components", .nat e.components), ("relationships", .nat e.relationships)]

end Scriptorium.Architecture
