import Scriptorium.Json.Reader
import Scriptorium.Json.Printer

/-!
# Component catalogs

A catalog lists the components to document, each name once, in the order of its source; that order
is the order of work.  Its text is a JSON object from names to entries.
-/

namespace Scriptorium

/-- A named unit of source material, with its documentation and an optional type. -/
structure Component where
  name : String
  documentation : String
  kind : Option String := none
  deriving Repr, DecidableEq, Inhabited

/-- The type of a component, `unknown` when the source gives none. -/
def Component.kindLabel (c : Component) : String := c.kind.getD "unknown"

/-- The components with one added: a new name goes to the end, a known one is replaced. -/
def putComponent (c : Component) : List Component → List Component
  | [] => [c]
  | d :: r => if d.name = c.name then c :: r else d :: putComponent c r

theorem mem_names_putComponent {c : Component} {l : List Component} {s : String} :
    s ∈ (putComponent c l).map Component.name ↔ s = c.name ∨ s ∈ l.map Component.name := by
  induction l with
  | nil => simp [putComponent]
  | cons d r ih =>
    unfold putComponent
    split
    · rename_i h; simp [h]
    · simp only [List.map_cons, List.mem_cons, ih]; exact or_left_comm

theorem nodup_putComponent {c : Component} {l : List Component}
    (h : (l.map Component.name).Nodup) : ((putComponent c l).map Component.name).Nodup := by
  induction l with
  | nil => simp [putComponent]
  | cons d r ih =>
    simp only [List.map_cons, List.nodup_cons] at h
    unfold putComponent
    split
    · rename_i e; simpa [← e] using h
    · rename_i e
      simp only [List.map_cons, List.nodup_cons, mem_names_putComponent, not_or]
      exact ⟨⟨e, h.1⟩, ih h.2⟩

/-- Components in order, each name once. -/
structure Catalog where
  components : List Component
  distinct : (components.map Component.name).Nodup

namespace Catalog

inductive Error where
  | notJson
  | rootNotObject
  | entryNotObject (name : String)
  | noDocumentation (name : String)
  | oddType (name : String) (value : Json)
  | unreadable (path reason : String)

def Error.message : Error → String
  | notJson => "Invalid JSON"
  | rootNotObject => "Catalog root must be an object keyed by component name"
  | entryNotObject name => "Entry '" ++ name ++ "' is not an object"
  | noDocumentation name => "Entry '" ++ name ++ "' has no string 'documentation' field"
  | oddType name value => "Entry '" ++ name ++ "' has a non-string 'type': " ++ value.compact
  | unreadable path reason => "Cannot read " ++ path ++ ": " ++ reason

def empty : Catalog := ⟨[], by simp⟩

instance : Inhabited Catalog := ⟨empty⟩

/-- The catalog with a component added or replaced in place. -/
def put (k : Catalog) (c : Component) : Catalog :=
  ⟨putComponent c k.components, nodup_putComponent k.distinct⟩

/-- The catalog of a list: each name at its first place, with its last component. -/
def ofList (l : List Component) : Catalog := l.foldl put empty

def get? (k : Catalog) (name : String) : Option Component :=
  k.components.find? (·.name = name)

def names (k : Catalog) : List String := k.components.map (·.name)

def size (k : Catalog) : Nat := k.components.length

def componentOf (name : String) : Json → Except Error Component
  | .obj fields =>
    match fields.lookup "documentation" with
    | some (.str documentation) =>
      match fields.lookup "type" with
      | none | some .null => .ok ⟨name, documentation, none⟩
      | some (.str kind) => .ok ⟨name, documentation, some kind⟩
      | some other => .error (.oddType name other)
    | _ => .error (.noDocumentation name)
  | _ => .error (.entryNotObject name)

/-- The catalog that a JSON value describes; the first bad entry decides the error. -/
def ofJson : Json → Except Error Catalog
  | .obj entries => do return ofList (← entries.mapM fun (name, entry) => componentOf name entry)
  | _ => .error .rootNotObject

def ofText (text : String) : Except Error Catalog :=
  match Json.parse? text with
  | some v => ofJson v.canonical
  | none => .error .notJson

end Catalog

end Scriptorium
