import Scriptorium.Taxonomy
import Scriptorium.Text.Ordered

/-!
# Manuscripts

A manuscript holds the text of every section of a taxonomy.  Its sections are fixed when it is
made; only their texts change.
-/

namespace Scriptorium

/-- The text of each section, in the order of the taxonomy. -/
structure Manuscript where
  texts : List (String × String)
  deriving Repr, DecidableEq, Inhabited

namespace Manuscript

/-- The empty text for every section, each section once. -/
def ofTaxonomy (t : Taxonomy) : Manuscript :=
  ⟨t.sectionIds.eraseDups.map fun id => (id, "")⟩

def get? (m : Manuscript) (id : String) : Option String := m.texts.lookup id

def contains (m : Manuscript) (id : String) : Bool := (m.get? id).isSome

def sections (m : Manuscript) : List String := m.texts.map (·.1)

/-- Replaces the text of a section, or fails if there is no such section. -/
def replace? (m : Manuscript) (id text : String) : Option Manuscript :=
  if m.contains id then some ⟨m.texts.map fun (k, v) => (k, if k = id then text else v)⟩ else none

def size (m : Manuscript) : Nat := m.texts.length

/-- The number of sections whose text is not blank. -/
def populated (m : Manuscript) : Nat := m.texts.countP fun (_, v) => !Text.blank v

/-- The length of every text in characters, by section in order. -/
def lengths (m : Manuscript) : List (String × Nat) :=
  Text.tableOf (m.texts.map fun (k, v) => (k, v.length))

end Manuscript

end Scriptorium
