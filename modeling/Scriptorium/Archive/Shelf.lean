import Scriptorium.Archive.Store
import Scriptorium.Archive.Path

/-!
# Shelves

A shelf is a store in memory.  It keeps checkpoints and snapshots as they are and documents and
drawings as files under names that are never used twice.  It can be told to fail.
-/

namespace Scriptorium.Archive

/-- Artifacts in the order in which they came, and files by path. -/
structure Shelf where
  checkpoints : List Checkpoint := []
  snapshots : List Snapshot := []
  files : List (String × String) := []
  failCheckpoints : Bool := false
  failSnapshots : Bool := false
  deriving Repr, DecidableEq, Inhabited

namespace Shelf

/-- A path in a directory; the top directory has no name. -/
def pathIn (dir name : String) : String := if dir = "" then name else dir ++ "/" ++ name

/-- The first numbered form of a name, from `n` on, that is free, among `fuel` of them. -/
def freePath (s : Shelf) (dir name : String) : Nat → Nat → String
  | 0, n => pathIn dir (versioned name n)
  | fuel + 1, n =>
    let path := pathIn dir (versioned name n)
    if s.files.any (·.1 = path) then freePath s dir name fuel (n + 1) else path

/-- Keeps a file under the first free form of a name. -/
def insertNew (s : Shelf) (dir name content : String) : String × Shelf :=
  let path := s.freePath dir name s.files.length 0
  (path, { s with files := s.files ++ [(path, content)] })

def saveCheckpoint (s : Shelf) (c : Checkpoint) : Except Fault String × Shelf :=
  if s.failCheckpoints then (.error (.injected "checkpoint"), s)
  else (.ok ("checkpoints/" ++ c.fileName), { s with checkpoints := s.checkpoints ++ [c] })

def saveSnapshot (s : Shelf) (n : Snapshot) : Except Fault String × Shelf :=
  if s.failSnapshots then (.error (.injected "snapshot"), s)
  else (.ok ("sections/" ++ n.path), { s with snapshots := s.snapshots ++ [n] })

def saveDocument (s : Shelf) (name content : String) : Except Fault String × Shelf :=
  let (path, s) := s.insertNew "" (sanitize name) content
  (.ok path, s)

def saveDrawing (s : Shelf) (d : Drawing) : Except Fault DrawingPaths × Shelf :=
  let (source, s) := s.insertNew "diagrams" d.sourceName d.source
  let (description, s) := s.insertNew "diagrams" d.descriptionName d.description
  match d.fragments with
  | none => (.ok ⟨source, description, none⟩, s)
  | some f =>
    let (fragments, s) := s.insertNew "diagrams" d.fragmentsName f
    (.ok ⟨source, description, some fragments⟩, s)

def file? (s : Shelf) (path : String) : Option String :=
  (s.files.find? fun (p, _) => Path.named p = Path.named path).map (·.2)

instance : Store Shelf where
  root _ := "memory://"
  saveCheckpoint := saveCheckpoint
  saveSnapshot := saveSnapshot
  saveDocument := saveDocument
  saveDrawing := saveDrawing
  loadCheckpoints s := .ok (inOrder s.checkpoints)

end Shelf

end Scriptorium.Archive
