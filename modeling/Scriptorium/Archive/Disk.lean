import Scriptorium.Archive.Store
import Scriptorium.Archive.FileTree

/-!
# Stores on disk

Below its root a store on disk has a directory for checkpoints, one for snapshots with a directory
for each component, and one for drawings; documents lie in the root itself.  A file is only ever
made, never replaced: when a name is taken, the next numbered form of it is tried.
-/

namespace Scriptorium.Archive

/-- The names of the directories below the root. -/
structure Layout where
  checkpoints : String := "checkpoints"
  sections : String := "sections"
  diagrams : String := "diagrams"
  deriving Repr, DecidableEq

instance : Inhabited Layout := ⟨{}⟩

/-- A root, a layout and the files. -/
structure Disk where
  rootPath : String
  layout : Layout := {}
  tree : FileTree := {}

namespace Disk

/-- How many forms of a name are tried. -/
def maxVersions : Nat := 10000

def checkpointDir (d : Disk) : String := Path.join d.rootPath d.layout.checkpoints

def sectionDir (d : Disk) : String := Path.join d.rootPath d.layout.sections

def diagramDir (d : Disk) : String := Path.join d.rootPath d.layout.diagrams

/-- Makes a file under the first form of a name, from `n` on, that is free, among `fuel`. -/
def createFree (t : FileTree) (dir name : String) (content : ByteArray) :
    Nat → Nat → Except Fault (String × FileTree)
  | 0, _ => .error (.noFreeName name dir maxVersions)
  | fuel + 1, n =>
    let path := Path.join dir (versioned name n)
    match t.createNew (Path.parts path) content with
    | .ok t => .ok (path, t)
    | .error .exists_ => createFree t dir name content fuel (n + 1)
    | .error e => .error (.cannotCreate path e)

/-- Makes a file in a directory, which is made if it is missing. -/
def writeNew (d : Disk) (dir name : String) (content : ByteArray) : Except Fault String × Disk :=
  match d.tree.makeAll (Path.parts dir).reverse with
  | (t, .error e) => (.error (.cannotCreate dir e), { d with tree := t })
  | (t, .ok ()) =>
    match createFree t dir name content maxVersions 0 with
    | .error f => (.error f, { d with tree := t })
    | .ok (path, t) => (.ok path, { d with tree := t })

def saveCheckpoint (d : Disk) (c : Checkpoint) : Except Fault String × Disk :=
  d.writeNew d.checkpointDir c.fileName c.text.toUTF8

def saveSnapshot (d : Disk) (s : Snapshot) : Except Fault String × Disk :=
  d.writeNew (Path.join d.sectionDir s.directory) s.fileName s.content.toUTF8

def saveDocument (d : Disk) (name content : String) : Except Fault String × Disk :=
  d.writeNew d.rootPath (sanitize name) content.toUTF8

/-- Keeps a drawing; a part that fails leaves the parts before it. -/
def saveDrawing (d : Disk) (g : Drawing) : Except Fault DrawingPaths × Disk :=
  match d.writeNew d.diagramDir g.sourceName g.source.toUTF8 with
  | (.error f, d) => (.error f, d)
  | (.ok source, d) =>
    match d.writeNew d.diagramDir g.descriptionName g.description.toUTF8 with
    | (.error f, d) => (.error f, d)
    | (.ok description, d) =>
      match g.fragments with
      | none => (.ok ⟨source, description, none⟩, d)
      | some text =>
        match d.writeNew d.diagramDir g.fragmentsName text.toUTF8 with
        | (.error f, d) => (.error f, d)
        | (.ok fragments, d) => (.ok ⟨source, description, some fragments⟩, d)

/-- Reads the checkpoints among some entries of a directory; files that hold none are skipped. -/
def readCheckpoints (t : FileTree) (dir : List String) :
    List String → Except Fault (List Checkpoint)
  | [] => .ok []
  | name :: rest =>
    if hasExtension "json" name then
      match t.read (dir ++ [name]) with
      | .error e => .error (.cannotRead e)
      | .ok content =>
        match Checkpoint.ofBytes? content with
        | some c => (readCheckpoints t dir rest).map (c :: ·)
        | none => readCheckpoints t dir rest
    else readCheckpoints t dir rest

/-- All checkpoints, the oldest first; a directory that is not there holds none. -/
def loadCheckpoints (d : Disk) : Except Fault (List Checkpoint) :=
  match d.tree.entriesAt d.checkpointDir with
  | .error .notFound => .ok []
  | .error e => .error (.cannotRead e)
  | .ok names => (readCheckpoints d.tree (Path.parts d.checkpointDir) names).map inOrder

instance : Store Disk where
  root d := d.rootPath
  saveCheckpoint := saveCheckpoint
  saveSnapshot := saveSnapshot
  saveDocument := saveDocument
  saveDrawing := saveDrawing
  loadCheckpoints := loadCheckpoints

end Disk

end Scriptorium.Archive
