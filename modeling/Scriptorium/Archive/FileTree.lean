import Std.Data.HashMap
import Scriptorium.Archive.Fault
import Scriptorium.Archive.Path

/-!
# Trees of files

A tree of directories and files with the few operations that a store on disk needs: making a
directory with those above it, making a file that is not there yet, listing and reading.  Each
fails for the reasons of the operating system, found in the order in which a path is walked.
-/

namespace Scriptorium.Archive

/-- What is at a path; a file is its bytes, which need not be a text. -/
inductive FileNode where
  | directory
  | file (content : ByteArray)
  deriving Inhabited

instance : DecidableEq FileNode
  | .directory, .directory => isTrue rfl
  | .directory, .file _ => isFalse nofun
  | .file _, .directory => isFalse nofun
  | .file a, .file b =>
    match ByteArray.instDecidableEq a b with
    | isTrue h => isTrue (congrArg FileNode.file h)
    | isFalse h => isFalse fun heq => h (FileNode.file.inj heq)

/-- The nodes by their paths from the current directory, which is always there, as are those above
it. -/
structure FileTree where
  nodes : Std.HashMap (List String) FileNode := {}

instance : Inhabited FileTree := ⟨{}⟩

namespace FileTree

def get? (t : FileTree) (path : List String) : Option FileNode :=
  if path.all (· = "..") then some .directory else t.nodes[path]?

def step (here : List String) (part : String) : List String :=
  if part = "." then here
  else if part = ".." then (if here.all (· = "..") then here ++ [".."] else here.dropLast)
  else here ++ [part]

/-- The path that parts lead to: steps up stand in front only. -/
def settle (parts : List String) : List String := parts.foldl step []

/-- Whether a part is too long for a name. -/
def tooLong (part : String) : Bool := 255 < part.utf8ByteSize

/-- Walks parts from a directory through directories: the path that is reached. -/
def walk (t : FileTree) (here : List String) : List String → Except OsError (List String)
  | [] => .ok here
  | part :: rest =>
    match t.get? here with
    | none => .error .notFound
    | some (.file _) => .error .notDirectory
    | some .directory =>
      if tooLong part then .error .nameTooLong else walk t (step here part) rest

/-- Makes a directory whose parent is there. -/
def makeDirectory (t : FileTree) (parts : List String) : Except OsError FileTree := do
  let path ← t.walk [] parts
  match t.get? path with
  | some _ => .error .exists_
  | none => .ok ⟨t.nodes.insert path .directory⟩

def isDirectory (t : FileTree) (parts : List String) : Bool :=
  match t.walk [] parts with
  | .ok path => t.get? path == some .directory
  | .error _ => false

/-- Makes a directory and those above it that are missing; `parts` are the parts from the last to
the first. -/
def makeAll (t : FileTree) (parts : List String) : FileTree × Except OsError Unit :=
  match parts with
  | [] => (t, .ok ())
  | last :: rest =>
    let again (t : FileTree) : FileTree × Except OsError Unit :=
      match t.makeDirectory (last :: rest).reverse with
      | .ok t => (t, .ok ())
      | .error e => if t.isDirectory (last :: rest).reverse then (t, .ok ()) else (t, .error e)
    match t.makeDirectory (last :: rest).reverse with
    | .error .notFound =>
      match makeAll t (Path.above (last :: rest)) with
      | (t, .error e) => (t, .error e)
      | (t, .ok ()) => again t
    | _ => again t
termination_by parts.length
decreasing_by exact Path.length_above_cons last rest

def createNew (t : FileTree) (parts : List String) (content : ByteArray) :
    Except OsError FileTree := do
  let path ← t.walk [] parts
  match t.get? path with
  | some _ => .error .exists_
  | none => .ok ⟨t.nodes.insert path (.file content)⟩

def read (t : FileTree) (parts : List String) : Except OsError ByteArray := do
  let path ← t.walk [] parts
  match t.get? path with
  | some (.file content) => .ok content
  | some .directory => .error .isDirectory
  | none => .error .notFound

/-- The text of the file at a path; the empty path leads nowhere, and one that ends in a slash to no
file. -/
def readPath (t : FileTree) (path : String) : Except OsError String := do
  if path = "" then .error .notFound
  else
    let bytes ←
      t.read (Path.parts path ++ if path.toList.getLast? = some '/' then ["."] else [])
    match String.fromUTF8? bytes with
    | some text => .ok text
    | none => .error .notText

def entries (t : FileTree) (parts : List String) : Except OsError (List String) := do
  let path ← t.walk [] parts
  match t.get? path with
  | some (.file _) => .error .notDirectory
  | none => .error .notFound
  | some .directory =>
    let names := t.nodes.keys.filterMap fun k =>
      if k.dropLast = path then k.getLast? else none
    .ok (names.mergeSort fun a b => decide (a ≤ b))

/-- The names in the directory at a path; the empty path leads nowhere. -/
def entriesAt (t : FileTree) (path : String) : Except OsError (List String) :=
  if path = "" then .error .notFound else t.entries (Path.parts path)

/-- All files below a path with their texts, by their paths relative to it, in order; one that holds
no text shows none. -/
def filesBelow (t : FileTree) (parts : List String) : List (String × String) :=
  let found := t.nodes.toList.filterMap fun (k, n) =>
    match n with
    | .file content =>
      if k.take parts.length = parts ∧ parts.length < k.length then
        some ("/".intercalate (k.drop parts.length), (String.fromUTF8? content).getD "")
      else none
    | .directory => none
  found.mergeSort fun a b => decide (a.1 ≤ b.1)

/-- Puts a file at a path, with the directories above it, whatever was there. -/
def put (t : FileTree) (parts : List String) (content : String) : FileTree :=
  let path := settle parts
  let dirs := (List.range (path.length - 1)).map fun i => path.take (i + 1)
  ⟨(dirs.foldl (fun m d => m.insertIfNew d .directory) t.nodes).insert path (.file content.toUTF8)⟩

end FileTree

end Scriptorium.Archive
