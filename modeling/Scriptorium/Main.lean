import Std.Time.DateTime.Timestamp
import Scriptorium.CommandLine.Program

/-!
# The executable

Fetches the files that an invocation reads, carries it out, and writes the files that it leaves.
-/

namespace Scriptorium.CommandLine

open Archive

def fetch (path : String) : IO Content := do
  try
    let bytes ← IO.FS.readBinFile path
    return match String.fromUTF8? bytes with
      | some text => .ok text
      | none => .error .notText
  catch e =>
    return match e with
      | .noFileOrDirectory _ _ _ => .error (.system .notFound)
      | .inappropriateType _ _ _ => .error (.system .isDirectory)
      | e => .error (.other (toString e))

/-- The files and directories below a directory. -/
def existing (root : String) : IO FileTree := do
  let top := (← IO.currentDir) / root
  if !(← top.isDir) then
    if ← top.pathExists then return ({} : FileTree).put (Path.parts root) ""
    return {}
  let mut tree : FileTree := {}
  for path in ← top.walkDir do
    let below := (path.toString.toList.drop (top.toString.length + 1))
    let parts := Path.parts (Path.join root (String.ofList below))
    if ← path.isDir then
      tree := ⟨tree.nodes.insert (FileTree.settle parts) .directory⟩
    else
      tree := tree.put parts ""
  return tree

/-- Writes the files that are in one tree and not in another. -/
def leave (root : String) (before after : FileTree) : IO Unit := do
  let start := if root.toList.head? == some '/' then "/" else ""
  for (parts, node) in after.nodes.toList do
    if before.nodes.contains parts then continue
    match node with
    | .directory => IO.FS.createDirAll (start ++ "/".intercalate parts)
    | .file content =>
      IO.FS.createDirAll (start ++ "/".intercalate parts.dropLast)
      IO.FS.writeBinFile (start ++ "/".intercalate parts) content

/-- The present moment. -/
def presentTime : IO Timestamp := do
  let nanos := (← Std.Time.Timestamp.now).toNanosecondsSinceUnixEpoch.val
  return ⟨nanos.fdiv 1000000000, (nanos.fmod 1000000000).toNat⟩

/-- A new name for a run: a random one of the fourth version. -/
def newRun : IO RunId := do
  let bytes ← IO.getRandomBytes 16
  let digits := bytes.toList.flatMap fun b =>
    [Nat.digitChar (b.toNat / 16), Nat.digitChar (b.toNat % 16)]
  let variant := match digits[16]? with
    | some c => Nat.digitChar (8 + c.toNat % 4)
    | none => '8'
  return ⟨(digits.set 12 '4').set 16 variant⟩

def carryOut (args : List String) : IO UInt32 := do
  let sources := match Invocation.ofArguments args with
    | .ok i => i.sources
    | .error _ => []
  let contents ← sources.mapM fun path => do return (path, ← fetch path)
  let read := fun path => (contents.lookup path).getD (.error (.system .notFound))
  let empty : World := { read := read, tree := {}, time := ← presentTime, run := ← newRun }
  let root := match Invocation.ofArguments args with
    | .ok i => outputRoot? empty i
    | .error _ => none
  let tree ← match root with
    | some root => existing root
    | none => pure {}
  let e := execute { empty with tree := tree } args
  leave (root.getD "") tree e.tree
  IO.print e.out
  unless e.err == "" do IO.eprintln e.err
  return UInt32.ofNat e.exit

end Scriptorium.CommandLine

def main (args : List String) : IO UInt32 := Scriptorium.CommandLine.carryOut args
