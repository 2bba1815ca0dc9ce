import Scriptorium.Archive.Disk
import Scriptorium.Archive.Shelf
import Scriptorium.Proofs.Store

/-! # Calls on a store

A call gives one artifact to a store and is answered with the paths of the files that were made. On
disk and on a shelf, what calls do comes down to files made one after the other.
-/

namespace Scriptorium.Archive

inductive Call where
  | checkpoint (c : Checkpoint)
  | snapshot (n : Snapshot)
  | document (name text : String)
  | drawing (g : Drawing)

def DrawingPaths.all (p : DrawingPaths) : List String :=
  [p.source, p.description] ++ p.fragments.toList

namespace Store

variable {σ : Type} [Store σ]

def perform (a : σ) : Call → Except Fault (List String) × σ
  | .checkpoint c => ((saveCheckpoint a c).1.map ([·]), (saveCheckpoint a c).2)
  | .snapshot n => ((saveSnapshot a n).1.map ([·]), (saveSnapshot a n).2)
  | .document name text => ((saveDocument a name text).1.map ([·]), (saveDocument a name text).2)
  | .drawing g => ((saveDrawing a g).1.map DrawingPaths.all, (saveDrawing a g).2)

def performAll (a : σ) : List Call → List (Except Fault (List String)) × σ
  | [] => ([], a)
  | call :: calls =>
    ((perform a call).1 :: (performAll (perform a call).2 calls).1,
      (performAll (perform a call).2 calls).2)

end Store

/-! ## On disk -/

structure Job where
  dir : String
  name : String
  content : ByteArray

def Job.path (j : Job) (n : Nat) : String := Path.join j.dir (versioned j.name n)

def Call.jobs (d : Disk) : Call → List Job
  | .checkpoint c => [⟨d.checkpointDir, c.fileName, c.text.toUTF8⟩]
  | .snapshot n => [⟨Path.join d.sectionDir n.directory, n.fileName, n.content.toUTF8⟩]
  | .document name text => [⟨d.rootPath, sanitize name, text.toUTF8⟩]
  | .drawing g =>
    [⟨d.diagramDir, g.sourceName, g.source.toUTF8⟩,
      ⟨d.diagramDir, g.descriptionName, g.description.toUTF8⟩]
      ++ g.fragments.toList.map fun text => ⟨d.diagramDir, g.fragmentsName, text.toUTF8⟩

namespace Disk

def writeAll (d : Disk) : List Job → Except Fault (List String) × Disk
  | [] => (.ok [], d)
  | j :: jobs =>
    match d.writeNew j.dir j.name j.content with
    | (.error fault, d) => (.error fault, d)
    | (.ok path, d) => ((d.writeAll jobs).1.map (path :: ·), (d.writeAll jobs).2)

/-- A write changes only the files. -/
theorem writeNew_eq (d : Disk) (dir name : String) (content : ByteArray) :
    ∃ answer t, d.writeNew dir name content = (answer, { d with tree := t }) := by
  unfold writeNew
  rcases d.tree.makeAll (Path.parts dir).reverse with ⟨t, e | _⟩
  · exact ⟨_, _, rfl⟩
  · dsimp only
    rcases createFree t dir name content maxVersions 0 with fault | ⟨path, u⟩
    · exact ⟨_, _, rfl⟩
    · exact ⟨_, _, rfl⟩

theorem writeAll_eq (d : Disk) (jobs : List Job) :
    ∃ answer t, d.writeAll jobs = (answer, { d with tree := t }) := by
  induction jobs generalizing d with
  | nil => exact ⟨_, _, rfl⟩
  | cons j jobs ih =>
      obtain ⟨answer, t, h⟩ := d.writeNew_eq j.dir j.name j.content
      unfold writeAll
      rw [h]
      cases answer with
      | error fault => exact ⟨_, _, rfl⟩
      | ok path =>
          obtain ⟨rest, u, hrest⟩ := ih { d with tree := t }
          dsimp only
          rw [hrest]
          exact ⟨_, _, rfl⟩

theorem writeAll_one (d : Disk) (j : Job) :
    d.writeAll [j] = ((d.writeNew j.dir j.name j.content).1.map ([·]),
      (d.writeNew j.dir j.name j.content).2) := by
  unfold writeAll
  rcases d.writeNew j.dir j.name j.content with ⟨fault | path, e⟩ <;> rfl

/-- A call makes its files. -/
theorem perform_eq (d : Disk) (call : Call) : Store.perform d call = d.writeAll (call.jobs d) := by
  cases call with
  | checkpoint c =>
      rw [Call.jobs, writeAll_one]
      simp only [Store.perform, Store.saveCheckpoint, saveCheckpoint]
  | snapshot n =>
      rw [Call.jobs, writeAll_one]
      simp only [Store.perform, Store.saveSnapshot, saveSnapshot]
  | document name text =>
      rw [Call.jobs, writeAll_one]
      simp only [Store.perform, Store.saveDocument, saveDocument]
  | drawing g =>
      change ((d.saveDrawing g).1.map DrawingPaths.all, (d.saveDrawing g).2) = _
      unfold saveDrawing
      simp only [Call.jobs, List.cons_append, List.nil_append, writeAll]
      obtain ⟨source, t, hsource⟩ := d.writeNew_eq d.diagramDir g.sourceName g.source.toUTF8
      rw [hsource]
      cases source with
      | error fault => rfl
      | ok source =>
          obtain ⟨description, u, hdescription⟩ := Disk.writeNew_eq { d with tree := t } d.diagramDir
            g.descriptionName g.description.toUTF8
          dsimp only [diagramDir] at hdescription ⊢
          rw [hdescription]
          cases description with
          | error fault => rfl
          | ok description =>
              dsimp only
              cases g.fragments with
              | none => rfl
              | some text =>
                  simp only [Option.toList_some, List.map_cons, List.map_nil, writeAll_one]
                  rcases Disk.writeNew { d with tree := u } (Path.join d.rootPath d.layout.diagrams)
                    g.fragmentsName text.toUTF8 with ⟨fault | fragments, e⟩ <;> rfl

end Disk

/-! ## On a shelf -/

structure Filing where
  dir : String
  name : String
  text : String

def Call.filings : Call → List Filing
  | .checkpoint _ => []
  | .snapshot _ => []
  | .document name text => [⟨"", sanitize name, text⟩]
  | .drawing g =>
    [⟨"diagrams", g.sourceName, g.source⟩, ⟨"diagrams", g.descriptionName, g.description⟩]
      ++ g.fragments.toList.map fun text => ⟨"diagrams", g.fragmentsName, text⟩

namespace Shelf

def fileAll (s : Shelf) : List Filing → List String × Shelf
  | [] => ([], s)
  | f :: filings =>
    ((s.insertNew f.dir f.name f.text).1 :: ((s.insertNew f.dir f.name f.text).2.fileAll filings).1,
      ((s.insertNew f.dir f.name f.text).2.fileAll filings).2)

/-- A call files what it has to file. -/
theorem perform_files (s : Shelf) (call : Call) :
    (Store.perform s call).2.files = (s.fileAll call.filings).2.files := by
  cases call with
  | checkpoint c =>
      change (s.saveCheckpoint c).2.files = s.files
      unfold saveCheckpoint
      split <;> rfl
  | snapshot n =>
      change (s.saveSnapshot n).2.files = s.files
      unfold saveSnapshot
      split <;> rfl
  | document name text => rfl
  | drawing g =>
      change (s.saveDrawing g).2.files = _
      simp only [saveDrawing, Call.filings]
      cases g.fragments <;> rfl

theorem perform_answer (s : Shelf) (call : Call) (h : call.filings ≠ []) :
    (Store.perform s call).1 = .ok (s.fileAll call.filings).1 := by
  cases call with
  | checkpoint c => exact absurd rfl h
  | snapshot n => exact absurd rfl h
  | document name text => rfl
  | drawing g =>
      change (s.saveDrawing g).1.map DrawingPaths.all = _
      simp only [saveDrawing, Call.filings]
      cases g.fragments <;> rfl

end Shelf

end Scriptorium.Archive
