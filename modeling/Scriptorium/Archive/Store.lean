import Scriptorium.Archive.Artifact
import Scriptorium.Archive.Fault

/-!
# Stores

A store keeps artifacts and answers where it put them, or why it could not.  Keeping something may
change a store also when it fails.
-/

namespace Scriptorium.Archive

/-- What a store can do. -/
class Store (σ : Type) where
  /-- A name of the place where artifacts go. -/
  root : σ → String
  /-- Keeps a checkpoint. -/
  saveCheckpoint : σ → Checkpoint → Except Fault String × σ
  /-- Keeps a snapshot. -/
  saveSnapshot : σ → Snapshot → Except Fault String × σ
  /-- Keeps a document under a name or a numbered form of it. -/
  saveDocument : σ → String → String → Except Fault String × σ
  /-- Keeps the parts of a drawing. -/
  saveDrawing : σ → Drawing → Except Fault DrawingPaths × σ
  /-- All checkpoints, the oldest first. -/
  loadCheckpoints : σ → Except Fault (List Checkpoint)

/-- Checkpoints in the order of time; those of one moment keep their order. -/
def inOrder (l : List Checkpoint) : List Checkpoint := l.mergeSort fun a b => a.time.le b.time

end Scriptorium.Archive
