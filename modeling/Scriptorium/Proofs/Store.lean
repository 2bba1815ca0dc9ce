import Scriptorium.Archive.Shelf

/-! # What becomes of a store

A run only ever changes its store by giving artifacts to it. Two runs that give the same artifacts,
apart from names and times, take their stores alongside, whatever each of the two keeps.
-/

namespace Scriptorium.Archive

/-! ## Artifacts apart from names and times -/

def Checkpoint.undated (c : Checkpoint) : Checkpoint :=
  { c with run := default, time := default }

def Snapshot.undated (n : Snapshot) : Snapshot := { n with time := default }

def Drawing.undated (d : Drawing) : Drawing := { d with time := default }

def DrawingPaths.unnamed (d : DrawingPaths) : DrawingPaths where
  source := ""
  description := ""
  fragments := d.fragments.map fun _ => ""

namespace Store

variable {σ τ : Type} [Store σ] [Store τ]

/-! ## One store -/

/-- The stores that a store becomes when artifacts are given to it, kept or not. -/
inductive Becomes (a : σ) : σ → Prop where
  | same : Becomes a a
  | checkpoint {b : σ} (c : Checkpoint) : Becomes a b → Becomes a (saveCheckpoint b c).2
  | snapshot {b : σ} (n : Snapshot) : Becomes a b → Becomes a (saveSnapshot b n).2
  | document {b : σ} (name text : String) : Becomes a b → Becomes a (saveDocument b name text).2
  | drawing {b : σ} (d : Drawing) : Becomes a b → Becomes a (saveDrawing b d).2

theorem Becomes.trans {a b c : σ} (hab : Becomes a b) (hbc : Becomes b c) : Becomes a c := by
  induction hbc with
  | same => exact hab
  | checkpoint r _ ih => exact .checkpoint r ih
  | snapshot n _ ih => exact .snapshot n ih
  | document name text _ ih => exact .document name text ih
  | drawing d _ ih => exact .drawing d ih

/-- A way to read snapshots back in the order in which they came: one that was kept comes last, and
nothing else makes a difference. -/
structure Reading (read : σ → List Snapshot) : Prop where
  snapshot : ∀ a n, (saveSnapshot a n).1.isOk = true → read (saveSnapshot a n).2 = read a ++ [n]
  checkpoint : ∀ a c, read (saveCheckpoint a c).2 = read a
  document : ∀ a name text, read (saveDocument a name text).2 = read a
  drawing : ∀ a d, read (saveDrawing a d).2 = read a

/-- Stores that keep a document of some name, under one path, and a drawing of some times after it,
whatever checkpoints and snapshots they are given: those that may be given the document, and those
that may be given the drawing. -/
structure Sure (name path : String) (times : Timestamp → Prop) (before after : σ → Prop) :
    Prop where
  checkpoint : ∀ a c, before a → before (saveCheckpoint a c).2
  snapshot : ∀ a n, before a → before (saveSnapshot a n).2
  checkpointAfter : ∀ a c, after a → after (saveCheckpoint a c).2
  later : ∀ a, before a → after a
  document : ∀ a text, before a →
    (saveDocument a name text).1 = .ok path ∧ after (saveDocument a name text).2
  drawing : ∀ a d, after a → times d.time →
    (saveDrawing a d).1.map DrawingPaths.unnamed = .ok ⟨"", "", d.fragments.map fun _ => ""⟩

/-! ## Two stores -/

/-- What two stores become when each is given the same artifacts, apart from names and times, and
keeps or fails to keep them in its own way. -/
inductive Alongside (a : σ) (b : τ) : σ → τ → Prop where
  | same : Alongside a b a b
  | checkpoint {x : σ} {y : τ} (c d : Checkpoint) (h : c.undated = d.undated) :
      Alongside a b x y → Alongside a b (saveCheckpoint x c).2 (saveCheckpoint y d).2
  | snapshot {x : σ} {y : τ} (m n : Snapshot) (h : m.undated = n.undated) :
      Alongside a b x y → Alongside a b (saveSnapshot x m).2 (saveSnapshot y n).2
  | document {x : σ} {y : τ} (name text : String) :
      Alongside a b x y → Alongside a b (saveDocument x name text).2 (saveDocument y name text).2
  | drawing {x : σ} {y : τ} (d e : Drawing) (h : d.undated = e.undated) :
      Alongside a b x y → Alongside a b (saveDrawing x d).2 (saveDrawing y e).2

end Store

/-! ## Shelves -/

/-- A shelf keeps documents and drawings even when it is told to fail. -/
theorem Shelf.saveDocument_isOk (s : Shelf) (name text : String) :
    (Store.saveDocument s name text).1.isOk = true := rfl

theorem Shelf.saveDrawing_isOk (s : Shelf) (d : Drawing) :
    (Store.saveDrawing s d).1.isOk = true := by
  change (s.saveDrawing d).1.isOk = true
  unfold saveDrawing
  cases d.fragments <;> rfl

/-- Snapshots can be read off a shelf. -/
theorem Shelf.reading : Store.Reading Shelf.snapshots where
  snapshot s n hkept := by
    change (s.saveSnapshot n).2.snapshots = s.snapshots ++ [n]
    change (s.saveSnapshot n).1.isOk = true at hkept
    unfold saveSnapshot at hkept ⊢
    by_cases hfail : s.failSnapshots = true
    · rw [if_pos hfail] at hkept
      cases hkept
    · rw [if_neg hfail]
  checkpoint s c := by
    change (s.saveCheckpoint c).2.snapshots = s.snapshots
    unfold saveCheckpoint
    split <;> rfl
  document _ _ _ := rfl
  drawing s d := by
    change (s.saveDrawing d).2.snapshots = s.snapshots
    unfold saveDrawing
    cases d.fragments <;> rfl

end Scriptorium.Archive
