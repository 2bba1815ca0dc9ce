import Mathlib.Data.List.Forall2
import Scriptorium.Proofs.Archive.Naming
import Scriptorium.Proofs.Store

/-! # Stores that fail now and then

A fitful store keeps checkpoints and snapshots or fails to keep them by a pattern. Over one shelf,
any two patterns make no difference to documents and drawings: documents lie at the top, where
neither drawings nor what else was kept can take their names.
-/

namespace Scriptorium.Archive

namespace Shelf

variable {a b : Shelf} {dir name content : String}

theorem slash_mem_freePath (hdir : dir ≠ "") (fuel n : Nat) :
    '/' ∈ (a.freePath dir name fuel n).toList := by
  have hpath (m : Nat) : '/' ∈ (pathIn dir (versioned name m)).toList := by
    simp [pathIn, hdir]
  induction fuel generalizing n with
  | zero => exact hpath n
  | succ fuel ih =>
      unfold freePath
      dsimp only
      split
      · exact ih (n + 1)
      · exact hpath n

theorem saveDrawing_unnamed (a : Shelf) (d : Drawing) :
    (a.saveDrawing d).1.map DrawingPaths.unnamed = .ok ⟨"", "", d.fragments.map fun _ => ""⟩ := by
  unfold saveDrawing
  cases d.fragments <;> rfl

/-- The same content under the same path, or under two paths below a directory. -/
def SameFile (f g : String × String) : Prop :=
  f.2 = g.2 ∧ (f.1 = g.1 ∨ '/' ∈ f.1.toList ∧ '/' ∈ g.1.toList)

def SameFiles (a b : Shelf) : Prop := List.Forall₂ SameFile a.files b.files

namespace SameFiles

theorem refl (a : Shelf) : SameFiles a a :=
  List.forall₂_same.mpr fun _ _ => ⟨rfl, .inl rfl⟩

theorem any_eq (h : SameFiles a b) {path : String} (hpath : '/' ∉ path.toList) :
    a.files.any (·.1 = path) = b.files.any (·.1 = path) := by
  -- Two paths that differ both lie below a directory, and the path that is looked for does not.
  have hkey {f g : String × String} (hfg : SameFile f g) : (f.1 = path) ↔ (g.1 = path) := by
    rcases hfg.2 with heq | ⟨hf, hg⟩
    · rw [heq]
    · exact ⟨fun he => absurd (he ▸ hf) hpath, fun he => absurd (he ▸ hg) hpath⟩
  have hany {fs gs : List (String × String)} (hfiles : List.Forall₂ SameFile fs gs) :
      fs.any (·.1 = path) = gs.any (·.1 = path) := by
    induction hfiles with
    | nil => rfl
    | cons hfg _ ih => simp only [List.any_cons, ih, hkey hfg]
  exact hany h

/-- A document gets the same name on both. -/
theorem freePath_eq (h : SameFiles a b) (hname : '/' ∉ name.toList) (fuel n : Nat) :
    a.freePath "" name fuel n = b.freePath "" name fuel n := by
  induction fuel generalizing n with
  | zero => rfl
  | succ fuel ih =>
      unfold freePath
      have hpath : '/' ∉ (pathIn "" (versioned name n)).toList := by
        simpa [pathIn] using slash_notMem_versioned hname n
      simp only [h.any_eq hpath, ih]

theorem insertNew_top (h : SameFiles a b) (hname : '/' ∉ name.toList) (content : String) :
    (a.insertNew "" name content).1 = (b.insertNew "" name content).1 ∧
      SameFiles (a.insertNew "" name content).2 (b.insertNew "" name content).2 := by
  have hpath : a.freePath "" name a.files.length 0 = b.freePath "" name b.files.length 0 := by
    rw [h.length_eq]
    exact h.freePath_eq hname _ _
  exact ⟨hpath, List.rel_append h (.cons ⟨rfl, .inl hpath⟩ .nil)⟩

theorem insertNew_in (h : SameFiles a b) (hdir : dir ≠ "") (first second content : String) :
    SameFiles (a.insertNew dir first content).2 (b.insertNew dir second content).2 :=
  List.rel_append h
    (.cons ⟨rfl, .inr ⟨slash_mem_freePath hdir _ _, slash_mem_freePath hdir _ _⟩⟩ .nil)

theorem saveDocument (h : SameFiles a b) (name text : String) :
    (a.saveDocument name text).1 = (b.saveDocument name text).1 ∧
      SameFiles (a.saveDocument name text).2 (b.saveDocument name text).2 := by
  obtain ⟨hpath, hfiles⟩ := h.insertNew_top (slash_notMem_sanitize name) text
  exact ⟨congrArg Except.ok hpath, hfiles⟩

theorem saveDrawing (h : SameFiles a b) {d e : Drawing} (hde : d.undated = e.undated) :
    (a.saveDrawing d).1.map DrawingPaths.unnamed = (b.saveDrawing e).1.map DrawingPaths.unnamed ∧
      SameFiles (a.saveDrawing d).2 (b.saveDrawing e).2 := by
  have hdir : "diagrams" ≠ "" := by decide
  have hparts : d.source = e.source ∧ d.description = e.description ∧ d.fragments = e.fragments :=
    ⟨congrArg (·.source) hde, congrArg (·.description) hde, congrArg (·.fragments) hde⟩
  obtain ⟨hsource, hdescription, hfragments⟩ := hparts
  refine ⟨by rw [saveDrawing_unnamed, saveDrawing_unnamed, hfragments], ?_⟩
  unfold Shelf.saveDrawing
  rw [hsource, hdescription, hfragments]
  have hprose := (h.insertNew_in hdir d.sourceName e.sourceName e.source).insertNew_in hdir
    d.descriptionName e.descriptionName e.description
  cases e.fragments with
  | none => exact hprose
  | some text => exact hprose.insertNew_in hdir d.fragmentsName e.fragmentsName text

end SameFiles

end Shelf

/-! ## Patterns of failure -/

/-- A store whose saves of checkpoints and snapshots, counted from zero, fail as a pattern says. -/
structure Fitful (σ : Type) where
  store : σ
  fails : Nat → Bool
  saves : Nat := 0

namespace Fitful

variable {σ : Type} [Store σ]

def failing (fails : Nat → Bool) (store : σ) : Fitful σ := { store := store, fails := fails }

def attempt (f : Fitful σ) (what : String) (save : σ → Except Fault String × σ) :
    Except Fault String × Fitful σ :=
  if f.fails f.saves then (.error (.injected what), { f with saves := f.saves + 1 })
  else
    let (answer, store) := save f.store
    (answer, { f with store := store, saves := f.saves + 1 })

instance : Store (Fitful σ) where
  root f := Store.root f.store
  saveCheckpoint f c := f.attempt "checkpoint" (Store.saveCheckpoint · c)
  saveSnapshot f n := f.attempt "snapshot" (Store.saveSnapshot · n)
  saveDocument f name text :=
    let (answer, store) := Store.saveDocument f.store name text
    (answer, { f with store := store })
  saveDrawing f d :=
    let (answer, store) := Store.saveDrawing f.store d
    (answer, { f with store := store })
  loadCheckpoints f := Store.loadCheckpoints f.store

omit [Store σ] in
theorem attempt_store (f : Fitful σ) (what : String) (save : σ → Except Fault String × σ) :
    (f.attempt what save).2.store = f.store ∨ (f.attempt what save).2.store = (save f.store).2 := by
  unfold attempt
  split
  · exact .inl rfl
  · exact .inr rfl

/-- A store that is sure to keep a document and a drawing stays so when it fails now and then. -/
theorem sure {name path : String} {times : Timestamp → Prop} {before after : σ → Prop}
    (h : Store.Sure name path times before after) :
    Store.Sure name path times (fun f : Fitful σ => before f.store) fun f => after f.store where
  checkpoint f c hf := by
    rcases attempt_store f "checkpoint" (Store.saveCheckpoint · c) with hsame | hsaved
    · exact hsame.symm ▸ hf
    · exact hsaved.symm ▸ h.checkpoint f.store c hf
  snapshot f n hf := by
    rcases attempt_store f "snapshot" (Store.saveSnapshot · n) with hsame | hsaved
    · exact hsame.symm ▸ hf
    · exact hsaved.symm ▸ h.snapshot f.store n hf
  checkpointAfter f c hf := by
    rcases attempt_store f "checkpoint" (Store.saveCheckpoint · c) with hsame | hsaved
    · exact hsame.symm ▸ hf
    · exact hsaved.symm ▸ h.checkpointAfter f.store c hf
  later f hf := h.later f.store hf
  document f text hf := h.document f.store text hf
  drawing f d hf htime := h.drawing f.store d hf htime

theorem saveCheckpoint_files (f : Fitful Shelf) (c : Checkpoint) :
    (Store.saveCheckpoint f c).2.store.files = f.store.files := by
  rcases attempt_store f "checkpoint" (Store.saveCheckpoint · c) with h | h
  · exact congrArg Shelf.files h
  · refine (congrArg Shelf.files h).trans ?_
    change (Shelf.saveCheckpoint f.store c).2.files = f.store.files
    unfold Shelf.saveCheckpoint
    split <;> rfl

theorem saveSnapshot_files (f : Fitful Shelf) (n : Snapshot) :
    (Store.saveSnapshot f n).2.store.files = f.store.files := by
  rcases attempt_store f "snapshot" (Store.saveSnapshot · n) with h | h
  · exact congrArg Shelf.files h
  · refine (congrArg Shelf.files h).trans ?_
    change (Shelf.saveSnapshot f.store n).2.files = f.store.files
    unfold Shelf.saveSnapshot
    split <;> rfl

variable {fails fails' : Nat → Bool} {s : Shelf} {x y : Fitful Shelf}

/-- By whatever patterns checkpoints and snapshots fail, the same files are kept. -/
theorem sameFiles_of_alongside (h : Store.Alongside (failing fails s) (failing fails' s) x y) :
    Shelf.SameFiles x.store y.store := by
  induction h with
  | same => exact .refl s
  | checkpoint c d _ _ ih =>
      unfold Shelf.SameFiles
      rwa [saveCheckpoint_files, saveCheckpoint_files]
  | snapshot m n _ _ ih =>
      unfold Shelf.SameFiles
      rwa [saveSnapshot_files, saveSnapshot_files]
  | document name text _ ih => exact (ih.saveDocument name text).2
  | drawing d e hde _ ih => exact (ih.saveDrawing hde).2

end Fitful

end Scriptorium.Archive
