import Scriptorium.Proofs.Archive.Tidy
import Scriptorium.Proofs.Run.Machine
import Scriptorium.Proofs.Run.Step

/-! # Deliveries

A run gives its store one document and one drawing, each at a moment of its own, and goes on only if
it is kept. So what a run needs of its store is said of these two alone, at the moments when they
are due: nothing is asked of what else the store would keep, or when. In the same way two runs are
only asked to get the same answers where both give their document or their drawing. A shelf keeps
whatever is due; so does a disk that is empty when a run begins, but for names that are in the way.
-/

namespace Scriptorium

namespace Run

open Archive

namespace Session

variable {σ τ : Type} {p : Plan} {s t : Session σ}

/-! ## What is due -/

/-- The document that the next step gives to the store. An empty one is not given. -/
def documentDue (p : Plan) (s : Session σ) : Option String :=
  match s.machine.phase,
    Document.compile p.settings.taxonomy p.settings.output.title s.work.manuscript with
  | .compiling, .ok text => if text = "" then none else some text
  | _, _ => none

def drawingDue (s : Session σ) : Option Drawing :=
  if s.machine.phase = .finalizing then some s.drawn else none

theorem documentDue_of_compiling {text : String} (hphase : s.machine.phase = .compiling)
    (htext : Document.compile p.settings.taxonomy p.settings.output.title s.work.manuscript =
      .ok text) (hne : text ≠ "") : s.documentDue p = some text := by
  simp [documentDue, hphase, htext, hne]

theorem documentDue_eq_some {text : String} (h : s.documentDue p = some text) :
    s.machine.phase = .compiling ∧ text ≠ "" ∧
      Document.compile p.settings.taxonomy p.settings.output.title s.work.manuscript =
        .ok text := by
  unfold documentDue at h
  split at h
  next hphase hcompiled =>
    split at h
    · cases h
    next hne =>
      cases h
      exact ⟨hphase, hne, hcompiled⟩
  · cases h

theorem drawingDue_eq_some_iff {d : Drawing} :
    s.drawingDue = some d ↔ s.machine.phase = .finalizing ∧ s.drawn = d := by
  simp [drawingDue]

/-! ## What is kept -/

variable [Store σ]

structure Delivers (p : Plan) (s : Session σ) : Prop where
  document : ∀ text ∈ s.documentDue p,
    (Store.saveDocument s.store p.settings.output.documentName text).1.isOk = true
  drawing : ∀ d ∈ s.drawingDue, (Store.saveDrawing s.store d).1.isOk = true

/-- Wherever a run comes from here, what is due there is kept. -/
def Delivering (p : Plan) (s : Session σ) : Prop :=
  ∀ n t, s.drive p n = (.ok (), t) → t.Delivers p

theorem Delivering.delivers (h : s.Delivering p) : s.Delivers p := h 0 s rfl

theorem Delivering.step (h : s.Delivering p) (hphase : s.machine.phase ≠ .done)
    (hstep : s.step p = (.ok (), t)) : t.Delivering p := by
  intro n u hu
  apply h (n + 1) u
  rw [drive_succ hphase, hstep]
  exact hu

inductive Unkept (p : Plan) (s : Session σ) (b : σ) (fault : Fault) : Prop where
  | document (text : String) (hdue : s.documentDue p = some text)
      (h : Store.saveDocument s.store p.settings.output.documentName text = (.error fault, b))
  | drawing (d : Drawing) (hdue : s.drawingDue = some d)
      (h : Store.saveDrawing s.store d = (.error fault, b))

theorem Unkept.not_delivers {b : σ} {fault : Fault} (h : Unkept p s b fault) :
    ¬ s.Delivers p := by
  intro hdelivers
  cases h with
  | document text hdue h =>
      have hkept := hdelivers.document text hdue
      rw [h] at hkept
      cases hkept
  | drawing d hdue h =>
      have hkept := hdelivers.drawing d hdue
      rw [h] at hkept
      cases hkept

theorem Unkept.not_done {b : σ} {fault : Fault} (h : Unkept p s b fault) :
    s.machine.phase ≠ .done := by
  intro hdone
  cases h with
  | document text hdue h => cases (documentDue_eq_some hdue).1.symm.trans hdone
  | drawing d hdue h => cases (drawingDue_eq_some_iff.mp hdue).1.symm.trans hdone

theorem exists_unkept (h : ¬ s.Delivers p) : ∃ b fault, Unkept p s b fault := by
  by_contra hnone
  refine h ⟨fun text hdue => ?_, fun d hdue => ?_⟩
  · rcases hsave : Store.saveDocument s.store p.settings.output.documentName text with ⟨answer, b⟩
    cases answer with
    | ok path => rfl
    | error fault => exact absurd ⟨b, fault, .document text hdue hsave⟩ hnone
  · rcases hsave : Store.saveDrawing s.store d with ⟨answer, b⟩
    cases answer with
    | ok paths => rfl
    | error fault => exact absurd ⟨b, fault, .drawing d hdue hsave⟩ hnone

/-- A run ends where its store does not keep what is due. -/
theorem Unkept.step {b : σ} {fault : Fault} (h : Unkept p s b fault) :
    (s.step p).1 = .error (.archive fault) := by
  cases h with
  | document text hdue h =>
      obtain ⟨hphase, hne, htext⟩ := documentDue_eq_some hdue
      have hact : s.act p = (.error (.archive fault), { s with store := b }) := by
        simp only [act, hphase, compile, htext, if_neg hne, h]
      simp only [Session.step, hact]
  | drawing d hdue h =>
      obtain ⟨hphase, rfl⟩ := drawingDue_eq_some_iff.mp hdue
      have hact : s.act p = (.error (.archive fault), { s with store := b }) := by
        simp only [act, hphase, finalize, h]
      simp only [Session.step, hact]

/-- A shelf keeps all that is ever due. -/
theorem delivering_of_shelf (p : Plan) (s : Session Shelf) : s.Delivering p :=
  fun _ t _ => ⟨fun text _ => t.store.saveDocument_isOk _ text,
    fun d _ => t.store.saveDrawing_isOk d⟩

/-! ## Stores that are sure to keep it -/

section Sure

variable {path : String} {times : Timestamp → Prop} {before after : σ → Prop}

/-- A run with a store that is sure to keep what is due, by a clock that shows such times. -/
structure Assured (times : Timestamp → Prop) (before after : σ → Prop) (s : Session σ) : Prop where
  times : ∀ n, times (s.clock.moment n)
  before : s.machine.phase ≠ .finalizing → s.machine.phase ≠ .done → before s.store
  after : s.machine.phase = .finalizing → after s.store

theorem compile_eq_ok {m : Move} (h : s.compile p = (.ok m, t)) :
    t.clock = s.clock ∧ t.machine = s.machine ∧ (t.store = s.store ∨ ∃ text,
      t.store = (Store.saveDocument s.store p.settings.output.documentName text).2) := by
  unfold compile at h
  split at h
  · cases h
  next text _ =>
    split at h
    · cases h
      exact ⟨rfl, rfl, .inl rfl⟩
    · rcases hsave : Store.saveDocument s.store p.settings.output.documentName text with ⟨answer, b⟩
      rw [hsave] at h
      cases answer with
      | error fault => cases h
      | ok path =>
          cases h
          exact ⟨rfl, rfl, .inr ⟨text, (congrArg Prod.snd hsave).symm⟩⟩

theorem finalize_eq_ok {m : Move} (h : s.finalize = (.ok m, t)) :
    t.clock = s.clock ∧ t.machine = s.machine := by
  unfold finalize at h
  split at h
  · cases h
  · cases h
    exact ⟨rfl, rfl⟩

namespace Assured

omit [Store σ] in
theorem start {k : Catalog} {id : RunId} {clock : Clock} {store : σ} {tally : Tally}
    (htimes : ∀ n, times (clock.moment n)) (hstore : before store) :
    (start p k id clock store tally).Assured times before after := by
  refine ⟨htimes, fun _ _ => hstore, fun hphase => ?_⟩
  cases hphase

/-- Up to compiling a run gives its store checkpoints and snapshots, then the document, and a
checkpoint before the drawing. -/
theorem step (hsure : Store.Sure p.settings.output.documentName path times before after)
    (h : s.Assured times before after) (hstep : s.step p = (.ok (), t)) :
    t.Assured times before after := by
  obtain ⟨m, u, machine, hact, hadvance, rfl⟩ := step_eq_ok hstep
  obtain ⟨hleads, hphase⟩ := Machine.advance_eq_ok hadvance
  have hdone : s.machine.phase ≠ .done := by
    intro hdone
    simp only [act, hdone] at hact
    cases hact
  by_cases hfinalizing : s.machine.phase = .finalizing
  · simp only [act, hfinalizing] at hact
    obtain ⟨hclock, hmachine⟩ := finalize_eq_ok hact
    rw [hmachine, hfinalizing] at hleads
    have hlast : machine.phase = .done := hphase.trans hleads.eq_done
    refine ⟨fun n => hclock ▸ h.times n, fun _ hnot => absurd hlast hnot, fun hnot => ?_⟩
    cases hlast.symm.trans hnot
  have hstore := h.before hfinalizing hdone
  by_cases hcompiling : s.machine.phase = .compiling
  · simp only [act, hcompiling] at hact
    obtain ⟨hclock, hmachine, hsame⟩ := compile_eq_ok hact
    rw [hmachine, hcompiling] at hleads
    have hnext : machine.phase = .finalizing := hphase.trans hleads.eq_finalizing
    have hafter : after u.store := by
      rcases hsame with hsame | ⟨text, hsaved⟩
      · exact hsame ▸ hsure.later _ hstore
      · exact hsaved ▸ (hsure.document _ text hstore).2
    exact ⟨fun n => hclock ▸ h.times n, fun hnot _ => absurd hnext hnot,
      fun _ => hsure.checkpointAfter _ _ hafter⟩
  · have hgathers := act_gathers p hcompiling hfinalizing
    rw [hact] at hgathers
    rw [hgathers.machine, ← hphase] at hleads
    have hnext : machine.phase ≠ .finalizing := fun hnext =>
      hcompiling (hnext ▸ hleads).eq_compiling
    exact ⟨fun n => hgathers.clock ▸ h.times n,
      fun _ _ => hsure.checkpoint _ _ (hgathers.store before hsure.snapshot hstore),
      fun hnot => absurd hnot hnext⟩

theorem drive (hsure : Store.Sure p.settings.output.documentName path times before after)
    (h : s.Assured times before after) {n : Nat} (hdrive : s.drive p n = (.ok (), t)) :
    t.Assured times before after := by
  have hlast := drive_ok_induction (fun u hu _ hok => hu.step hsure (Prod.ext hok rfl)) n h
    (congrArg Prod.fst hdrive)
  rwa [hdrive] at hlast

theorem document {text : String}
    (hsure : Store.Sure p.settings.output.documentName path times before after)
    (h : s.Assured times before after) (hdue : s.documentDue p = some text) :
    (Store.saveDocument s.store p.settings.output.documentName text).1 = .ok path := by
  have hphase := (documentDue_eq_some hdue).1
  exact (hsure.document _ text (h.before (by simp [hphase]) (by simp [hphase]))).1

theorem drawing {name : String} {d : Drawing} (hsure : Store.Sure name path times before after)
    (h : s.Assured times before after) (hdue : s.drawingDue = some d) :
    (Store.saveDrawing s.store d).1.map DrawingPaths.unnamed =
      .ok ⟨"", "", d.fragments.map fun _ => ""⟩ := by
  obtain ⟨hphase, rfl⟩ := drawingDue_eq_some_iff.mp hdue
  exact hsure.drawing _ _ (h.after hphase) (h.times _)

end Assured

end Sure

theorem short_default : (default : Timestamp).Short := by
  unfold Timestamp.Short
  decide +kernel

variable [Store τ] {view : Fault → Fault} {u : Session τ}

/-- What is due in two runs is answered alike, apart from the names of the parts of a drawing, which
tell the time, and from what `view` does not see of a fault. -/
structure Agree (view : Fault → Fault) (p : Plan) (s : Session σ) (u : Session τ) : Prop where
  document : ∀ text, s.documentDue p = some text → u.documentDue p = some text →
    (Store.saveDocument s.store p.settings.output.documentName text).1.mapError view =
      (Store.saveDocument u.store p.settings.output.documentName text).1.mapError view
  drawing : ∀ d e, s.drawingDue = some d → u.drawingDue = some e → d.undated = e.undated →
    ((Store.saveDrawing s.store d).1.map DrawingPaths.unnamed).mapError view =
      ((Store.saveDrawing u.store e).1.map DrawingPaths.unnamed).mapError view

/-- Wherever two runs come from here in equally many steps, they agree on what is due. -/
def Agreeing (view : Fault → Fault) (p : Plan) (s : Session σ) (u : Session τ) : Prop :=
  ∀ n s' u', s.drive p n = (.ok (), s') → u.drive p n = (.ok (), u') → Agree view p s' u'

theorem Agreeing.agree (h : Agreeing view p s u) : Agree view p s u := h 0 s u rfl rfl

theorem Agreeing.step {u' : Session τ} (h : Agreeing view p s u) (hs : s.machine.phase ≠ .done)
    (hu : u.machine.phase ≠ .done) (hstep : s.step p = (.ok (), t))
    (hstep' : u.step p = (.ok (), u')) : Agreeing view p t u' := by
  intro n s₁ u₁ hs₁ hu₁
  apply h (n + 1)
  · rw [drive_succ hs, hstep]
    exact hs₁
  · rw [drive_succ hu, hstep']
    exact hu₁

/-- Two stores that are sure to keep a document under one path agree on all that is ever due. -/
theorem Assured.agreeing {path : String} {times times' : Timestamp → Prop}
    {before after : σ → Prop} {before' after' : τ → Prop}
    (hsure : Store.Sure p.settings.output.documentName path times before after)
    (hsure' : Store.Sure p.settings.output.documentName path times' before' after')
    (h : s.Assured times before after) (h' : u.Assured times' before' after') :
    Agreeing view p s u := by
  intro n s' u' hs hu
  have hlast := h.drive hsure hs
  have hlast' := h'.drive hsure' hu
  refine ⟨fun text hdue hdue' => ?_, fun d e hdue hdue' hde => ?_⟩
  · rw [hlast.document hsure hdue, hlast'.document hsure' hdue']
  · have hfragments : d.undated.fragments = e.undated.fragments := by rw [hde]
    change d.fragments = e.fragments at hfragments
    rw [hlast.drawing hsure hdue, hlast'.drawing hsure' hdue', hfragments]

end Session

end Run

end Scriptorium
