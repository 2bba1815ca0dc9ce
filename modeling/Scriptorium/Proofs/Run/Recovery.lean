import Scriptorium.Proofs.Run.Document
import Scriptorium.Proofs.Run.Steady

/-! # Recovery

Whatever a run writes into a section, it gives to its store as a snapshot before anything else can
end it. So the texts of a run are those of the last snapshots of its sections, wherever it stops,
and where none of them was lost the document can be made from what the store holds.
-/

namespace Scriptorium

namespace Run

open Archive
open Manuscript (lastText)

/-! ## Texts of snapshots -/

def edits (l : List Snapshot) : List (String × String) := l.map fun n => (n.target, n.content)

theorem edits_append (l new : List Snapshot) : edits (l ++ new) = edits l ++ edits new :=
  List.map_append

theorem edits_targets (l : List Snapshot) : (edits l).map (·.1) = l.map (·.target) :=
  List.map_map

def recovered (t : Taxonomy) (l : List Snapshot) : Manuscript :=
  .ofTexts t.sectionIds.eraseDups (lastText (edits l))

namespace Session

variable {σ : Type} {p : Plan} {k : Catalog} {s t u : Session σ} {new later : List Snapshot}

/-! ## Giving snapshots to the store -/

variable [Store σ]

/-- Work that gives snapshots to the store: each is kept or counted as lost, and where none is lost
they can be read back. -/
structure Gives (new : List Snapshot) (s t : Session σ) : Prop where
  snapshots : t.trail.snapshots = s.trail.snapshots ++ new
  counted : t.trail.snapshotsWritten + t.trail.snapshotFailures =
    s.trail.snapshotsWritten + s.trail.snapshotFailures + new.length
  lost : s.trail.snapshotFailures ≤ t.trail.snapshotFailures
  read : ∀ read : σ → List Snapshot, Store.Reading read →
    t.trail.snapshotFailures = s.trail.snapshotFailures → read t.store = read s.store ++ new

namespace Gives

theorem nothing (htrail : t.trail = s.trail)
    (hstore : ∀ read : σ → List Snapshot, Store.Reading read → read t.store = read s.store) :
    Gives [] s t where
  snapshots := by rw [htrail, List.append_nil]
  counted := by rw [htrail, List.length_nil, Nat.add_zero]
  lost := by rw [htrail]
  read read hread _ := by rw [hstore read hread, List.append_nil]

theorem trans (hst : Gives new s t) (htu : Gives later t u) : Gives (new ++ later) s u where
  snapshots := by rw [htu.snapshots, hst.snapshots, List.append_assoc]
  counted := by rw [htu.counted, hst.counted, List.length_append, Nat.add_assoc]
  lost := Nat.le_trans hst.lost htu.lost
  read read hread heq := by
    have hlost := hst.lost
    have hlost' := htu.lost
    rw [htu.read read hread (by omega), hst.read read hread (by omega), List.append_assoc]

theorem of_counting (h : Counting s t) : Gives [] s t :=
  nothing h.trail fun _ _ => congrArg _ h.store

end Gives

def snapshotNow (component : String) (s : Session σ) (target : String) : Snapshot :=
  ⟨component, target, (s.work.manuscript.get? target).getD "", s.now⟩

theorem keepSnapshot_gives (component : String) (s : Session σ) (target : String) :
    Gives [snapshotNow component s target] s (keepSnapshot component s target) := by
  unfold keepSnapshot snapshotNow
  dsimp only
  generalize (Snapshot.mk component target ((s.work.manuscript.get? target).getD "") s.now) = n
  cases hkept : (Store.saveSnapshot s.store n).1.isOk with
  | true =>
      refine ⟨rfl, ?_, Nat.le_refl _, fun read hread _ => hread.snapshot s.store n hkept⟩
      simp only [Trail.withSnapshot, Bool.toNat_true, Bool.not_true, Bool.toNat_false,
        List.length_singleton]
      omega
  | false =>
      refine ⟨rfl, rfl, Nat.le_succ _, fun read hread heq => ?_⟩
      simp only [Trail.withSnapshot, Bool.not_false, Bool.toNat_true] at heq
      omega

/-- Keeping the texts of sections gives a snapshot of each of them, in order. -/
theorem keepSnapshots_gives (component : String) (targets : List String) (s : Session σ) :
    ∃ new, Gives new s (targets.foldl (keepSnapshot component) s) ∧
      new.map (·.target) = targets ∧
      ∀ n ∈ new, n.content = (s.work.manuscript.get? n.target).getD "" := by
  induction targets generalizing s with
  | nil => exact ⟨[], .nothing rfl fun _ _ => rfl, rfl, fun n hn => absurd hn List.not_mem_nil⟩
  | cons target targets ih =>
      obtain ⟨new, hgives, htargets, hcontent⟩ := ih (keepSnapshot component s target)
      refine ⟨snapshotNow component s target :: new,
        (keepSnapshot_gives component s target).trans hgives, ?_, ?_⟩
      · rw [List.map_cons, htargets]
        rfl
      · exact List.forall_mem_cons.mpr ⟨rfl, hcontent⟩

theorem mergeSurvey_gives (f : Fanout) (s : Session σ) (o : Assistant.Outcome) :
    Gives [] s (mergeSurvey f s o) := by
  have hwaited := waitedFor_counting .extractor s o
  unfold mergeSurvey
  generalize waitedFor .extractor s o = t at hwaited ⊢
  have hmerged : Gives [] t
      { t with work := { t.work with model := (f.mergeSurvey t.work.model o).1 } } :=
    .nothing rfl fun _ _ => rfl
  exact (Gives.of_counting hwaited).trans
    (hmerged.trans (.of_counting (countSurvey_counting _ _)))

/-- Merging gives a snapshot of each section, with the text that it was given. -/
theorem merge_gives {f : Fanout} {m : Manuscript} {outcomes : List Assistant.Outcome}
    (survey : Assistant.Outcome)
    (hm : Fanout.replaceAll s.work.manuscript (f.drafts outcomes) = .ok m) :
    ∃ new, Gives new s (merge f s outcomes survey).2 ∧
      new.map (·.target) = f.sections.map (·.1) ∧
      ∀ n ∈ new, n.content = (m.get? n.target).getD "" := by
  have hcounted := counted_counting f outcomes s
  unfold merge
  dsimp only
  generalize (f.drafts outcomes).foldl countDraft (outcomes.foldl (waitedFor .writer) s) = t
    at hcounted ⊢
  rw [hcounted.work, hm, ← hcounted.work]
  dsimp only
  -- `t` has counted the calls, and `u` has the new texts; the snapshots come after the survey.
  obtain ⟨u, hu⟩ : ∃ u, { t with work := { t.work with manuscript := m } } = u := ⟨_, rfl⟩
  have hwritten : Gives [] t u := by
    rw [← hu]
    exact .nothing rfl fun _ _ => rfl
  have hmanuscript : (mergeSurvey f u survey).work.manuscript = m := by
    rw [(mergeSurvey_snd f u survey).2.1, ← hu]
  obtain ⟨new, hgives, htargets, hcontent⟩ :=
    keepSnapshots_gives f.component.name (f.sections.map (·.1)) (mergeSurvey f u survey)
  rw [hmanuscript] at hcontent
  rw [hu]
  exact ⟨new, (Gives.of_counting hcounted).trans
    (hwritten.trans ((mergeSurvey_gives f u survey).trans hgives)), htargets, hcontent⟩

/-! ## The work of a phase -/

/-- Processing gives the store what it writes into the sections. -/
theorem process_gives {c : Component} {f : Fanout} {m : Manuscript}
    (hcurrent : s.work.current = some c) (hstart : Fanout.start s.work p.graph c = .ok f)
    (hm : Fanout.replaceAll s.work.manuscript (f.drafts (p.outcomes f s.requests.length)) =
      .ok m) :
    ∃ new, Gives new s (s.process p).2 ∧ new.map (·.target) = f.sections.map (·.1) ∧
      ∀ n ∈ new, n.content = (m.get? n.target).getD "" := by
  obtain ⟨asked, hasked⟩ : ∃ t, { s with requests := s.requests ++ p.fanning f } = t := ⟨_, rfl⟩
  have hnoted : Gives [] s asked := by
    rw [← hasked]
    exact .nothing rfl fun _ _ => rfl
  obtain ⟨new, hgives, htargets, hcontent⟩ :=
    merge_gives (p.surveyOutcome f s.requests.length) (s := asked) (by rw [← hasked]; exact hm)
  rw [process_snd hcurrent hstart, hasked]
  exact ⟨new, hnoted.trans hgives, htargets, hcontent⟩

theorem compile_gives (p : Plan) (s : Session σ) : Gives [] s (s.compile p).2 := by
  unfold compile
  split
  · exact .nothing rfl fun _ _ => rfl
  next text _ =>
    split
    · exact .nothing rfl fun _ _ => rfl
    · rcases hsave : Store.saveDocument s.store p.settings.output.documentName text
        with ⟨answer, store⟩
      have hread : ∀ read : σ → List Snapshot, Store.Reading read → read store = read s.store := by
        intro read hread
        have hsame := hread.document s.store p.settings.output.documentName text
        rwa [hsave] at hsame
      cases answer <;> exact .nothing rfl hread

theorem finalize_gives (s : Session σ) : Gives [] s s.finalize.2 := by
  unfold finalize
  rcases hsave : Store.saveDrawing s.store s.drawn with ⟨answer, store⟩
  have hread : ∀ read : σ → List Snapshot, Store.Reading read → read store = read s.store := by
    intro read hread
    have hsame := hread.drawing s.store s.drawn
    rwa [hsave] at hsame
  cases answer <;> exact .nothing rfl hread

/-- Only processing gives snapshots. -/
theorem act_gives_nothing (hphase : s.machine.phase ≠ .processing) :
    Gives [] s (s.act p).2 := by
  unfold act
  cases hat : s.machine.phase with
  | loading =>
      simp only [load]
      split <;> exact .nothing rfl fun _ _ => rfl
  | filtering =>
      simp only [filter, withCurrent]
      split
      next c _ =>
        simp only [judge]
        split <;> exact .nothing rfl fun _ _ => rfl
      · exact .nothing rfl fun _ _ => rfl
  | rejected => exact .nothing rfl fun _ _ => rfl
  | selecting =>
      simp only [select, withCurrent]
      split
      · simp only [countPlacement]
        split <;> exact .nothing rfl fun _ _ => rfl
      · exact .nothing rfl fun _ _ => rfl
  | processing => exact absurd hat hphase
  | compiling => exact compile_gives p s
  | finalizing => exact finalize_gives s
  | done => exact .nothing rfl fun _ _ => rfl

theorem keepCheckpoint_gives (s : Session σ) (m : Move) : Gives [] s (s.keepCheckpoint m) := by
  refine ⟨(List.append_nil _).symm, rfl, Nat.le_refl _, fun read hread _ => ?_⟩
  rw [List.append_nil]
  exact hread.checkpoint s.store _

/-! ## Whole runs -/

/-- What a run that began with a store has given it so far: its texts are those that the snapshots
leave, each snapshot was kept or counted as lost, and where none was lost they can be read back. -/
structure Recoverable (p : Plan) (a : σ) (s : Session σ) : Prop where
  texts : s.work.manuscript = recovered p.settings.taxonomy s.trail.snapshots
  counted : s.trail.snapshotsWritten + s.trail.snapshotFailures = s.trail.snapshots.length
  read : ∀ read : σ → List Snapshot, Store.Reading read → s.trail.snapshotFailures = 0 →
    read s.store = read a ++ s.trail.snapshots

namespace Recoverable

variable {a : σ}

theorem of_gives (h : Recoverable p a s) (hgives : Gives new s t)
    (htexts : t.work.manuscript = recovered p.settings.taxonomy (s.trail.snapshots ++ new)) :
    Recoverable p a t where
  texts := by rw [htexts, hgives.snapshots]
  counted := by rw [hgives.counted, h.counted, hgives.snapshots, List.length_append]
  read read hread hlost := by
    have hle := hgives.lost
    rw [hgives.read read hread (by omega), h.read read hread (by omega), hgives.snapshots,
      List.append_assoc]

theorem of_gives_nothing (h : Recoverable p a s) (hgives : Gives [] s t)
    (hwork : t.work.manuscript = s.work.manuscript) : Recoverable p a t := by
  refine h.of_gives hgives ?_
  rw [hwork, h.texts, List.append_nil]

theorem start (p : Plan) (k : Catalog) (id : RunId) (clock : Clock) (store : σ)
    (tally : Tally) : Recoverable p store (start p k id clock store tally) where
  texts := Manuscript.ofTaxonomy_eq _
  counted := rfl
  read _ _ _ := (List.append_nil _).symm

/-- The work of a phase gives the store all that it writes, before any move is asked for. -/
theorem act {n : Nat} (h : Recoverable p a s) (hfits : Fits p n s.machine.phase s.work)
    (hphase : s.machine.phase ≠ .done) : Recoverable p a (s.act p).2 := by
  by_cases hprocessing : s.machine.phase = .processing
  · -- The drafts are for the sections of the component and so are the snapshots; a section that
    -- has no draft keeps its text and gets no snapshot.
    rw [hprocessing] at hfits
    obtain ⟨c, hcurrent⟩ := hfits.current (.inr (.inr rfl))
    obtain ⟨f, hf, hstart, hm⟩ := hfits.fanout h.texts c s.requests.length
    have hsections : f.sections.map (·.1) = s.work.targets := by
      simp [hf, Plan.fanout, Function.comp_def]
    have hacts := acts_processing hprocessing hcurrent hstart hm
    obtain ⟨new, hgives, htargets, hcontent⟩ := process_gives hcurrent hstart hm
    have hact : s.act p = s.process p := by simp only [Session.act, hprocessing]
    generalize hdrafts : f.drafts (p.outcomes f s.requests.length) = drafts at hm hcontent hacts
    have hknown : ∀ e ∈ edits new,
        e.2 = Fanout.written (lastText (edits s.trail.snapshots)) drafts e.1 := by
      intro e he
      obtain ⟨n, hn, rfl⟩ := List.mem_map.mp he
      have htarget : n.target ∈ s.work.targets := by
        rw [← hsections, ← htargets]
        exact List.mem_map_of_mem hn
      have hid := List.mem_eraseDups.mpr (hfits.targets _ htarget)
      rw [hcontent n hn, Manuscript.get?_ofTexts, if_pos hid, Option.getD_some]
    refine h.of_gives (hact ▸ hgives) ?_
    rw [hacts.work]
    refine congrArg (Manuscript.ofTexts _) (funext fun id => ?_)
    rw [edits_append, Manuscript.lastText_append hknown, edits_targets, htargets]
    by_cases hid : id ∈ f.sections.map (·.1)
    · rw [if_pos hid]
    · rw [if_neg hid]
      refine Fanout.written_of_not_mem _ fun hmem => hid ?_
      obtain ⟨d, hd, rfl⟩ := List.mem_map.mp hmem
      rw [← hdrafts] at hd
      exact Fanout.mem_drafts hd
  · refine h.of_gives_nothing (act_gives_nothing hprocessing) ?_
    rcases acts_or_fails hfits hphase with ⟨m, w, asked, hacts, hturn⟩ | ⟨fault, hfails, -⟩
    · rw [hacts.work]
      exact (hturn.keeps hprocessing).1
    · rw [hfails.quiet.work]

theorem step {n : Nat} (h : Recoverable p a s) (hfits : Fits p n s.machine.phase s.work)
    (hphase : s.machine.phase ≠ .done) : Recoverable p a (s.step p).2 := by
  have hacted := h.act hfits hphase
  rcases step_cases p s with hstep | ⟨m, machine, hstep⟩
  · rw [hstep]
    exact hacted
  · rw [hstep]
    generalize (s.act p).2 = t at hacted ⊢
    have hmoved : Gives [] t { t with machine := machine } := .nothing rfl fun _ _ => rfl
    have hkept := hmoved.trans (keepCheckpoint_gives { t with machine := machine } m)
    exact hacted.of_gives_nothing hkept rfl

end Recoverable

theorem run_recoverable (hp : p.Grounded) (k : Catalog) (id : RunId) (clock : Clock)
    (store : σ) (tally : Tally) : Recoverable p store (run p k id clock store tally).2 :=
  run_induction hp (.start p k id clock store tally) fun _ hstanding hphase h =>
    h.step (hstanding.reach.fits hp) hphase

/-- A run of checked settings that lost no snapshot, done or stopped anywhere: all snapshots were
written and can be read back, every section has the text of its last snapshot or none, and the
texts of the last snapshots make the document that the run makes, which is the one it has kept if it
is done. -/
theorem run_recovers {settings : Settings} {graph : Option CallGraph}
    {answers : Assistant.Answering} (hp : Plan.ofSettings settings graph answers = .ok p)
    (k : Catalog) (id : RunId) (clock : Clock) (store : σ) (tally : Tally)
    (hkept : (run p k id clock store tally).2.trail.snapshotFailures = 0) :
    let r := run p k id clock store tally
    r.2.trail.snapshotsWritten = r.2.trail.snapshots.length ∧
    (∀ read : σ → List Snapshot, Store.Reading read →
      read r.2.store = read store ++ r.2.trail.snapshots) ∧
    (∀ s ∈ settings.taxonomy.sectionIds,
      r.2.work.manuscript.get? s = some (lastText (edits r.2.trail.snapshots) s)) ∧
    (∀ title, Document.compile settings.taxonomy title
        (recovered settings.taxonomy r.2.trail.snapshots) =
      Document.compile settings.taxonomy title r.2.work.manuscript) ∧
    (r.1 = .ok () → ∃ doc, Document.compile settings.taxonomy settings.output.title
        (recovered settings.taxonomy r.2.trail.snapshots) = .ok doc ∧
      Kept p store r.2.store r.2.document doc) := by
  have hgrounded := Plan.grounded_of_ofSettings hp
  obtain ⟨rfl, -⟩ := Plan.fields_of_ofSettings hp
  intro r
  have hrecoverable : Recoverable p store r.2 := run_recoverable hgrounded k id clock store tally
  have hlost : r.2.trail.snapshotFailures = 0 := hkept
  obtain ⟨htexts, hcounted, hread⟩ := hrecoverable
  refine ⟨?_, fun read hreading => hread read hreading hlost, fun s hs => ?_, fun title => ?_,
    fun hok => ?_⟩
  · rw [← hcounted, hlost, Nat.add_zero]
  · rw [htexts, recovered, Manuscript.get?_ofTexts, if_pos (List.mem_eraseDups.mpr hs)]
  · rw [htexts]
  · obtain ⟨doc, hdoc, hkept⟩ := run_document hgrounded hok
    rw [htexts] at hdoc
    exact ⟨doc, hdoc, hkept⟩

/-- A small run whose cap refuses the move after the first component was processed: the shelf has
the text that was written. -/
theorem run_recovers_small :
    ∃ r, r = run (.small (.steady Assistant.scribe) (some 3)) .small default default
        ({} : Shelf) {} ∧
      r.1.isOk = false ∧ r.2.machine.phase = .processing ∧
      r.2.store.snapshots.map (fun n => (n.component, n.target, n.content)) =
        [("Lexer", "Overview", "Lexer.")] ∧
      ∀ s ∈ Settings.small.taxonomy.sectionIds,
        r.2.work.manuscript.get? s = some (lastText (edits r.2.store.snapshots) s) := by
  have hp := Plan.ofSettings_small (.steady Assistant.scribe) (some 3) (by decide)
  have hkept : (run (.small (.steady Assistant.scribe) (some 3)) .small default default
      ({} : Shelf) {}).2.trail.snapshotFailures = 0 := by
    decide +kernel
  obtain ⟨-, hread, htexts, -⟩ :=
    run_recovers hp .small default default ({} : Shelf) {} hkept
  have hshelf := hread Shelf.snapshots Shelf.reading
  have hempty : ({} : Shelf).snapshots = [] := rfl
  rw [hempty, List.nil_append] at hshelf
  refine ⟨_, rfl, ?_, ?_, ?_, ?_⟩
  · decide +kernel
  · decide +kernel
  · decide +kernel
  · rw [hshelf]
    exact htexts

end Session

end Run

end Scriptorium
