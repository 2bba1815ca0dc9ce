import Scriptorium.Proofs.Fitful
import Scriptorium.Proofs.Run.Delivery
import Scriptorium.Proofs.Run.Steady

/-! # Two runs of one plan

Whether a checkpoint or a snapshot could be kept is counted and then forgotten. So two runs of one
plan whose stores answer alike where the document and the drawing are due are twins: they ask the
same, move together and end alike, and only their counts of kept artifacts, their names and their
clocks tell them apart. Each piece of the work takes twins to twins, hence so does a step, and by
induction every number of steps.
-/

namespace Scriptorium

namespace Run

open Archive

/-! ## What twins may differ in -/

def Tally.lenient (t : Tally) : Tally := { t with checkpointFailures := 0 }

theorem Tally.lenient_record {t u : Tally} (h : t.lenient = u.lenient) (e : Event) :
    (t.record e).lenient = (u.record e).lenient := by
  have hrecord (v : Tally) : (v.record e).lenient = (v.lenient.record e).lenient := by
    cases e with
    | judged verdict asked => cases verdict <;> cases asked <;> rfl
    | _ => rfl
  rw [hrecord t, hrecord u, h]

theorem Tally.lenient_observe {t u : Tally} (h : t.lenient = u.lenient) (task : Assistant.Task) :
    (t.observe task).lenient = (u.observe task).lenient := by
  have hobserve (v : Tally) : (v.observe task).lenient = v.lenient.observe task := by
    cases task <;> rfl
  rw [hobserve t, hobserve u, h]

/-- A report without the run's name, its times and the names of its drawing, and without what
became of checkpoints and snapshots. -/
def Report.lenient (r : Report) : Report :=
  { r with
    run := default
    started := default
    duration := 0
    drawing := r.drawing.unnamed
    checkpointsWritten := 0
    checkpointFailures := 0
    snapshotFailures := 0 }

def mapFault (view : Fault → Fault) : Fatal → Fatal
  | .archive f => .archive (view f)
  | e => e

def Progress.unnamed (g : Progress) : Progress := { g with run := default, root := "" }

namespace Session

variable {σ τ α : Type} [Store σ] [Store τ] {a : σ} {b : τ} {s : Session σ} {t : Session τ}
  {p : Plan} {view : Fault → Fault}

/-- Two runs, begun with the stores `a` and `b`, that differ only in names, in times and in what
became of their checkpoints and snapshots. -/
structure Twin (a : σ) (b : τ) (s : Session σ) (t : Session τ) : Prop where
  machine : s.machine = t.machine
  work : s.work = t.work
  requests : s.requests = t.requests
  totals : s.totals = t.totals
  tally : s.tally.lenient = t.tally.lenient
  checkpoints : s.trail.checkpoints.map Checkpoint.undated =
    t.trail.checkpoints.map Checkpoint.undated
  snapshots : s.trail.snapshots.map Snapshot.undated = t.trail.snapshots.map Snapshot.undated
  document : s.document = t.document
  drawing : s.drawing.map DrawingPaths.unnamed = t.drawing.map DrawingPaths.unnamed
  store : Store.Alongside a b s.store t.store

/-- The same answer from both twins, so far as `view` sees the faults of their stores. -/
structure Twins (view : Fault → Fault) (a : σ) (b : τ) (q : Result σ α) (r : Result τ α) :
    Prop where
  answer : q.1.mapError (mapFault view) = r.1.mapError (mapFault view)
  twin : Twin a b q.2 r.2

theorem Twins.of_eq {q : Result σ α} {r : Result τ α} (hanswer : q.1 = r.1)
    (htwin : Twin a b q.2 r.2) : Twins view a b q r :=
  ⟨by rw [hanswer], htwin⟩

theorem Twins.cases {q : Result σ α} {r : Result τ α} (h : Twins view a b q r) :
    (∃ e e' u v, q = (.error e, u) ∧ r = (.error e', v) ∧ mapFault view e = mapFault view e' ∧
      Twin a b u v) ∨
      ∃ x u v, q = (.ok x, u) ∧ r = (.ok x, v) ∧ Twin a b u v := by
  obtain ⟨x, u⟩ := q
  obtain ⟨y, v⟩ := r
  obtain ⟨hxy, huv⟩ := h
  cases x with
  | error e =>
      cases y with
      | error e' => exact .inl ⟨e, e', u, v, rfl, rfl, Except.error.inj hxy, huv⟩
      | ok y => cases hxy
  | ok x =>
      cases y with
      | error e' => cases hxy
      | ok y =>
          obtain rfl : x = y := Except.ok.inj hxy
          exact .inr ⟨x, u, v, rfl, rfl, huv⟩

/-! ## Pieces of work -/

namespace Twin

theorem count (h : Twin a b s t) (e : Event) : Twin a b (s.count e) (t.count e) :=
  { h with tally := Tally.lenient_record h.tally e }

theorem waited (h : Twin a b s t) (task : Assistant.Task) :
    Twin a b (s.waited task) (t.waited task) :=
  { h with tally := Tally.lenient_observe h.tally task }

theorem noted (h : Twin a b s t) (r : Assistant.Request) : Twin a b (s.noted r) (t.noted r) :=
  { h with requests := congrArg (· ++ [r]) h.requests }

theorem withWork (h : Twin a b s t) (f : Worklist → Worklist) :
    Twin a b { s with work := f s.work } { t with work := f t.work } :=
  { h with work := congrArg f h.work }

theorem withTotals (h : Twin a b s t) (f : Totals → Totals) :
    Twin a b { s with totals := f s.totals } { t with totals := f t.totals } :=
  { h with totals := congrArg f h.totals }

theorem foldl {f : Session σ → α → Session σ} {g : Session τ → α → Session τ}
    (hfg : ∀ u v x, Twin a b u v → Twin a b (f u x) (g v x)) (l : List α) (h : Twin a b s t) :
    Twin a b (l.foldl f s) (l.foldl g t) := by
  induction l generalizing s t with
  | nil => exact h
  | cons x l ih => exact ih (hfg s t x h)

theorem waitedFor (h : Twin a b s t) (task : Assistant.Task) (o : Assistant.Outcome) :
    Twin a b (waitedFor task s o) (waitedFor task t o) := by
  unfold Session.waitedFor
  split
  · exact h
  · exact h.waited task

theorem countPlacement (h : Twin a b s t) (o : Placement.Outcome) :
    Twin a b (s.countPlacement o) (t.countPlacement o) := by
  unfold Session.countPlacement
  split
  · exact (h.count .selectorFallback).withTotals
      fun u => { u with selectorFallbacks := u.selectorFallbacks + 1 }
  · exact h

theorem countDraft (h : Twin a b s t) (d : Drafting.Draft) :
    Twin a b (countDraft s d) (countDraft t d) := by
  unfold Session.countDraft
  split
  · exact (h.count .sectionFailed).withTotals
      fun u => { u with sectionFailures := u.sectionFailures + 1 }
  · exact (h.count .sectionWritten).withTotals
      fun u => { u with sectionsWritten := u.sectionsWritten + 1 }

theorem countSurvey (h : Twin a b s t) (merged : Bool) :
    Twin a b (s.countSurvey merged) (t.countSurvey merged) := by
  unfold Session.countSurvey
  split
  · exact h.count .extractionMerged
  · exact (h.count .extractionFailed).withTotals
      fun u => { u with extractionFailures := u.extractionFailures + 1 }

theorem mergeSurvey (h : Twin a b s t) (f : Fanout) (o : Assistant.Outcome) :
    Twin a b (mergeSurvey f s o) (mergeSurvey f t o) := by
  have hwaited := h.waitedFor .extractor o
  have hmodel := hwaited.withWork fun w => { w with model := (f.mergeSurvey w.model o).1 }
  have hmerged : (f.mergeSurvey (Session.waitedFor .extractor s o).work.model o).2 =
      (f.mergeSurvey (Session.waitedFor .extractor t o).work.model o).2 := by
    rw [hwaited.work]
  unfold Session.mergeSurvey
  dsimp only
  rw [hmerged]
  exact hmodel.countSurvey _

theorem keepSnapshot (h : Twin a b s t) (component target : String) :
    Twin a b (keepSnapshot component s target) (keepSnapshot component t target) := by
  have hsnapshot : Snapshot.undated
        ⟨component, target, (s.work.manuscript.get? target).getD "", s.now⟩ =
      Snapshot.undated ⟨component, target, (t.work.manuscript.get? target).getD "", t.now⟩ := by
    rw [h.work]
    rfl
  exact { h with
    snapshots := by
      simp only [Session.keepSnapshot, Trail.withSnapshot, List.map_append, List.map_cons,
        List.map_nil, h.snapshots, hsnapshot]
    store := .snapshot _ _ hsnapshot h.store }

theorem keepCheckpoint (h : Twin a b s t) (m : Move) :
    Twin a b (s.keepCheckpoint m) (t.keepCheckpoint m) := by
  have hcheckpoint : (s.checkpoint m).undated = (t.checkpoint m).undated := by
    simp only [Checkpoint.undated, checkpoint, h.machine, h.work]
  -- A failed checkpoint is counted where a lenient tally does not look.
  have hkept {u : Tally} (c : Prop) [Decidable c] :
      (if c then u else u.record .checkpointFailed).lenient = u.lenient := by
    split <;> rfl
  exact { h with
    tally := (hkept _).trans (h.tally.trans (hkept _).symm)
    checkpoints := by
      simp only [Session.keepCheckpoint, Trail.withCheckpoint, List.map_append, List.map_cons,
        List.map_nil, h.checkpoints, hcheckpoint]
    store := .checkpoint _ _ hcheckpoint h.store }

end Twin

/-! ## The work of a phase -/

theorem Twins.withCurrent {f : Component → Result σ Move} {g : Component → Result τ Move}
    (h : Twin a b s t) (hfg : ∀ c, Twins view a b (f c) (g c)) :
    Twins view a b (s.withCurrent f) (t.withCurrent g) := by
  unfold Session.withCurrent
  rw [← h.work]
  cases s.work.current with
  | none => exact .of_eq (by rw [h.machine]) h
  | some c => exact hfg c

namespace Twin

theorem load (h : Twin a b s t) : Twins view a b s.load t.load := by
  have hnext := h.withWork Worklist.next
  unfold Session.load
  dsimp only
  rw [← h.work] at hnext ⊢
  split
  · exact ⟨rfl, hnext⟩
  · exact ⟨rfl, hnext⟩

theorem judge (h : Twin a b s t) (p : Plan) (c : Component) :
    (judge p s c).1 = (judge p t c).1 ∧ Twin a b (judge p s c).2 (judge p t c).2 := by
  unfold Session.judge
  cases p.sieve.judge? c with
  | some o => exact ⟨rfl, h⟩
  | none =>
      dsimp only
      rw [h.requests]
      exact ⟨rfl, ((h.noted _).waited .filter).withTotals
        fun u => { u with classifierDecisions := u.classifierDecisions + 1 }⟩

theorem filter (h : Twin a b s t) (p : Plan) : Twins view a b (s.filter p) (t.filter p) := by
  refine .withCurrent h fun c => ?_
  obtain ⟨houtcome, htwin⟩ := h.judge p c
  rcases hs : Session.judge p s c with ⟨o, u⟩
  rcases ht : Session.judge p t c with ⟨o', v⟩
  rw [hs, ht] at houtcome htwin
  obtain rfl : o = o' := houtcome
  exact ⟨rfl, (htwin.count _).withWork (·.judge o.verdict)⟩

theorem select (h : Twin a b s t) (p : Plan) : Twins view a b (s.select p) (t.select p) := by
  refine .withCurrent h fun c => ?_
  dsimp only
  rw [h.requests]
  exact ⟨rfl, (((h.noted _).waited .selector).countPlacement _).withWork (·.place _)⟩

theorem merge (h : Twin a b s t) (f : Fanout) (outcomes : List Assistant.Outcome)
    (survey : Assistant.Outcome) :
    Twins view a b (merge f s outcomes survey) (merge f t outcomes survey) := by
  have hwaited := foldl (fun _ _ o hu => hu.waitedFor .writer o) outcomes h
  have hcounted := foldl (fun _ _ d hu => hu.countDraft d) (f.drafts outcomes) hwaited
  unfold Session.merge
  dsimp only
  rw [hcounted.work]
  split
  · exact ⟨rfl, hcounted⟩
  next m _ =>
    have hwritten := hcounted.withWork ({ · with manuscript := m })
    rw [hcounted.work] at hwritten
    have hsurveyed := hwritten.mergeSurvey f survey
    exact ⟨rfl, foldl (fun _ _ target hu => hu.keepSnapshot f.component.name target) _ hsurveyed⟩

theorem process (h : Twin a b s t) (p : Plan) : Twins view a b (s.process p) (t.process p) := by
  refine .withCurrent h fun c => ?_
  rw [h.work]
  cases Fanout.start t.work p.graph c with
  | error e => exact ⟨rfl, h⟩
  | ok f =>
      have hnoted := foldl (fun _ _ r hu => hu.noted r)
        (f.draftRequests p.settings.prompts ++ [f.surveyRequest p.settings.prompts]) h
      have hmerged : Twins view a b _ _ := hnoted.merge f
        (((f.draftRequests p.settings.prompts).zipIdx t.requests.length).map
          fun x => p.answers x.2 x.1)
        (p.answers (t.requests.length + (f.draftRequests p.settings.prompts).length)
          (f.surveyRequest p.settings.prompts))
      dsimp only
      -- Twins have made equally many requests, so their calls have the same numbers.
      rw [h.requests]
      rcases hmerged.cases with ⟨e, e', u, v, hq, hr, he, huv⟩ | ⟨⟨⟩, u, v, hq, hr, huv⟩
      · rw [hq, hr]
        exact ⟨congrArg Except.error he, huv⟩
      · rw [hq, hr]
        exact ⟨rfl, huv⟩

theorem compile_eq (h : Twin a b s t) (p : Plan) :
    Document.compile p.settings.taxonomy p.settings.output.title s.work.manuscript =
      Document.compile p.settings.taxonomy p.settings.output.title t.work.manuscript := by
  rw [h.work]

theorem diagram_eq (h : Twin a b s t) : Architecture.Diagram.ofModel s.work.model =
    Architecture.Diagram.ofModel t.work.model := by
  rw [h.work]

theorem compile (h : Twin a b s t) (hagree : Agree view p s t)
    (hphase : s.machine.phase = .compiling) : Twins view a b (s.compile p) (t.compile p) := by
  unfold Session.compile
  cases htext : Document.compile p.settings.taxonomy p.settings.output.title s.work.manuscript with
  | error e =>
      rw [← h.compile_eq p, htext]
      exact ⟨rfl, h⟩
  | ok text =>
      have htext' := h.compile_eq p ▸ htext
      rw [htext']
      dsimp only
      split
      · exact ⟨rfl, h⟩
      next hne =>
        have hanswer := hagree.document text (documentDue_of_compiling hphase htext hne)
          (documentDue_of_compiling (h.machine ▸ hphase) htext' hne)
        have hstore := Store.Alongside.document p.settings.output.documentName text h.store
        rcases hs : Store.saveDocument s.store p.settings.output.documentName text with ⟨x, y⟩
        rcases ht : Store.saveDocument t.store p.settings.output.documentName text with ⟨x', y'⟩
        rw [hs, ht] at hanswer hstore
        cases x with
        | error fault =>
            cases x' with
            | error fault' =>
                have hfault : view fault = view fault' := Except.error.inj hanswer
                exact ⟨congrArg (Except.error ∘ Fatal.archive) hfault, { h with store := hstore }⟩
            | ok path => cases hanswer
        | ok path =>
            cases x' with
            | error fault' => cases hanswer
            | ok path' =>
                obtain rfl : path = path' := Except.ok.inj hanswer
                exact ⟨rfl, { h with document := rfl, store := hstore }⟩

/-- Twins draw the same, apart from the time, which the names of the parts tell. -/
theorem drawn_undated (h : Twin a b s t) : s.drawn.undated = t.drawn.undated := by
  unfold drawn
  rw [h.diagram_eq]
  rfl

theorem finalize (h : Twin a b s t) (hagree : Agree view p s t)
    (hphase : s.machine.phase = .finalizing) : Twins view a b s.finalize t.finalize := by
  have hanswer := hagree.drawing _ _ (drawingDue_eq_some_iff.mpr ⟨hphase, rfl⟩)
    (drawingDue_eq_some_iff.mpr ⟨h.machine ▸ hphase, rfl⟩) h.drawn_undated
  have hstore := Store.Alongside.drawing _ _ h.drawn_undated h.store
  unfold Session.finalize
  rcases hs : Store.saveDrawing s.store s.drawn with ⟨x, y⟩
  rcases ht : Store.saveDrawing t.store t.drawn with ⟨x', y'⟩
  rw [hs, ht] at hanswer hstore
  cases x with
  | error fault =>
      cases x' with
      | error fault' =>
          have hfault : view fault = view fault' := Except.error.inj hanswer
          exact ⟨congrArg (Except.error ∘ Fatal.archive) hfault, { h with store := hstore }⟩
      | ok paths => cases hanswer
  | ok paths =>
      cases x' with
      | error fault' => cases hanswer
      | ok paths' =>
          have hpaths : paths.unnamed = paths'.unnamed := Except.ok.inj hanswer
          exact ⟨rfl, { h with drawing := congrArg some hpaths, store := hstore }⟩

/-- The work of every phase takes twins to twins. -/
theorem act (h : Twin a b s t) (hagree : Agree view p s t) :
    Twins view a b (s.act p) (t.act p) := by
  unfold Session.act
  rw [← h.machine]
  cases hphase : s.machine.phase with
  | loading => exact h.load
  | filtering => exact h.filter p
  | rejected => exact ⟨rfl, h⟩
  | selecting => exact h.select p
  | processing => exact h.process p
  | compiling => exact h.compile hagree hphase
  | finalizing => exact h.finalize hagree hphase
  | done => exact ⟨rfl, h⟩

/-! ## Runs -/

theorem advance (h : Twin a b s t) (m : Move) : Twins view a b (s.advance m) (t.advance m) := by
  unfold Session.advance
  rw [h.machine]
  cases t.machine.advance m.target with
  | error e => exact ⟨rfl, h⟩
  | ok machine =>
      have hmoved : Twin a b { s with machine := machine } { t with machine := machine } :=
        { h with machine := rfl }
      exact ⟨rfl, hmoved.keepCheckpoint m⟩

theorem step (h : Twin a b s t) (hagree : Agree view p s t) :
    Twins view a b (s.step p) (t.step p) := by
  unfold Session.step
  rcases (h.act hagree).cases with ⟨e, e', u, v, hq, hr, he, huv⟩ | ⟨m, u, v, hq, hr, huv⟩
  · rw [hq, hr]
    exact ⟨congrArg Except.error he, huv⟩
  · rw [hq, hr]
    exact huv.advance m

/-- Any number of steps takes twins to twins, also where an error ends them. -/
theorem drive (h : Twin a b s t) (hagree : Agreeing view p s t) (n : Nat) :
    Twins view a b (s.drive p n) (t.drive p n) := by
  induction n generalizing s t with
  | zero => exact ⟨rfl, h⟩
  | succ n ih =>
      by_cases hdone : s.machine.phase = .done
      · rw [drive_of_done hdone, drive_of_done (h.machine ▸ hdone)]
        exact ⟨rfl, h⟩
      · have hdone' : t.machine.phase ≠ .done := h.machine ▸ hdone
        rw [drive_succ hdone, drive_succ hdone']
        rcases (h.step hagree.agree).cases with
          ⟨e, e', u, v, hq, hr, he, huv⟩ | ⟨⟨⟩, u, v, hq, hr, huv⟩
        · rw [hq, hr]
          exact ⟨congrArg Except.error he, huv⟩
        · rw [hq, hr]
          exact ih huv (hagree.step hdone hdone' hq hr)

/-- Twins come to agree wherever their stores answer alike when given the same. -/
theorem agreeing (h : Twin a b s t)
    (hstores : ∀ s' t', Twin a b s' t' → Agree view p s' t') : Agreeing view p s t := by
  intro n s' t' hs ht
  apply hstores
  induction n generalizing s t with
  | zero =>
      cases hs
      cases ht
      exact h
  | succ n ih =>
      by_cases hdone : s.machine.phase = .done
      · rw [drive_of_done hdone] at hs
        rw [drive_of_done (h.machine ▸ hdone)] at ht
        cases hs
        cases ht
        exact h
      · rw [drive_succ hdone] at hs
        rw [drive_succ (h.machine ▸ hdone)] at ht
        rcases (h.step (hstores s t h)).cases with
          ⟨e, e', u, v, hq, hr, he, huv⟩ | ⟨⟨⟩, u, v, hq, hr, huv⟩
        · rw [hq] at hs
          cases hs
        · rw [hq] at hs
          rw [hr] at ht
          exact ih huv hs ht

theorem start (p : Plan) (k : Catalog) (id id' : RunId) (clock clock' : Clock) (a : σ) (b : τ)
    (tally : Tally) :
    Twin a b (start p k id clock a tally) (start p k id' clock' b tally) :=
  ⟨rfl, rfl, rfl, rfl, rfl, rfl, rfl, rfl, rfl, .same⟩

theorem report_lenient (h : Twin a b s t) : (report s).lenient = (report t).lenient := by
  have hdrawing : (s.drawing.getD default).unnamed = (t.drawing.getD default).unnamed := by
    have hgetD (d : Option DrawingPaths) : (d.getD default).unnamed =
        (d.map DrawingPaths.unnamed).getD default := by
      cases d <;> rfl
    rw [hgetD, hgetD, h.drawing]
  simp only [Report.lenient, report, h.machine, h.work, h.totals, h.document, hdrawing]

theorem progress_unnamed (h : Twin a b s t) : s.progress.unnamed = t.progress.unnamed := by
  simp only [Progress.unnamed, progress, h.machine, h.work]

end Twin

/-- Two runs of one plan whose stores answer alike where the document and the drawing are due:
whichever checkpoints and snapshots either store keeps, after every number of steps the runs are
twins. They end with one answer, one state and the same texts of the document and the drawing, which
are given to both stores; and what they report and count differs only in what became of checkpoints
and snapshots. -/
theorem run_twins (view : Fault → Fault) (p : Plan) (k : Catalog) (id id' : RunId)
    (clock clock' : Clock) (a : σ) (b : τ) (tally : Tally)
    (hagreeing : Agreeing view p (start p k id clock a tally) (start p k id' clock' b tally)) :
    let r := run p k id clock a tally
    let r' := run p k id' clock' b tally
    Twins view a b r r' ∧ (report r.2).lenient = (report r'.2).lenient ∧
      r.2.progress.unnamed = r'.2.progress.unnamed ∧
      Document.compile p.settings.taxonomy p.settings.output.title r.2.work.manuscript =
        Document.compile p.settings.taxonomy p.settings.output.title r'.2.work.manuscript ∧
      Architecture.Diagram.ofModel r.2.work.model = Architecture.Diagram.ofModel r'.2.work.model ∧
      ∀ n, Twins view a b ((start p k id clock a tally).drive p n)
        ((start p k id' clock' b tally).drive p n) := by
  intro r r'
  have hdriven := (Twin.start p k id id' clock clock' a b tally).drive hagreeing
  have hended : Twins view a b r r' := hdriven (moves k.size)
  exact ⟨hended, hended.twin.report_lenient, hended.twin.progress_unnamed,
    hended.twin.compile_eq p, hended.twin.diagram_eq, hdriven⟩

/-- Over one shelf, no pattern of failing checkpoints and snapshots makes a difference to what is
due. -/
theorem agreeing_of_fitful (view : Fault → Fault) {fails fails' : Nat → Bool} {shelf : Shelf}
    {s t : Session (Fitful Shelf)}
    (h : Twin (Fitful.failing fails shelf) (Fitful.failing fails' shelf) s t) :
    Agreeing view p s t := by
  refine h.agreeing fun s' t' htwin => ?_
  have hfiles := Fitful.sameFiles_of_alongside htwin.store
  refine ⟨fun text _ _ => ?_, fun d e _ _ hde => ?_⟩
  · exact congrArg (·.mapError view) (hfiles.saveDocument _ text).1
  · exact congrArg (·.mapError view) (hfiles.saveDrawing hde).1

/-- Nor over one disk of the usual layout whose root is there and empty, by any clocks, unless the
document has a long name or the name of a directory. -/
theorem agreeing_of_disk (view : Fault → Fault) {id id' : RunId} {clock clock' : Clock} {d : Disk}
    {tally tally' : Tally} (fails fails' : Nat → Bool) (hclock : ∀ n, (clock.moment n).Short)
    (hclock' : ∀ n, (clock'.moment n).Short) (hlayout : d.layout = {})
    (hopen : Open d.rootPath d.tree) (hempty : ∀ name rest, name ≠ ".." →
      d.tree.get? (place d.rootPath ++ name :: rest) = none)
    (hshort : FileTree.tooLong (sanitize p.settings.output.documentName) = false)
    (hname : sanitize p.settings.output.documentName ∉ ["checkpoints", "sections", "diagrams"]) :
    Agreeing view p (.start p k id clock (Fitful.failing fails d) tally)
      (.start p k id' clock' (Fitful.failing fails' d) tally') := by
  have hsure := Fitful.sure (Disk.sure d.rootPath hshort hname)
  have htidy := Tidy.start hlayout hopen hempty ["checkpoints", "sections"]
  exact Assured.agreeing hsure hsure (.start hclock htidy) (.start hclock' htidy)

/-- Two small runs, of which one keeps every other artifact and the other none but documents and
drawings, leave the same files on a shelf, and report the same of a disk. -/
theorem run_twins_small :
    let p := Plan.small (.steady Assistant.scribe) none
    let r := run p .small default default (Fitful.failing (fun n => n % 2 = 1) {}) {}
    let r' := run p .small default (Clock.startingAt ⟨7, 0⟩) (Fitful.failing (fun _ => true) {}) {}
    let empty : Disk := ⟨"", {}, {}⟩
    let d := run p .small default (.still default) (Fitful.failing (fun n => n % 2 = 1) empty) {}
    let d' := run p .small default (.still default) (Fitful.failing (fun _ => true) empty) {}
    (report r.2).lenient = (report r'.2).lenient ∧
      Shelf.SameFiles r.2.store.store r'.2.store.store ∧
      (r.2.trail.checkpointFailures, r'.2.trail.checkpointFailures) = (6, 14) ∧
      (report d.2).lenient = (report d'.2).lenient := by
  obtain ⟨hended, hreport, -⟩ :=
    run_twins (fun fault => fault) (.small (.steady Assistant.scribe) none) .small default default
      default (Clock.startingAt ⟨7, 0⟩) (Fitful.failing (fun n => n % 2 = 1) {})
      (Fitful.failing (fun _ => true) {}) {} (agreeing_of_fitful (fun fault => fault) (.start ..))
  obtain ⟨-, hreportDisk, -⟩ :=
    run_twins (fun fault => fault) (.small (.steady Assistant.scribe) none) .small default default
      (.still default) (.still default) (Fitful.failing (fun n => n % 2 = 1) (⟨"", {}, {}⟩ : Disk))
      (Fitful.failing (fun _ => true) (⟨"", {}, {}⟩ : Disk)) {}
      (agreeing_of_disk _ _ _ (fun _ => short_default) (fun _ => short_default) rfl ⟨rfl, rfl⟩
        (fun _ _ hup => FileTree.get?_empty _ hup) (by decide) (by decide))
  refine ⟨hreport, Fitful.sameFiles_of_alongside hended.twin.store, ?_, hreportDisk⟩
  decide +kernel

end Session

end Run

end Scriptorium
