import Scriptorium.Proofs.Manuscript
import Scriptorium.Proofs.Settings
import Scriptorium.Proofs.Store

/-! # The work of each phase

One statement for each phase says all that its work can come to: the move that is asked for, the
worklist and the requests after it, and that everything the work has no business with is left
alone. Whoever reasons about steps cites these statements and never looks into the work itself.
-/

namespace Scriptorium

namespace Worklist

def cleared (w : Worklist) : Worklist := { w with current := none, targets := [], verdict := none }

def written (w : Worklist) (m : Manuscript) (model : Architecture.Model) : Worklist :=
  { w with manuscript := m, model := model }

theorem next_cleared (w : Worklist) : w.cleared.next = w.next := rfl

theorem next_of_nil {w : Worklist} (h : w.queue = []) : w.next = w.cleared := by
  simp [next, cleared, h]

theorem next_of_cons {w : Worklist} {c : Component} {rest : List Component}
    (h : w.queue = c :: rest) :
    w.next = { w.cleared with
      queue := rest, current := some c, processed := w.processed + 1 } := by
  simp [next, cleared, h]

end Worklist

namespace Run

/-! ## What a plan asks and makes of the answers -/

namespace Plan

def judging (p : Plan) (c : Component) : List Assistant.Request :=
  match p.sieve.judge? c with
  | some _ => []
  | none => [Triage.request p.settings.prompts.filter c]

def judgement (p : Plan) (c : Component) (made : Nat) : Triage.Outcome :=
  match p.sieve.judge? c with
  | some o => o
  | none =>
    Triage.ofReply (p.answers made (Triage.request p.settings.prompts.filter c)).settled

def placing (p : Plan) (c : Component) : Assistant.Request :=
  Placement.request p.settings.prompts.selector p.settings.taxonomy c

def placement (p : Plan) (c : Component) (made : Nat) : Placement.Outcome :=
  Placement.ofReply p.settings.taxonomy p.settings.fallback
    (p.answers made (p.placing c)).settled

def fanout (p : Plan) (c : Component) (sections : List (String × String))
    (model : Architecture.Model) : Fanout :=
  ⟨c, sections, .ofModel model ((p.graph.map fun g => g.neighbors c.name).getD {})⟩

def fanning (p : Plan) (f : Fanout) : List Assistant.Request :=
  f.draftRequests p.settings.prompts ++ [f.surveyRequest p.settings.prompts]

def outcomes (p : Plan) (f : Fanout) (made : Nat) : List Assistant.Outcome :=
  ((f.draftRequests p.settings.prompts).zipIdx made).map fun (r, n) => p.answers n r

/-- What the call for the survey of a fan-out comes to, which follows the drafts. -/
def surveyOutcome (p : Plan) (f : Fanout) (made : Nat) : Assistant.Outcome :=
  p.answers (made + (f.draftRequests p.settings.prompts).length)
    (f.surveyRequest p.settings.prompts)

end Plan

namespace Session

open Archive

variable {σ : Type} {p : Plan} {s t u : Session σ}

theorem foldl_noted (l : List Assistant.Request) (s : Session σ) :
    l.foldl noted s = { s with requests := s.requests ++ l } := by
  induction l generalizing s with
  | nil => simp
  | cons r l ih => simp [ih, noted]

/-- What relates a session to the one after each piece of work, with a list of what the work adds,
relates it to the one after all of them. -/
theorem foldl_graded {α β : Type} {G : List β → Session σ → Session σ → Prop}
    (hnil : ∀ s, G [] s s)
    (happend : ∀ {added later : List β} {s t u : Session σ}, G added s t → G later t u →
      G (added ++ later) s u)
    {f : Session σ → α → Session σ} {g : α → List β} (hf : ∀ s a, G (g a) s (f s a)) (l : List α)
    (s : Session σ) : G (l.flatMap g) s (l.foldl f s) := by
  induction l generalizing s with
  | nil => exact hnil s
  | cons a l ih => exact happend (hf s a) (ih (f s a))

/-! ## Counting -/

/-- Work that counts and changes nothing else. -/
def Counting (s t : Session σ) : Prop := t = { s with tally := t.tally, totals := t.totals }

namespace Counting

theorem trans (hst : Counting s t) (htu : Counting t u) : Counting s u := by
  unfold Counting at hst htu ⊢
  rw [htu, hst]

theorem foldl {α : Type} {f : Session σ → α → Session σ} (hf : ∀ s a, Counting s (f s a))
    (l : List α) (s : Session σ) : Counting s (l.foldl f s) :=
  foldl_graded (G := fun _ : List Unit => Counting) (fun _ => rfl) trans (g := fun _ => []) hf l s

theorem work (h : Counting s t) : t.work = s.work := by
  rw [h]

theorem store (h : Counting s t) : t.store = s.store := by
  rw [h]

theorem trail (h : Counting s t) : t.trail = s.trail := by
  rw [h]

end Counting

theorem waitedFor_counting (task : Assistant.Task) (s : Session σ) (o : Assistant.Outcome) :
    Counting s (waitedFor task s o) := by
  unfold waitedFor
  split <;> exact rfl

theorem countPlacement_counting (s : Session σ) (o : Placement.Outcome) :
    Counting s (s.countPlacement o) := by
  unfold countPlacement
  split <;> exact rfl

theorem countDraft_counting (s : Session σ) (d : Drafting.Draft) :
    Counting s (countDraft s d) := by
  unfold countDraft
  split <;> exact rfl

theorem countSurvey_counting (s : Session σ) (merged : Bool) :
    Counting s (s.countSurvey merged) := by
  unfold countSurvey
  split <;> exact rfl

/-- The calls of a fan-out are counted before anything is merged. -/
theorem counted_counting (f : Fanout) (outcomes : List Assistant.Outcome) (s : Session σ) :
    Counting s ((f.drafts outcomes).foldl countDraft (outcomes.foldl (waitedFor .writer) s)) :=
  (Counting.foldl (waitedFor_counting .writer) outcomes s).trans
    (Counting.foldl countDraft_counting (f.drafts outcomes) _)

/-! ## Frames -/

variable [Store σ]

/-- What the work of a phase leaves alone: the name of the run, its machine and its checkpoints.
The store changes only by what is given to it. -/
structure Frame (s t : Session σ) : Prop where
  id : t.id = s.id
  machine : t.machine = s.machine
  checkpoints : t.trail.checkpoints = s.trail.checkpoints
  store : Store.Becomes s.store t.store

theorem Frame.refl (s : Session σ) : Frame s s := ⟨rfl, rfl, rfl, .same⟩

theorem Frame.trans (hst : Frame s t) (htu : Frame t u) : Frame s u where
  id := htu.id.trans hst.id
  machine := htu.machine.trans hst.machine
  checkpoints := htu.checkpoints.trans hst.checkpoints
  store := hst.store.trans htu.store

/-- Bookkeeping: a frame that keeps the worklist and the requests as well. -/
structure Quiet (s t : Session σ) : Prop extends Frame s t where
  work : t.work = s.work
  requests : t.requests = s.requests

theorem Quiet.refl (s : Session σ) : Quiet s s := ⟨.refl s, rfl, rfl⟩

theorem Quiet.trans (hst : Quiet s t) (htu : Quiet t u) : Quiet s u :=
  ⟨hst.toFrame.trans htu.toFrame, htu.work.trans hst.work, htu.requests.trans hst.requests⟩

theorem Quiet.foldl {α : Type} {f : Session σ → α → Session σ} (hf : ∀ s a, Quiet s (f s a))
    (l : List α) (s : Session σ) : Quiet s (l.foldl f s) :=
  foldl_graded (G := fun _ : List Unit => Quiet) .refl .trans (g := fun _ => []) hf l s

theorem Counting.quiet (h : Counting s t) : Quiet s t := by
  unfold Counting at h
  rw [h]
  exact ⟨⟨rfl, rfl, rfl, .same⟩, rfl, rfl⟩

theorem keepSnapshot_quiet (component : String) (s : Session σ) (target : String) :
    Quiet s (keepSnapshot component s target) :=
  ⟨⟨rfl, rfl, rfl, .snapshot _ .same⟩, rfl, rfl⟩

/-! ## What work comes to -/

/-- The work of a phase succeeds: the move it asks for, the worklist after it and the requests it
made. -/
structure Acts (p : Plan) (s : Session σ) (m : Move) (w : Worklist)
    (asked : List Assistant.Request) : Prop where
  move : (s.act p).1 = .ok m
  frame : Frame s (s.act p).2
  work : (s.act p).2.work = w
  requests : (s.act p).2.requests = s.requests ++ asked

/-- The work of a phase fails for a fault of the store and nothing else. -/
structure Fails (p : Plan) (s : Session σ) (fault : Fault) : Prop where
  error : (s.act p).1 = .error (.archive fault)
  quiet : Quiet s (s.act p).2

/-! ## Loading, judging and placing -/

theorem acts_loading_nil (hphase : s.machine.phase = .loading) (hqueue : s.work.queue = []) :
    Acts p s ⟨.compiling, "queue_empty", none⟩ s.work.cleared [] := by
  have hact : s.act p =
      (.ok ⟨.compiling, "queue_empty", none⟩, { s with work := s.work.cleared }) := by
    simp [act, hphase, load, Worklist.next_of_nil hqueue, Worklist.cleared]
  constructor <;> rw [hact]
  · exact ⟨rfl, rfl, rfl, .same⟩
  · exact (List.append_nil _).symm

theorem acts_loading_cons {c : Component} {rest : List Component}
    (hphase : s.machine.phase = .loading) (hqueue : s.work.queue = c :: rest) :
    Acts p s ⟨.filtering, "load", none⟩ s.work.next [] := by
  have hact : s.act p = (.ok ⟨.filtering, "load", none⟩, { s with work := s.work.next }) := by
    simp [act, hphase, load, Worklist.next_of_cons hqueue]
  constructor <;> rw [hact]
  · exact ⟨rfl, rfl, rfl, .same⟩
  · exact (List.append_nil _).symm

omit [Store σ] in
theorem judge_fst (p : Plan) (s : Session σ) (c : Component) :
    (judge p s c).1 = p.judgement c s.requests.length := by
  unfold judge Plan.judgement
  cases p.sieve.judge? c <;> rfl

theorem judge_snd (p : Plan) (s : Session σ) (c : Component) :
    Frame s (judge p s c).2 ∧ (judge p s c).2.work = s.work ∧
      (judge p s c).2.requests = s.requests ++ p.judging c := by
  unfold judge Plan.judging
  cases p.sieve.judge? c with
  | some o => exact ⟨.refl s, rfl, (List.append_nil _).symm⟩
  | none => exact ⟨⟨rfl, rfl, rfl, .same⟩, rfl, rfl⟩

theorem acts_filtering {c : Component} (hphase : s.machine.phase = .filtering)
    (hcurrent : s.work.current = some c) :
    Acts p s
      ⟨phaseAfter (p.judgement c s.requests.length).verdict, "filter",
        some (p.judgement c s.requests.length)⟩
      (s.work.judge (p.judgement c s.requests.length).verdict) (p.judging c) := by
  obtain ⟨hframe, hwork, hreq⟩ := judge_snd p s c
  have hact : s.act p = s.filter p := by simp only [act, hphase]
  constructor <;> rw [hact] <;> simp only [filter, withCurrent, hcurrent, ← judge_fst p s c]
  · exact hframe.trans ⟨rfl, rfl, rfl, .same⟩
  · rw [← hwork]
    rfl
  · exact hreq

theorem acts_rejected (hphase : s.machine.phase = .rejected) :
    Acts p s ⟨.loading, "reject", none⟩ s.work [] := by
  have hact : s.act p = (.ok ⟨.loading, "reject", none⟩, s) := by simp only [act, hphase]
  constructor <;> rw [hact]
  · exact .refl s
  · exact (List.append_nil _).symm

theorem acts_selecting {c : Component} (hphase : s.machine.phase = .selecting)
    (hcurrent : s.work.current = some c) :
    Acts p s ⟨.processing, "select", none⟩
      (s.work.place (p.placement c s.requests.length).sections) [p.placing c] := by
  obtain ⟨o, ho⟩ : ∃ o, p.placement c s.requests.length = o := ⟨_, rfl⟩
  have hasked : Frame s ((s.noted (p.placing c)).waited .selector) := ⟨rfl, rfl, rfl, .same⟩
  have hquiet := (countPlacement_counting ((s.noted (p.placing c)).waited .selector) o).quiet
  have hact : s.act p = (.ok ⟨.processing, "select", none⟩,
      let t := ((s.noted (p.placing c)).waited .selector).countPlacement o
      { t with work := t.work.place o.sections }) := by
    rw [← ho]
    simp only [act, hphase, select, withCurrent, hcurrent]
    rfl
  constructor <;> rw [hact]
  · exact (hasked.trans hquiet.toFrame).trans ⟨rfl, rfl, rfl, .same⟩
  · rw [ho]
    exact congrArg (·.place o.sections) hquiet.work
  · exact hquiet.requests

/-! ## Drafting and surveying -/

theorem mergeSurvey_snd (f : Fanout) (s : Session σ) (o : Assistant.Outcome) :
    Frame s (mergeSurvey f s o) ∧
      (mergeSurvey f s o).work = { s.work with model := (f.mergeSurvey s.work.model o).1 } ∧
      (mergeSurvey f s o).requests = s.requests := by
  have hwaited := (waitedFor_counting .extractor s o).quiet
  unfold mergeSurvey
  rw [← hwaited.work, ← hwaited.requests]
  generalize waitedFor .extractor s o = t at hwaited ⊢
  have hcount := (countSurvey_counting
    { t with work := { t.work with model := (f.mergeSurvey t.work.model o).1 } }
    (f.mergeSurvey t.work.model o).2).quiet
  have hmerged : Frame t
      { t with work := { t.work with model := (f.mergeSurvey t.work.model o).1 } } :=
    ⟨rfl, rfl, rfl, .same⟩
  exact ⟨hwaited.toFrame.trans (hmerged.trans hcount.toFrame), hcount.work, hcount.requests⟩

theorem merge_of_replaceAll {f : Fanout} {m : Manuscript} {outcomes : List Assistant.Outcome}
    (survey : Assistant.Outcome)
    (hm : Fanout.replaceAll s.work.manuscript (f.drafts outcomes) = .ok m) :
    (merge f s outcomes survey).1 = .ok () ∧ Frame s (merge f s outcomes survey).2 ∧
      (merge f s outcomes survey).2.work =
        s.work.written m (f.mergeSurvey s.work.model survey).1 ∧
      (merge f s outcomes survey).2.requests = s.requests := by
  have hquiet := (counted_counting f outcomes s).quiet
  unfold merge
  dsimp only
  generalize (f.drafts outcomes).foldl countDraft (outcomes.foldl (waitedFor .writer) s) = t
    at hquiet ⊢
  -- `t` has counted the calls, `u` has the new texts; after the survey only snapshots are kept.
  rw [hquiet.work, hm, ← hquiet.work, ← hquiet.requests]
  obtain ⟨u, hu⟩ : ∃ u, { t with work := { t.work with manuscript := m } } = u := ⟨_, rfl⟩
  have hwritten : Frame t u := by
    rw [← hu]
    exact ⟨rfl, rfl, rfl, .same⟩
  obtain ⟨hframe, hwork, hreq⟩ := mergeSurvey_snd f u survey
  have hkept := Quiet.foldl (keepSnapshot_quiet f.component.name) (f.sections.map (·.1))
    (mergeSurvey f u survey)
  dsimp only
  rw [hu]
  refine ⟨rfl, hquiet.toFrame.trans (hwritten.trans (hframe.trans hkept.toFrame)), ?_, ?_⟩
  · rw [hkept.work, hwork, ← hu]
    rfl
  · rw [hkept.requests, hreq, ← hu]

/-- Processing is merging what the calls of a fan-out come to, once their requests are noted. -/
theorem process_of_start {c : Component} {f : Fanout} (hcurrent : s.work.current = some c)
    (hstart : Fanout.start s.work p.graph c = .ok f) :
    s.process p =
      match merge f { s with requests := s.requests ++ p.fanning f }
        (p.outcomes f s.requests.length) (p.surveyOutcome f s.requests.length) with
      | (.error e, t) => (.error e, t)
      | (.ok (), t) => (.ok ⟨.loading, "process", none⟩, t) := by
  simp only [process, withCurrent, hcurrent, hstart, foldl_noted]
  rfl

theorem process_snd {c : Component} {f : Fanout} (hcurrent : s.work.current = some c)
    (hstart : Fanout.start s.work p.graph c = .ok f) :
    (s.process p).2 = (merge f { s with requests := s.requests ++ p.fanning f }
      (p.outcomes f s.requests.length) (p.surveyOutcome f s.requests.length)).2 := by
  rw [process_of_start hcurrent hstart]
  rcases merge f _ _ _ with ⟨answer, t⟩
  cases answer <;> rfl

/-- Processing leaves a run as it is, or as merging leaves it. -/
theorem process_cases (p : Plan) (s : Session σ) : (s.process p).2 = s ∨
    ∃ f, (s.process p).2 = (merge f { s with requests := s.requests ++ p.fanning f }
      (p.outcomes f s.requests.length) (p.surveyOutcome f s.requests.length)).2 := by
  cases hcurrent : s.work.current with
  | none => exact .inl (by simp only [process, withCurrent, hcurrent])
  | some c =>
      cases hstart : Fanout.start s.work p.graph c with
      | error e => exact .inl (by simp only [process, withCurrent, hcurrent, hstart])
      | ok f => exact .inr ⟨f, process_snd hcurrent hstart⟩

theorem acts_processing {c : Component} {f : Fanout} {m : Manuscript}
    (hphase : s.machine.phase = .processing) (hcurrent : s.work.current = some c)
    (hstart : Fanout.start s.work p.graph c = .ok f)
    (hm : Fanout.replaceAll s.work.manuscript (f.drafts (p.outcomes f s.requests.length)) = .ok m) :
    Acts p s ⟨.loading, "process", none⟩
      (s.work.written m (f.mergeSurvey s.work.model (p.surveyOutcome f s.requests.length)).1)
      (p.fanning f) := by
  obtain ⟨asked, hasked⟩ : ∃ t, { s with requests := s.requests ++ p.fanning f } = t := ⟨_, rfl⟩
  obtain ⟨hok, hframe, hwork, hreq⟩ := merge_of_replaceAll
    (p.surveyOutcome f s.requests.length) (s := asked) (by rw [← hasked]; exact hm)
  have hact : s.act p = (.ok ⟨.loading, "process", none⟩,
      (merge f asked (p.outcomes f s.requests.length)
        (p.surveyOutcome f s.requests.length)).2) := by
    simp only [act, hphase]
    rw [process_of_start hcurrent hstart, hasked]
    generalize merge f asked _ _ = r at hok ⊢
    obtain ⟨answer, t⟩ := r
    obtain rfl : answer = .ok () := hok
    rfl
  constructor <;> rw [hact]
  · refine .trans ?_ hframe
    rw [← hasked]
    exact ⟨rfl, rfl, rfl, .same⟩
  · rw [hwork, ← hasked]
  · rw [hreq, ← hasked]

/-! ## Compiling and finalizing -/

/-- Compiling succeeds or meets a fault of the store, where the document was to be kept. -/
theorem acts_compiling {text : String} (hphase : s.machine.phase = .compiling)
    (htext : Document.compile p.settings.taxonomy p.settings.output.title s.work.manuscript =
      .ok text) :
    Acts p s ⟨.finalizing, "compile", none⟩ s.work [] ∨
      text ≠ "" ∧ ∃ fault, Fails p s fault ∧
        Store.saveDocument s.store p.settings.output.documentName text =
          (.error fault, (s.act p).2.store) := by
  have hact : s.act p = s.compile p := by simp only [act, hphase]
  by_cases hempty : text = ""
  · left
    constructor <;> rw [hact] <;> simp only [compile, htext, if_pos hempty]
    · exact .refl s
    · exact (List.append_nil _).symm
  · rcases hsave : Store.saveDocument s.store p.settings.output.documentName text
      with ⟨answer, store⟩
    have hstore : Store.Becomes s.store store := by
      have hbecomes := Store.Becomes.document (a := s.store)
        p.settings.output.documentName text .same
      rwa [hsave] at hbecomes
    cases answer with
    | ok path =>
        left
        constructor <;> rw [hact] <;> simp only [compile, htext, if_neg hempty, hsave]
        · exact ⟨rfl, rfl, rfl, hstore⟩
        · exact (List.append_nil _).symm
    | error fault =>
        right
        have hfail : s.act p = (.error (.archive fault), { s with store := store }) := by
          rw [hact]
          simp only [compile, htext, if_neg hempty, hsave]
        refine ⟨hempty, fault, ⟨?_, ?_⟩, ?_⟩ <;> rw [hfail]
        exact ⟨⟨rfl, rfl, rfl, hstore⟩, rfl, rfl⟩

/-- Drawing the model succeeds or meets a fault of the store, where the drawing was to be kept. -/
theorem acts_finalizing (hphase : s.machine.phase = .finalizing) :
    Acts p s ⟨.done, "finalize", none⟩ s.work [] ∨
      ∃ fault, Fails p s fault ∧
        Store.saveDrawing s.store s.drawn = (.error fault, (s.act p).2.store) := by
  rcases hsave : Store.saveDrawing s.store s.drawn with ⟨answer, store⟩
  have hstore : Store.Becomes s.store store := by
    have hbecomes := Store.Becomes.drawing (a := s.store) s.drawn .same
    rwa [hsave] at hbecomes
  cases answer with
  | ok paths =>
      left
      have hact : s.act p = (.ok ⟨.done, "finalize", none⟩,
          { s.tick with store := store, drawing := some paths }) := by
        simp only [act, hphase, finalize, hsave]
      constructor <;> rw [hact]
      · exact ⟨rfl, rfl, rfl, hstore⟩
      · rfl
      · exact (List.append_nil _).symm
  | error fault =>
      right
      have hact : s.act p = (.error (.archive fault), { s with store := store }) := by
        simp only [act, hphase, finalize, hsave]
      refine ⟨fault, ⟨?_, ?_⟩, ?_⟩ <;> rw [hact]
      exact ⟨⟨rfl, rfl, rfl, hstore⟩, rfl, rfl⟩

/-! ## Work that gives nothing but snapshots -/

/-- Work that gives nothing but snapshots to the store, and leaves the clock, the machine and the
document alone. -/
structure Gathers (s t : Session σ) : Prop where
  clock : t.clock = s.clock
  machine : t.machine = s.machine
  document : t.document = s.document
  store : ∀ q : σ → Prop, (∀ a n, q a → q (Store.saveSnapshot a n).2) → q s.store → q t.store

theorem Gathers.refl (s : Session σ) : Gathers s s := ⟨rfl, rfl, rfl, fun _ _ hs => hs⟩

theorem Gathers.trans (hst : Gathers s t) (htu : Gathers t u) : Gathers s u where
  clock := htu.clock.trans hst.clock
  machine := htu.machine.trans hst.machine
  document := htu.document.trans hst.document
  store q hq hs := htu.store q hq (hst.store q hq hs)

theorem Gathers.foldl {α : Type} {f : Session σ → α → Session σ} (hf : ∀ s a, Gathers s (f s a))
    (l : List α) (s : Session σ) : Gathers s (l.foldl f s) :=
  foldl_graded (G := fun _ : List Unit => Gathers) .refl .trans (g := fun _ => []) hf l s

theorem Counting.gathers (h : Counting s t) : Gathers s t := by
  unfold Counting at h
  rw [h]
  exact ⟨rfl, rfl, rfl, fun _ _ hs => hs⟩

theorem keepSnapshot_gathers (component : String) (s : Session σ) (target : String) :
    Gathers s (keepSnapshot component s target) := ⟨rfl, rfl, rfl, fun _ hq hs => hq _ _ hs⟩

theorem mergeSurvey_gathers (f : Fanout) (s : Session σ) (o : Assistant.Outcome) :
    Gathers s (mergeSurvey f s o) := by
  have hwaited := (waitedFor_counting .extractor s o).gathers
  unfold mergeSurvey
  generalize waitedFor .extractor s o = t at hwaited ⊢
  have hmerged : Gathers t
      { t with work := { t.work with model := (f.mergeSurvey t.work.model o).1 } } :=
    ⟨rfl, rfl, rfl, fun _ _ hs => hs⟩
  exact hwaited.trans (hmerged.trans (countSurvey_counting _ _).gathers)

theorem merge_gathers (f : Fanout) (s : Session σ) (outcomes : List Assistant.Outcome)
    (survey : Assistant.Outcome) : Gathers s (merge f s outcomes survey).2 := by
  have hcounted := (counted_counting f outcomes s).gathers
  unfold merge
  dsimp only
  generalize (f.drafts outcomes).foldl countDraft (outcomes.foldl (waitedFor .writer) s) = t
    at hcounted ⊢
  split
  · exact hcounted
  next m _ =>
    have hwritten : Gathers t { t with work := { t.work with manuscript := m } } :=
      ⟨rfl, rfl, rfl, fun _ _ hs => hs⟩
    exact hcounted.trans (hwritten.trans ((mergeSurvey_gathers f _ survey).trans
      (.foldl (keepSnapshot_gathers f.component.name) _ _)))

/-- Only compiling and drawing give anything else. -/
theorem act_gathers (p : Plan) (hcompiling : s.machine.phase ≠ .compiling)
    (hfinalizing : s.machine.phase ≠ .finalizing) : Gathers s (s.act p).2 := by
  have hsame : Gathers s s := .refl s
  unfold act
  cases hat : s.machine.phase with
  | loading =>
      simp only [load]
      split <;> exact ⟨rfl, rfl, rfl, fun _ _ hs => hs⟩
  | filtering =>
      simp only [filter, withCurrent]
      split
      next c _ =>
        simp only [judge]
        split <;> exact ⟨rfl, rfl, rfl, fun _ _ hs => hs⟩
      · exact hsame
  | rejected => exact hsame
  | selecting =>
      simp only [select, withCurrent]
      split
      · simp only [countPlacement]
        split <;> exact ⟨rfl, rfl, rfl, fun _ _ hs => hs⟩
      · exact hsame
  | processing =>
      rcases process_cases p s with hdone | ⟨f, hmerged⟩
      · exact hdone.symm ▸ hsame
      · have hnoted : Gathers s { s with requests := s.requests ++ p.fanning f } :=
          ⟨rfl, rfl, rfl, fun _ _ hs => hs⟩
        exact hmerged.symm ▸ hnoted.trans (merge_gathers f _ _ _)
  | compiling => exact absurd hat hcompiling
  | finalizing => exact absurd hat hfinalizing
  | done => exact hsame

end Session

end Run

end Scriptorium
