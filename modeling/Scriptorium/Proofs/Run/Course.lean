import Scriptorium.Proofs.Run.Steady

/-! # The course of a run

With a steady assistant the course of a run is known beforehand: for each component in the order
of the catalog the moves that its verdict calls for, then the closing ones. Every point that turns
lead to is a point of this course, and there the texts and the model are those of the components
before.
-/

namespace Scriptorium

/-- What a checkpoint tells of a move: apart from its verdict the component and the counts. -/
structure Archive.Checkpoint.Mark where
  operation : String
  phase : String
  component : Option String
  decision : Option String
  selected : List String
  counts : Counts
  deriving Repr, DecidableEq

def Archive.Checkpoint.mark (c : Checkpoint) : Checkpoint.Mark :=
  ⟨c.operation, c.phase, c.component, c.decision, c.selected, c.counts⟩

namespace Run

open Archive

namespace Plan

variable (p : Plan) (f : Assistant.Request → Except Assistant.Failure String)

/-! ## Marks -/

/-- The counts, while a component is worked on after others, when so many of these and of it are
accepted and rejected. -/
def countsAt (n : Nat) (before : List Component) (accepted rejected : Nat) : Counts where
  total := n
  remaining := n - before.length - 1
  processed := before.length + 1
  accepted := before.countP (p.accepts f) + accepted
  rejected := before.countP (!p.accepts f ·) + rejected

def marksRejected (n : Nat) (before : List Component) (c : Component) : List Checkpoint.Mark :=
  [⟨"load", Phase.filtering.name, some c.name, none, [], p.countsAt f n before 0 0⟩,
    ⟨"filter", Phase.rejected.name, some c.name, some "reject", [], p.countsAt f n before 0 1⟩,
    ⟨"reject", Phase.loading.name, some c.name, none, [], p.countsAt f n before 0 1⟩]

def marksAccepted (n : Nat) (before : List Component) (c : Component) : List Checkpoint.Mark :=
  [⟨"load", Phase.filtering.name, some c.name, none, [], p.countsAt f n before 0 0⟩,
    ⟨"filter", Phase.selecting.name, some c.name, some "accept", [], p.countsAt f n before 1 0⟩,
    ⟨"select", Phase.processing.name, some c.name, none, p.placed f c, p.countsAt f n before 1 0⟩,
    ⟨"process", Phase.loading.name, some c.name, none, p.placed f c, p.countsAt f n before 1 0⟩]

def marks (n : Nat) (before : List Component) (c : Component) : List Checkpoint.Mark :=
  match (p.judged f c).verdict with
  | .reject => p.marksRejected f n before c
  | .accept => p.marksAccepted f n before c

def countsAfter (l : List Component) : Counts where
  total := l.length
  remaining := 0
  processed := l.length
  accepted := l.countP (p.accepts f)
  rejected := l.countP (!p.accepts f ·)

def closing (l : List Component) : List Checkpoint.Mark :=
  [⟨"queue_empty", Phase.compiling.name, none, none, [], p.countsAfter f l⟩,
    ⟨"compile", Phase.finalizing.name, none, none, [], p.countsAfter f l⟩,
    ⟨"finalize", Phase.done.name, none, none, [], p.countsAfter f l⟩]

/-! ## Points of the course -/

def resting (n : Nat) (before rest : List Component) : Worklist where
  total := n
  queue := rest
  manuscript := .ofTexts p.settings.taxonomy.sectionIds.eraseDups (p.texts f before)
  model := p.model f before
  processed := before.length
  accepted := before.countP (p.accepts f)
  rejected := before.countP (!p.accepts f ·)

def loaded (n : Nat) (before : List Component) (c : Component) (rest : List Component) :
    Worklist :=
  { p.resting f n before rest with current := some c, processed := before.length + 1 }

/-- The points of the course over a list of components: a phase with the worklist, the marks and
the requests up to there. -/
inductive Course (all : List Component) :
    Phase → Worklist → List Checkpoint.Mark → List Assistant.Request → Prop where
  | loading {before rest : List Component} {w : Worklist} (h : all = before ++ rest)
      (hw : w.cleared = p.resting f all.length before rest) :
      Course all .loading w (along (p.marks f all.length) [] before) (along (p.asking f) [] before)
  | filtering {before rest : List Component} {c : Component} (h : all = before ++ c :: rest) :
      Course all .filtering (p.loaded f all.length before c rest)
        (along (p.marks f all.length) [] before ++ (p.marks f all.length before c).take 1)
        (along (p.asking f) [] before)
  | rejected {before rest : List Component} {c : Component} (h : all = before ++ c :: rest)
      (hc : (p.judged f c).verdict = .reject) :
      Course all .rejected ((p.loaded f all.length before c rest).judge .reject)
        (along (p.marks f all.length) [] before ++ (p.marks f all.length before c).take 2)
        (along (p.asking f) [] before ++ p.judging c)
  | selecting {before rest : List Component} {c : Component} (h : all = before ++ c :: rest)
      (hc : (p.judged f c).verdict = .accept) :
      Course all .selecting ((p.loaded f all.length before c rest).judge .accept)
        (along (p.marks f all.length) [] before ++ (p.marks f all.length before c).take 2)
        (along (p.asking f) [] before ++ p.judging c)
  | processing {before rest : List Component} {c : Component} (h : all = before ++ c :: rest)
      (hc : (p.judged f c).verdict = .accept) :
      Course all .processing
        (((p.loaded f all.length before c rest).judge .accept).place (p.placed f c))
        (along (p.marks f all.length) [] before ++ (p.marks f all.length before c).take 3)
        (along (p.asking f) [] before ++ p.judging c ++ [p.placing c])
  | compiling :
      Course all .compiling (p.resting f all.length all [])
        (along (p.marks f all.length) [] all ++ (p.closing f all).take 1)
        (along (p.asking f) [] all)
  | finalizing :
      Course all .finalizing (p.resting f all.length all [])
        (along (p.marks f all.length) [] all ++ (p.closing f all).take 2)
        (along (p.asking f) [] all)
  | done :
      Course all .done (p.resting f all.length all [])
        (along (p.marks f all.length) [] all ++ p.closing f all) (along (p.asking f) [] all)

variable {p f}

/-! ## Worklists on the course -/

section Points

variable {all before rest : List Component} {c : Component}

theorem counts_loaded (h : all = before ++ c :: rest) :
    (p.loaded f all.length before c rest).counts = p.countsAt f all.length before 0 0 := by
  have hrest : rest.length = all.length - before.length - 1 := by
    rw [h, List.length_append, List.length_cons]
    omega
  simp [loaded, resting, Worklist.counts, countsAt, hrest]

theorem counts_accepted (h : all = before ++ c :: rest) :
    ((p.loaded f all.length before c rest).judge .accept).counts =
      p.countsAt f all.length before 1 0 :=
  congrArg (fun n : Counts => { n with accepted := n.accepted + 1 }) (counts_loaded h)

theorem counts_rejected (h : all = before ++ c :: rest) :
    ((p.loaded f all.length before c rest).judge .reject).counts =
      p.countsAt f all.length before 0 1 :=
  congrArg (fun n : Counts => { n with rejected := n.rejected + 1 }) (counts_loaded h)

/-- A rejected component leaves the texts and the model to the next one. -/
theorem cleared_rejected (hc : (p.judged f c).verdict = .reject) :
    ((p.loaded f all.length before c rest).judge .reject).cleared =
      p.resting f all.length (before ++ [c]) rest := by
  unfold resting
  rw [texts_append_of_reject hc, model_append_of_reject hc]
  simp [loaded, resting, Worklist.judge, Worklist.cleared, accepts, hc]

/-- An accepted component leaves the texts and the model that it was worked into. -/
theorem cleared_written (hc : (p.judged f c).verdict = .accept) (targets : List String) :
    ((((p.loaded f all.length before c rest).judge .accept).place targets).written
      (.ofTexts p.settings.taxonomy.sectionIds.eraseDups (p.texts f (before ++ [c])))
      (p.model f (before ++ [c]))).cleared =
      p.resting f all.length (before ++ [c]) rest := by
  simp [loaded, resting, Worklist.judge, Worklist.place, Worklist.written, Worklist.cleared,
    accepts, hc]

/-! ## From mark to mark -/

theorem mark_recorded (w : Worklist) (m : Move) :
    (recorded w m).mark = ⟨m.operation, m.target.name, w.currentName,
      m.outcome.map fun o => Session.verdictName o.verdict, w.targets, w.counts⟩ := rfl

theorem marks_load (h : all = before ++ c :: rest) :
    (p.marks f all.length before c).take 1 =
      [(recorded (p.loaded f all.length before c rest) ⟨.filtering, "load", none⟩).mark] := by
  rw [mark_recorded, counts_loaded h]
  unfold marks
  cases (p.judged f c).verdict <;> rfl

theorem marks_filter (h : all = before ++ c :: rest) {v : Verdict}
    (hv : (p.judged f c).verdict = v) :
    (p.marks f all.length before c).take 2 =
      (p.marks f all.length before c).take 1 ++
        [(recorded ((p.loaded f all.length before c rest).judge v)
          ⟨Session.phaseAfter v, "filter", some (p.judged f c)⟩).mark] := by
  rw [mark_recorded, Option.map_some]
  unfold marks
  cases v with
  | accept =>
      rw [counts_accepted h, hv]
      rfl
  | reject =>
      rw [counts_rejected h, hv]
      rfl

theorem marks_reject (h : all = before ++ c :: rest) (hc : (p.judged f c).verdict = .reject) :
    p.marks f all.length before c =
      (p.marks f all.length before c).take 2 ++
        [(recorded ((p.loaded f all.length before c rest).judge .reject)
          ⟨.loading, "reject", none⟩).mark] := by
  rw [mark_recorded, counts_rejected h]
  unfold marks
  rw [hc]
  rfl

theorem marks_select (h : all = before ++ c :: rest) (hc : (p.judged f c).verdict = .accept) :
    (p.marks f all.length before c).take 3 =
      (p.marks f all.length before c).take 2 ++
        [(recorded (((p.loaded f all.length before c rest).judge .accept).place (p.placed f c))
          ⟨.processing, "select", none⟩).mark] := by
  have hcounts : (((p.loaded f all.length before c rest).judge .accept).place
      (p.placed f c)).counts = p.countsAt f all.length before 1 0 := counts_accepted h
  rw [mark_recorded, hcounts]
  unfold marks
  rw [hc]
  rfl

theorem marks_process (h : all = before ++ c :: rest) (hc : (p.judged f c).verdict = .accept)
    (m : Manuscript) (model : Architecture.Model) :
    p.marks f all.length before c =
      (p.marks f all.length before c).take 3 ++
        [(recorded ((((p.loaded f all.length before c rest).judge .accept).place
          (p.placed f c)).written m model) ⟨.loading, "process", none⟩).mark] := by
  have hcounts : ((((p.loaded f all.length before c rest).judge .accept).place
      (p.placed f c)).written m model).counts = p.countsAt f all.length before 1 0 :=
    counts_accepted h
  rw [mark_recorded, hcounts]
  unfold marks
  rw [hc]
  rfl

end Points

/-! ## From point to point -/

/-- What an accepted component is worked into: the texts and the model after it, by the requests
that it takes. -/
theorem process_eq (hf : p.answers = .steady f) (hp : p.Grounded) {before : List Component}
    {c : Component} (hc : (p.judged f c).verdict = .accept) {w : Worklist} {made : Nat}
    {fan : Fanout} {m : Manuscript}
    (hm : w.manuscript = .ofTexts p.settings.taxonomy.sectionIds.eraseDups (p.texts f before))
    (hmodel : w.model = p.model f before) (htargets : w.targets = p.placed f c)
    (hfan : Fanout.start w p.graph c = .ok fan)
    (hwritten : Fanout.replaceAll w.manuscript (fan.drafts (p.outcomes fan made)) = .ok m) :
    m = .ofTexts p.settings.taxonomy.sectionIds.eraseDups (p.texts f (before ++ [c])) ∧
      (fan.mergeSurvey w.model (p.surveyOutcome fan made)).1 = p.model f (before ++ [c]) ∧
      p.judging c ++ [p.placing c] ++ p.fanning fan = p.asking f before c := by
  have hplaced : ∀ id ∈ p.placed f c, id ∈ p.settings.taxonomy.sectionIds.eraseDups :=
    fun id hid => List.mem_eraseDups.mpr (Placement.mem_ofReply hp _ hid)
  have hfan' : fan = p.fanout c ((p.placed f c).map fun id => (id, p.texts f before id))
      (p.model f before) := by
    have hstart := Fanout.start_ofTexts p.graph c hm (htargets ▸ hplaced)
    rw [htargets, hmodel] at hstart
    exact Except.ok.inj (hfan.symm.trans hstart)
  have hdrafts := fanout_drafts hf c (p.placed f c) (p.texts f before) (p.model f before) made
    hfan'
  refine ⟨?_, ?_, ?_⟩
  · have hin : ∀ d ∈ fan.drafts (p.outcomes fan made),
        d.target ∈ p.settings.taxonomy.sectionIds.eraseDups := by
      intro d hd
      rw [hdrafts] at hd
      obtain ⟨id, hid, rfl⟩ := List.mem_map.mp hd
      rw [drafted_target]
      exact hplaced id hid
    have hreplaced := Fanout.replaceAll_ofTexts (p.texts f before) hin
    rw [hm] at hwritten
    rw [← Except.ok.inj (hreplaced.symm.trans hwritten), hdrafts, texts_append_of_accept hc]
  · rw [hmodel, fanout_survey hf c _ (p.model f before) made hfan', model_append_of_accept hc]
  · rw [hfan', fanning_eq, asking_of_accept hc]
    simp only [List.append_assoc]

/-- A turn leads from each point of the course to the next. -/
theorem Course.turn (hf : p.answers = .steady f) (hp : p.Grounded) {all : List Component}
    {phase : Phase} {w w' : Worklist} {marks : List Checkpoint.Mark} {made : Nat}
    {requests asked : List Assistant.Request} {m : Move} (h : p.Course f all phase w marks requests)
    (ht : Turn p w made phase m w' asked) :
    p.Course f all m.target w' (marks ++ [(recorded w' m).mark]) (requests ++ asked) := by
  cases h with
  | @loading before rest w h hw =>
      -- The last component is still at hand here; taking the next one forgets it.
      have hqueue : w.queue = rest := congrArg Worklist.queue hw
      cases ht with
      | close hnil =>
          obtain rfl : rest = [] := hqueue.symm.trans hnil
          rw [List.append_nil] at h
          subst h
          rw [hw, List.append_nil]
          exact .compiling
      | @load c rest' hcons =>
          obtain rfl : rest = c :: rest' := hqueue.symm.trans hcons
          have hnext : w.next = p.loaded f all.length before c rest' := by
            rw [← Worklist.next_cleared, hw]
            rfl
          rw [hnext, List.append_nil, ← marks_load h]
          exact .filtering h
  | @filtering before rest c h =>
      cases ht with
      | @filter d o hd ho =>
          obtain rfl : c = d := Option.some.inj hd
          obtain rfl : p.judged f c = o := (judgement_eq hf c made).symm.trans ho
          rw [List.append_assoc, ← marks_filter h rfl]
          cases hc : (p.judged f c).verdict with
          | accept => exact .selecting h hc
          | reject => exact .rejected h hc
  | @rejected before rest c h hc =>
      cases ht with
      | reject =>
          have hpoint := Course.loading (h.trans (List.append_cons before c rest))
            (cleared_rejected hc)
          rw [along_append, along_append, List.nil_append, asking_of_reject hc,
            marks_reject h hc] at hpoint
          rw [List.append_assoc, List.append_nil]
          exact hpoint
  | @selecting before rest c h hc =>
      cases ht with
      | @select d hd =>
          obtain rfl : c = d := Option.some.inj hd
          rw [placement_eq hf, List.append_assoc, ← marks_select h hc]
          exact .processing h hc
  | @processing before rest c h hc =>
      cases ht with
      | @process d fan m hd hfan hwritten =>
          obtain rfl : c = d := Option.some.inj hd
          obtain ⟨rfl, hmodel, hasked⟩ := process_eq hf hp hc rfl rfl rfl hfan hwritten
          have hpoint := Course.loading (h.trans (List.append_cons before c rest))
            (cleared_written hc (p.placed f c))
          rw [along_append, along_append, List.nil_append, ← hasked,
            marks_process h hc _ _] at hpoint
          rw [hmodel, List.append_assoc]
          simp only [List.append_assoc] at hpoint ⊢
          exact hpoint
  | compiling =>
      cases ht with
      | compile =>
          rw [mark_recorded, List.append_assoc, List.append_nil]
          exact .finalizing
  | finalizing =>
      cases ht with
      | finalize =>
          rw [mark_recorded, List.append_assoc, List.append_nil]
          exact .done
  | done => exact absurd rfl ht.not_done

theorem Course.of_done {all : List Component} {w : Worklist} {marks : List Checkpoint.Mark}
    {requests : List Assistant.Request} (h : p.Course f all .done w marks requests) :
    w = p.resting f all.length all [] ∧
      marks = along (p.marks f all.length) [] all ++ p.closing f all ∧
      requests = along (p.asking f) [] all := by
  cases h with
  | done => exact ⟨rfl, rfl, rfl⟩

end Plan

/-- Turns lead to the points of the course and nowhere else. -/
theorem Reach.course {p : Plan} {f : Assistant.Request → Except Assistant.Failure String}
    (hf : p.answers = .steady f) (hp : p.Grounded) {k : Catalog} {phase : Phase} {w : Worklist}
    {trail : List Checkpoint} {requests : List Assistant.Request}
    (h : Reach p k phase w trail requests) :
    p.Course f k.components phase w (trail.map Checkpoint.mark) requests := by
  induction h with
  | start => exact .loading (List.nil_append _).symm rfl
  | turn _ ht ih =>
      rw [List.map_append]
      exact ih.turn hf hp ht

end Run

end Scriptorium
