import Scriptorium.Proofs.Run.Replay

/-! # Counted drafts

A run counts each draft once, as a section that was written or as one that failed. What it has
counted at any moment, also where an error ended it, can therefore be read off its requests.
-/

namespace Scriptorium

namespace Run

namespace Session

open Archive

variable {σ : Type} {p : Plan} {s t u : Session σ} {asked later : List Assistant.Request}
  {drafts more : List Drafting.Draft}

structure Adds (asked : List Assistant.Request) (drafts : List Drafting.Draft)
    (s t : Session σ) : Prop where
  requests : t.requests = s.requests ++ asked
  written : t.totals.sectionsWritten =
    s.totals.sectionsWritten + drafts.countP (·.error.isNone)
  failed : t.totals.sectionFailures =
    s.totals.sectionFailures + drafts.countP (·.error.isSome)

namespace Adds

theorem nothing (hrequests : t.requests = s.requests) (htotals : t.totals = s.totals) :
    Adds [] [] s t :=
  ⟨by simp [hrequests], by simp [htotals], by simp [htotals]⟩

theorem trans (hst : Adds asked drafts s t) (htu : Adds later more t u) :
    Adds (asked ++ later) (drafts ++ more) s u where
  requests := by rw [htu.requests, hst.requests, List.append_assoc]
  written := by rw [htu.written, hst.written, List.countP_append, Nat.add_assoc]
  failed := by rw [htu.failed, hst.failed, List.countP_append, Nat.add_assoc]

theorem foldl {α : Type} {f : Session σ → α → Session σ} {g : α → List Drafting.Draft}
    (hf : ∀ s a, Adds [] (g a) s (f s a)) (l : List α) (s : Session σ) :
    Adds [] (l.flatMap g) s (l.foldl f s) :=
  foldl_graded (G := Adds []) (fun _ => nothing rfl rfl) trans hf l s

theorem of_no_writer (h : Adds asked [] s t) (hasked : ∀ q ∈ asked, q.task ≠ .writer) :
    Adds asked (p.draftsFrom s.requests.length asked) s t := by
  rwa [Plan.draftsFrom_of_no_writer hasked]

end Adds

/-! ## The work of a phase -/

theorem waitedFor_adds (task : Assistant.Task) (s : Session σ) (o : Assistant.Outcome) :
    Adds [] [] s (waitedFor task s o) := by
  unfold waitedFor
  split <;> exact .nothing rfl rfl

theorem countDraft_adds (s : Session σ) (d : Drafting.Draft) : Adds [] [d] s (countDraft s d) := by
  unfold countDraft
  cases h : d.error with
  | none => exact ⟨by simp [count], by simp [h], by simp [h]⟩
  | some e => exact ⟨by simp [count], by simp [h], by simp [h]⟩

theorem mergeSurvey_adds (f : Fanout) (s : Session σ) (o : Assistant.Outcome) :
    Adds [] [] s (mergeSurvey f s o) := by
  have hmerged : Adds [] [] (waitedFor .extractor s o) (mergeSurvey f s o) := by
    unfold mergeSurvey countSurvey
    dsimp only
    split
    · exact .nothing rfl rfl
    · exact ⟨by simp [count], by simp, by simp⟩
  exact (waitedFor_adds .extractor s o).trans hmerged

theorem judge_adds (p : Plan) (s : Session σ) (c : Component) :
    Adds (p.judging c) [] s (judge p s c).2 := by
  unfold judge Plan.judging
  cases p.sieve.judge? c with
  | some o => exact .nothing rfl rfl
  | none => exact ⟨rfl, rfl, rfl⟩

theorem placing_adds (p : Plan) (s : Session σ) (c : Component) :
    Adds [p.placing c] [] s (((s.noted (p.placing c)).waited .selector).countPlacement
      (p.placement c s.requests.length)) := by
  unfold countPlacement
  split <;> exact ⟨rfl, rfl, rfl⟩

variable [Store σ]

/-- Merging counts the drafts of a fan-out, whether or not they can all be written. -/
theorem merge_adds (f : Fanout) (s : Session σ) (outcomes : List Assistant.Outcome)
    (survey : Assistant.Outcome) : Adds [] (f.drafts outcomes) s (merge f s outcomes survey).2 := by
  have hwaited := Adds.foldl (waitedFor_adds .writer) outcomes s
  have hcounted := Adds.foldl countDraft_adds (f.drafts outcomes)
    (outcomes.foldl (waitedFor .writer) s)
  rw [List.flatMap_eq_nil_iff.mpr fun _ _ => rfl] at hwaited
  rw [List.flatMap_singleton'] at hcounted
  have hdrafted := hwaited.trans hcounted
  unfold merge
  dsimp only
  split
  · exact hdrafted
  next m _ =>
    generalize (f.drafts outcomes).foldl countDraft (outcomes.foldl (waitedFor .writer) s) = t
      at hdrafted ⊢
    have hwritten : Adds [] [] t { t with work := { t.work with manuscript := m } } :=
      .nothing rfl rfl
    have hsurveyed := mergeSurvey_adds f { t with work := { t.work with manuscript := m } } survey
    have hkept := Adds.foldl (g := fun _ => [])
      (fun u target => .nothing (t := keepSnapshot f.component.name u target) rfl rfl)
      (f.sections.map (·.1)) (mergeSurvey f { t with work := { t.work with manuscript := m } } survey)
    rw [List.flatMap_eq_nil_iff.mpr fun _ _ => rfl] at hkept
    simpa using hdrafted.trans (hwritten.trans (hsurveyed.trans hkept))

omit [Store σ] in
theorem load_adds (s : Session σ) : Adds [] [] s s.load.2 := by
  unfold load
  dsimp only
  split <;> exact .nothing rfl rfl

omit [Store σ] in
theorem filter_adds (p : Plan) (s : Session σ) :
    ∃ asked, Adds asked (p.draftsFrom s.requests.length asked) s (s.filter p).2 := by
  unfold filter withCurrent
  split
  next c _ =>
    have hjudged := (judge_adds p s c).of_no_writer (p := p) Plan.judging_task
    exact ⟨p.judging c, hjudged.requests, hjudged.written, hjudged.failed⟩
  next => exact ⟨[], .nothing rfl rfl⟩

omit [Store σ] in
theorem select_adds (p : Plan) (s : Session σ) :
    ∃ asked, Adds asked (p.draftsFrom s.requests.length asked) s (s.select p).2 := by
  unfold select withCurrent
  split
  next c _ =>
    have hplaced := (placing_adds p s c).of_no_writer (p := p)
      (by simp [Plan.placing, Placement.request])
    exact ⟨[p.placing c], hplaced.requests, hplaced.written, hplaced.failed⟩
  next => exact ⟨[], .nothing rfl rfl⟩

theorem process_adds (p : Plan) (s : Session σ) :
    ∃ asked, Adds asked (p.draftsFrom s.requests.length asked) s (s.process p).2 := by
  rcases process_cases p s with hsame | ⟨f, hmerged⟩
  · rw [hsame]
    exact ⟨[], .nothing rfl rfl⟩
  · have hnoted : Adds (p.fanning f) [] s { s with requests := s.requests ++ p.fanning f } :=
      ⟨rfl, rfl, rfl⟩
    have hadds := hnoted.trans (merge_adds f { s with requests := s.requests ++ p.fanning f }
      (p.outcomes f s.requests.length) (p.surveyOutcome f s.requests.length))
    rw [← Plan.draftsFrom_fanning, List.append_nil, List.nil_append] at hadds
    rw [hmerged]
    exact ⟨p.fanning f, hadds⟩

theorem compile_adds (p : Plan) (s : Session σ) : Adds [] [] s (s.compile p).2 := by
  unfold compile
  split
  · exact .nothing rfl rfl
  · split
    · exact .nothing rfl rfl
    · split <;> exact .nothing rfl rfl

theorem finalize_adds (s : Session σ) : Adds [] [] s s.finalize.2 := by
  unfold finalize
  dsimp only
  split <;> exact .nothing rfl rfl

/-- The work of a phase counts the drafts that its requests come to. -/
theorem act_adds (p : Plan) (s : Session σ) :
    ∃ asked, Adds asked (p.draftsFrom s.requests.length asked) s (s.act p).2 := by
  unfold act
  cases s.machine.phase with
  | loading => exact ⟨[], load_adds s⟩
  | filtering => exact filter_adds p s
  | rejected => exact ⟨[], .nothing rfl rfl⟩
  | selecting => exact select_adds p s
  | processing => exact process_adds p s
  | compiling => exact ⟨[], compile_adds p s⟩
  | finalizing => exact ⟨[], finalize_adds s⟩
  | done => exact ⟨[], .nothing rfl rfl⟩

theorem step_adds (p : Plan) (s : Session σ) :
    ∃ asked, Adds asked (p.draftsFrom s.requests.length asked) s (s.step p).2 := by
  obtain ⟨asked, hasked⟩ := act_adds p s
  refine ⟨asked, ?_⟩
  rcases step_cases p s with hstep | ⟨m, machine, hstep⟩
  · rw [hstep]
    exact hasked
  · rw [hstep]
    exact ⟨hasked.requests, hasked.written, hasked.failed⟩

/-! ## Whole runs -/

/-- A run has counted the drafts that its requests came to, those that failed apart. -/
structure Counted (p : Plan) (s : Session σ) : Prop where
  written : s.totals.sectionsWritten =
    (p.draftsFrom 0 s.requests).countP (·.error.isNone)
  failed : s.totals.sectionFailures =
    (p.draftsFrom 0 s.requests).countP (·.error.isSome)

theorem Counted.step (h : Counted p s) : Counted p (s.step p).2 := by
  obtain ⟨asked, hrequests, hwritten, hfailed⟩ := step_adds p s
  constructor
  · rw [hwritten, hrequests, h.written, Plan.draftsFrom_append, List.countP_append, Nat.zero_add]
  · rw [hfailed, hrequests, h.failed, Plan.draftsFrom_append, List.countP_append, Nat.zero_add]

theorem run_counted (p : Plan) (k : Catalog) (id : RunId) (clock : Clock)
    (store : σ) (tally : Tally) : Counted p (run p k id clock store tally).2 :=
  drive_induction (i := fun _ => True) (q := Counted p) (fun _ _ _ _ => trivial)
    (fun _ _ _ => Counted.step) (moves k.size) trivial ⟨rfl, rfl⟩

end Session

end Run

end Scriptorium
