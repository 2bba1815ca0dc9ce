import Scriptorium.Proofs.Fitful
import Scriptorium.Proofs.Run.Judging
import Scriptorium.Proofs.Run.Totals

/-! # The accounts of a run

What a run counts is counted in several places: in the tally, in the totals of its report, in the
trail and in the worklist. The places agree after every step, and what each of them counts is what
the requests so far leave to be counted. So the accounts of a completed run balance, whichever
checkpoints and snapshots its store has kept.
-/

namespace Scriptorium

namespace Run

open Archive

/-! ## What requests leave to be counted -/

inductive Entry where
  | wait (task : Assistant.Task)
  | decision
  | snapshot
  | survey
  deriving DecidableEq

def Entry.dueTo : Entry → Assistant.Task → Bool
  | .wait t, task => t == task
  | .decision, .filter | .snapshot, .writer | .survey, .extractor => true
  | _, _ => false

/-- A call of a fan-out is waited for unless it broke off. -/
def waitOf (task : Assistant.Task) (o : Assistant.Outcome) : List Entry :=
  if o.brokeOff then [] else [.wait task]

/-- What a fan-out leaves to be counted, in the order in which it is merged. -/
def Fanout.dues (f : Fanout) (outcomes : List Assistant.Outcome) (survey : Assistant.Outcome) :
    List Entry :=
  outcomes.flatMap (waitOf .writer) ++ ((waitOf .extractor survey ++ [.survey]) ++
    (f.sections.map (·.1)).flatMap fun _ => [.snapshot])

namespace Plan

variable {p : Plan}

def dues (p : Plan) (n : Nat) (q : Assistant.Request) : List Entry :=
  match q.task with
  | .filter => [.wait .filter, .decision]
  | .selector => [.wait .selector]
  | .writer => .snapshot :: waitOf .writer (p.answers n q)
  | .extractor => .survey :: waitOf .extractor (p.answers n q)

def duesFrom (p : Plan) (made : Nat) (asked : List Assistant.Request) : List Entry :=
  (asked.zipIdx made).flatMap fun (q, n) => p.dues n q

theorem duesFrom_cons (made : Nat) (q : Assistant.Request) (asked : List Assistant.Request) :
    p.duesFrom made (q :: asked) = p.dues made q ++ p.duesFrom (made + 1) asked := rfl

theorem duesFrom_append (made : Nat) (asked later : List Assistant.Request) :
    p.duesFrom made (asked ++ later) =
      p.duesFrom made asked ++ p.duesFrom (made + asked.length) later := by
  rw [duesFrom, List.zipIdx_append, List.flatMap_append]
  rfl

def Unbroken (p : Plan) (requests : List Assistant.Request) : Prop :=
  ∀ n q, requests[n]? = some q → (p.answers n q).brokeOff = false

theorem count_dues {n : Nat} {q : Assistant.Request} (h : (p.answers n q).brokeOff = false)
    (e : Entry) : (p.dues n q).count e = if e.dueTo q.task then 1 else 0 := by
  unfold dues waitOf
  rw [h]
  cases q.task <;> cases e with
  | wait t => cases t <;> decide
  | _ => decide

theorem length_draftsFrom (made : Nat) (asked : List Assistant.Request) :
    (p.draftsFrom made asked).length = asked.countP (·.task = .writer) := by
  induction asked generalizing made with
  | nil => rfl
  | cons q asked ih =>
      have hone : (p.draftsFrom made [q]).length = if q.task = .writer then 1 else 0 := by
        by_cases htask : q.task = .writer <;> simp [draftsFrom, draft?, htask]
      rw [← List.singleton_append, draftsFrom_append, List.length_append, hone, ih,
        List.countP_append, List.countP_singleton]
      simp only [decide_eq_true_eq]

/-- Where no call broke off, each request leaves each of its entries once. -/
theorem count_duesFrom {requests : List Assistant.Request} (h : p.Unbroken requests) (e : Entry) :
    (p.duesFrom 0 requests).count e = requests.countP fun q => e.dueTo q.task := by
  -- The first number moves along the list, so the induction is on lists numbered from anywhere.
  have hfrom : ∀ (l : List Assistant.Request) (made : Nat),
      (∀ n q, l[n]? = some q → (p.answers (made + n) q).brokeOff = false) →
        (p.duesFrom made l).count e = l.countP fun q => e.dueTo q.task := by
    intro l
    induction l with
    | nil => exact fun _ _ => rfl
    | cons q l ih =>
        intro made hl
        have hq : (p.answers made q).brokeOff = false := hl 0 q rfl
        have hrest := ih (made + 1) fun n r hr => by
          have hcame := hl (n + 1) r hr
          rwa [← Nat.add_assoc, Nat.add_right_comm] at hcame
        rw [duesFrom_cons, List.count_append, count_dues hq, hrest, List.countP_cons,
          Nat.add_comm]
  exact hfrom requests 0 fun n q hq => by
    rw [Nat.zero_add]
    exact h n q hq

theorem count_duesFrom_draftRequests (c : Component) (context : Survey.Context)
    (sections : List (String × String)) (made : Nat) (e : Entry) :
    (p.duesFrom made (Fanout.draftRequests ⟨c, sections, context⟩ p.settings.prompts)).count e =
      ((p.outcomes ⟨c, sections, context⟩ made).flatMap (waitOf .writer)).count e +
        ((sections.map (·.1)).flatMap fun _ => [Entry.snapshot]).count e := by
  -- The requests leave wait and snapshot by turns and merging leaves all waits first, so only the
  -- counts agree.
  induction sections generalizing made with
  | nil => rfl
  | cons t sections ih =>
      obtain ⟨q, hq⟩ : ∃ q, Drafting.request (p.settings.prompts.writer t.1) t.1 t.2 c = q :=
        ⟨_, rfl⟩
      have hrequests : Fanout.draftRequests ⟨c, t :: sections, context⟩ p.settings.prompts =
          q :: Fanout.draftRequests ⟨c, sections, context⟩ p.settings.prompts := by
        rw [← hq]
        rfl
      have houtcomes : p.outcomes ⟨c, t :: sections, context⟩ made =
          p.answers made q :: p.outcomes ⟨c, sections, context⟩ (made + 1) := by
        rw [outcomes, hrequests]
        rfl
      have hdues : p.dues made q = .snapshot :: waitOf .writer (p.answers made q) := by
        rw [← hq]
        rfl
      have hrest := ih (made + 1)
      rw [hrequests, houtcomes, duesFrom_cons, hdues, List.map_cons, List.flatMap_cons,
        List.flatMap_cons]
      simp only [List.count_append, List.count_cons, List.count_nil] at hrest ⊢
      omega

/-- The requests of a fan-out leave what merging it counts. -/
theorem count_duesFrom_fanning (f : Fanout) (made : Nat) (e : Entry) :
    (p.duesFrom made (p.fanning f)).count e =
      (f.dues (p.outcomes f made) (p.surveyOutcome f made)).count e := by
  obtain ⟨c, sections, context⟩ := f
  have hdrafts := count_duesFrom_draftRequests (p := p) c context sections made e
  have hsurvey : ∀ n, p.duesFrom n
      [Fanout.surveyRequest ⟨c, sections, context⟩ p.settings.prompts] =
        .survey :: waitOf .extractor (p.answers n
          (Fanout.surveyRequest ⟨c, sections, context⟩ p.settings.prompts)) :=
    fun n => List.append_nil _
  rw [fanning, duesFrom_append, List.count_append, hsurvey, List.count_cons, hdrafts]
  simp only [Fanout.dues, surveyOutcome, List.count_append, List.count_cons, List.count_nil]
  omega

end Plan

/-! ## Requests by the phase -/

def Phase.unplaced : Phase → Nat
  | .selecting => 1
  | _ => 0

def Phase.unsurveyed : Phase → Nat
  | .selecting | .processing => 1
  | _ => 0

theorem Plan.countP_judging {p : Plan} {c : Component} {task : Assistant.Task}
    (htask : task ≠ .filter) : (p.judging c).countP (·.task = task) = 0 := by
  unfold Plan.judging
  cases p.sieve.judge? c with
  | some o => rfl
  | none => exact List.countP_eq_zero.mpr (by simpa [Triage.request] using htask.symm)

/-- Every accepted component is placed once and surveyed once. -/
theorem Reach.asked_of_accepted {p : Plan} {k : Catalog} {phase : Phase} {w : Worklist}
    {trail : List Checkpoint} {requests : List Assistant.Request}
    (h : Reach p k phase w trail requests) :
    requests.countP (·.task = .selector) + phase.unplaced = w.accepted ∧
      requests.countP (·.task = .extractor) + phase.unsurveyed = w.accepted := by
  induction h with
  | start => exact ⟨rfl, rfl⟩
  | @turn phase w w' trail m requests asked _ ht ih =>
      obtain ⟨hplaced, hsurveyed⟩ := ih
      rw [List.countP_append, List.countP_append]
      cases ht with
      | load hqueue =>
          rw [Worklist.next_of_cons hqueue]
          exact ⟨hplaced, hsurveyed⟩
      | @filter c o _ _ =>
          rw [Plan.countP_judging (by decide), Plan.countP_judging (by decide)]
          cases hv : o.verdict with
          | accept =>
              -- From here on both requests are due; the turns that make them settle that.
              simp only [Phase.unplaced, Phase.unsurveyed, Session.phaseAfter, Worklist.judge]
                at hplaced hsurveyed ⊢
              omega
          | reject => exact ⟨hplaced, hsurveyed⟩
      | select _ =>
          simp only [Phase.unplaced, Phase.unsurveyed, Worklist.place, Plan.placing,
            Placement.request, List.countP_singleton] at hplaced hsurveyed ⊢
          simp only [decide_true, if_true, reduceCtorEq, decide_false] at hplaced hsurveyed ⊢
          exact ⟨hplaced, hsurveyed⟩
      | @process c f m _ _ _ =>
          have hnone : ∀ task, task ≠ .writer → (f.draftRequests p.settings.prompts).countP
              (·.task = task) = 0 := by
            intro task htask
            rw [List.countP_eq_zero]
            intro q hq
            obtain ⟨t, -, rfl⟩ := List.mem_map.mp hq
            exact fun h => htask (of_decide_eq_true h).symm
          simp only [Phase.unplaced, Phase.unsurveyed, Worklist.written, Plan.fanning,
            List.countP_append, hnone _ (by decide : Assistant.Task.selector ≠ .writer),
            hnone _ (by decide : Assistant.Task.extractor ≠ .writer)] at hplaced hsurveyed ⊢
          exact ⟨hplaced, hsurveyed⟩
      | _ => exact ⟨hplaced, hsurveyed⟩

/-! ## Counts that agree -/

namespace Session

variable {σ : Type} {p : Plan} {k : Catalog} {s t u : Session σ} {entries later : List Entry}

/-- The tally says what the worklist, the totals and the trail say, and each of them counts
completely. -/
structure Agreed (s : Session σ) : Prop where
  accepted : s.tally.accepted = s.work.accepted
  rejected : s.tally.rejected = s.work.rejected
  classifierDecisions : s.tally.classifierDecisions = s.totals.classifierDecisions
  selectorFallbacks : s.tally.selectorFallbacks = s.totals.selectorFallbacks
  sectionsWritten : s.tally.sectionsWritten = s.totals.sectionsWritten
  sectionFailures : s.tally.sectionFailures = s.totals.sectionFailures
  extractionFailures : s.tally.extractionFailures = s.totals.extractionFailures
  checkpointFailures : s.tally.checkpointFailures = s.trail.checkpointFailures
  checkpoints : s.trail.checkpointsWritten + s.trail.checkpointFailures =
    s.trail.checkpoints.length
  waits : s.tally.waits = s.tally.waitsFor .filter + s.tally.waitsFor .selector +
    s.tally.waitsFor .writer + s.tally.waitsFor .extractor

/-- How often an entry has been counted. -/
def booked (s : Session σ) : Entry → Nat
  | .wait task => s.tally.waitsFor task
  | .decision => s.totals.classifierDecisions
  | .snapshot => s.trail.snapshotsWritten + s.trail.snapshotFailures
  | .survey => s.tally.extractionsMerged + s.tally.extractionFailures

/-- Work that counts entries and keeps the counts in agreement. -/
structure Enters (entries : List Entry) (s t : Session σ) : Prop where
  agreed : Agreed s → Agreed t
  booked : ∀ e, t.booked e = s.booked e + entries.count e

namespace Enters

theorem nothing (htally : t.tally = s.tally) (htotals : t.totals = s.totals)
    (htrail : t.trail = s.trail) (haccepted : t.work.accepted = s.work.accepted)
    (hrejected : t.work.rejected = s.work.rejected) : Enters [] s t where
  agreed h := by
    constructor
    all_goals simp only [htally, htotals, htrail, haccepted, hrejected]
    · exact h.accepted
    · exact h.rejected
    · exact h.classifierDecisions
    · exact h.selectorFallbacks
    · exact h.sectionsWritten
    · exact h.sectionFailures
    · exact h.extractionFailures
    · exact h.checkpointFailures
    · exact h.checkpoints
    · exact h.waits
  booked e := by
    cases e <;> simp only [Session.booked, htally, htotals, htrail, List.count_nil, Nat.add_zero]

theorem trans (hst : Enters entries s t) (htu : Enters later t u) :
    Enters (entries ++ later) s u where
  agreed h := htu.agreed (hst.agreed h)
  booked e := by rw [htu.booked, hst.booked, List.count_append, Nat.add_assoc]

theorem foldl {α : Type} {f : Session σ → α → Session σ} {g : α → List Entry}
    (hf : ∀ s a, Enters (g a) s (f s a)) (l : List α) (s : Session σ) :
    Enters (l.flatMap g) s (l.foldl f s) :=
  foldl_graded (fun _ => nothing rfl rfl rfl rfl rfl) trans hf l s

theorem congr (h : Enters entries s t) (hcount : ∀ e, entries.count e = later.count e) :
    Enters later s t where
  agreed := h.agreed
  booked e := by rw [h.booked, hcount]

end Enters

/-- The counts of a run agree, and its entries are those that its requests leave. -/
structure Booked (p : Plan) (s : Session σ) : Prop where
  agreed : Agreed s
  complete : ∀ e, s.booked e = (p.duesFrom 0 s.requests).count e

theorem Booked.of_enters {asked : List Assistant.Request} (h : Booked p s)
    (hrequests : t.requests = s.requests ++ asked)
    (henters : Enters (p.duesFrom s.requests.length asked) s t) : Booked p t where
  agreed := henters.agreed h.agreed
  complete e := by
    rw [henters.booked, h.complete, hrequests, Plan.duesFrom_append, List.count_append,
      Nat.zero_add]

theorem Booked.start (p : Plan) (k : Catalog) (id : RunId) (clock : Clock) (store : σ) :
    Booked p (start p k id clock store {}) where
  agreed := by constructor <;> rfl
  complete e := by
    cases e with
    | wait t => cases t <;> rfl
    | _ => rfl

/-! ## The work of a phase -/

theorem waited_enters (task : Assistant.Task) (s : Session σ) :
    Enters [.wait task] s (s.waited task) where
  agreed h := by
    have hwaits := h.waits
    simp only [Tally.waitsFor] at hwaits
    cases task
    all_goals
      refine { h with waits := ?_ }
      simp only [waited, Tally.observe, Tally.waitsFor, hwaits]
      omega
  booked e := by
    cases e with
    | wait t => cases task <;> cases t <;> rfl
    | _ => cases task <;> rfl

theorem waitedFor_enters (task : Assistant.Task) (s : Session σ) (o : Assistant.Outcome) :
    Enters (waitOf task o) s (waitedFor task s o) := by
  unfold waitedFor waitOf
  split
  · exact .nothing rfl rfl rfl rfl rfl
  · exact waited_enters task s

theorem countPlacement_enters (s : Session σ) (o : Placement.Outcome) :
    Enters [] s (s.countPlacement o) := by
  unfold countPlacement
  split
  · refine ⟨fun h => ?_, fun e => ?_⟩
    · exact { h with selectorFallbacks := congrArg (· + 1) h.selectorFallbacks }
    · cases e <;> rfl
  · exact .nothing rfl rfl rfl rfl rfl

theorem countDraft_enters (s : Session σ) (d : Drafting.Draft) : Enters [] s (countDraft s d) := by
  unfold countDraft
  split
  · refine ⟨fun h => ?_, fun e => ?_⟩
    · exact { h with sectionFailures := congrArg (· + 1) h.sectionFailures }
    · cases e <;> rfl
  · refine ⟨fun h => ?_, fun e => ?_⟩
    · exact { h with sectionsWritten := congrArg (· + 1) h.sectionsWritten }
    · cases e <;> rfl

theorem countSurvey_enters (s : Session σ) (merged : Bool) :
    Enters [.survey] s (s.countSurvey merged) := by
  unfold countSurvey
  split
  · refine ⟨fun h => { h with }, fun e => ?_⟩
    cases e with
    | survey => exact Nat.add_right_comm _ _ _
    | _ => rfl
  · refine ⟨fun h => ?_, fun e => ?_⟩
    · exact { h with extractionFailures := congrArg (· + 1) h.extractionFailures }
    · cases e <;> rfl

theorem mergeSurvey_enters (f : Fanout) (s : Session σ) (o : Assistant.Outcome) :
    Enters (waitOf .extractor o ++ [.survey]) s (mergeSurvey f s o) := by
  have hwaited := waitedFor_enters .extractor s o
  unfold mergeSurvey
  generalize waitedFor .extractor s o = t at hwaited ⊢
  have hmerged : Enters [] t
      { t with work := { t.work with model := (f.mergeSurvey t.work.model o).1 } } :=
    .nothing rfl rfl rfl rfl rfl
  exact hwaited.trans (hmerged.trans (countSurvey_enters _ _))

/-- A verdict is counted in the tally and in the worklist, and in the totals where it was asked
for. -/
theorem judged_enters (s : Session σ) (v : Verdict) (asked : Bool) :
    Enters (if asked then [.decision] else []) s
      { s.count (.judged v asked) with
        work := s.work.judge v
        totals := { s.totals with
          classifierDecisions := s.totals.classifierDecisions + asked.toNat } } := by
  have hbooked : ∀ e, booked { s.count (.judged v asked) with
      work := s.work.judge v
      totals := { s.totals with
        classifierDecisions := s.totals.classifierDecisions + asked.toNat } } e =
      s.booked e + (if asked then [Entry.decision] else []).count e := by
    intro e
    cases asked <;> cases v <;> cases e <;> rfl
  refine ⟨fun h => ?_, hbooked⟩
  cases v with
  | accept =>
      have haccepted := congrArg (· + 1) h.accepted
      cases asked with
      | true =>
          exact { h with
            accepted := haccepted
            classifierDecisions := congrArg (· + 1) h.classifierDecisions }
      | false => exact { h with accepted := haccepted }
  | reject =>
      have hrejected := congrArg (· + 1) h.rejected
      cases asked with
      | true =>
          exact { h with
            rejected := hrejected
            classifierDecisions := congrArg (· + 1) h.classifierDecisions }
      | false => exact { h with rejected := hrejected }

theorem filter_enters (hr : Triage.Sieve.ofRules p.settings.triage = .ok p.sieve) {c : Component}
    (hcurrent : s.work.current = some c) :
    Enters (p.duesFrom s.requests.length (p.judging c)) s (s.filter p).2 := by
  unfold filter withCurrent
  rw [hcurrent]
  dsimp only
  unfold judge Plan.judging
  cases hjudge : p.sieve.judge? c with
  | some o =>
      obtain ⟨rule, -, hholds⟩ := (Triage.Sieve.judge?_eq_some_iff hr).mp hjudge
      have hjudged := judged_enters s o.verdict o.reason.asked
      rw [hholds.not_asked] at hjudged
      dsimp only
      rw [hholds.not_asked]
      exact hjudged
  | none =>
      dsimp only
      obtain ⟨q, hq⟩ : ∃ q, Triage.request p.settings.prompts.filter c = q := ⟨_, rfl⟩
      obtain ⟨o, ho⟩ : ∃ o, Triage.ofReply (p.answers s.requests.length q).settled = o := ⟨_, rfl⟩
      have hasked : o.reason.asked = true := (Triage.ofReply_eq_iff.mp ho).asked
      rw [hq, ho, hasked]
      have hnoted : Enters [] s (s.noted q) := .nothing rfl rfl rfl rfl rfl
      have hjudged := judged_enters ((s.noted q).waited .filter) o.verdict true
      have hdues : p.duesFrom s.requests.length [q] = [.wait .filter, .decision] := by
        rw [← hq]
        rfl
      rw [hdues]
      exact hnoted.trans ((waited_enters .filter (s.noted q)).trans hjudged)

theorem select_enters {c : Component} (hcurrent : s.work.current = some c) :
    Enters (p.duesFrom s.requests.length [p.placing c]) s (s.select p).2 := by
  obtain ⟨o, ho⟩ : ∃ o, p.placement c s.requests.length = o := ⟨_, rfl⟩
  have hselect : s.select p = (.ok ⟨.processing, "select", none⟩,
      let t := ((s.noted (p.placing c)).waited .selector).countPlacement o
      { t with work := t.work.place o.sections }) := by
    rw [← ho]
    simp only [select, withCurrent, hcurrent]
    rfl
  rw [hselect]
  have hnoted : Enters [] s (s.noted (p.placing c)) := .nothing rfl rfl rfl rfl rfl
  have hcounted := countPlacement_enters ((s.noted (p.placing c)).waited .selector) o
  have hplaced : ∀ t : Session σ, Enters [] t { t with work := t.work.place o.sections } :=
    fun t => .nothing rfl rfl rfl rfl rfl
  exact hnoted.trans ((waited_enters .selector _).trans (hcounted.trans (hplaced _)))

variable [Store σ]

theorem keepSnapshot_enters (component : String) (s : Session σ) (target : String) :
    Enters [.snapshot] s (keepSnapshot component s target) := by
  unfold keepSnapshot
  dsimp only
  generalize (Store.saveSnapshot s.store _).1.isOk = kept
  refine ⟨fun h => { h with }, fun e => ?_⟩
  cases e with
  | snapshot =>
      cases kept with
      | true => exact Nat.add_right_comm _ _ _
      | false => rfl
  | _ => rfl

theorem keepCheckpoint_enters (s : Session σ) (m : Move) : Enters [] s (s.keepCheckpoint m) := by
  unfold keepCheckpoint
  dsimp only
  generalize (Store.saveCheckpoint s.store _).1.isOk = kept
  cases kept with
  | true =>
      refine ⟨fun h => { h with checkpoints := ?_ }, fun e => ?_⟩
      · simp only [Trail.withCheckpoint, List.length_append, List.length_singleton,
          ← h.checkpoints, Bool.toNat_true, Bool.not_true, Bool.toNat_false]
        omega
      · cases e <;> rfl
  | false =>
      refine ⟨fun h => { h with checkpointFailures := ?_, checkpoints := ?_ }, fun e => ?_⟩
      · exact congrArg (· + 1) h.checkpointFailures
      · simp only [Trail.withCheckpoint, List.length_append, List.length_singleton,
          ← h.checkpoints, Bool.toNat_true, Bool.not_false, Bool.toNat_false]
        omega
      · cases e <;> rfl

/-- Merging counts a wait for each draft that came back and a snapshot of each section. -/
theorem merge_enters {f : Fanout} {m : Manuscript} {outcomes : List Assistant.Outcome}
    (survey : Assistant.Outcome)
    (hm : Fanout.replaceAll s.work.manuscript (f.drafts outcomes) = .ok m) :
    Enters (f.dues outcomes survey) s (merge f s outcomes survey).2 := by
  have hcounting := counted_counting f outcomes s
  have hwaited := Enters.foldl (waitedFor_enters .writer) outcomes s
  have hcounted := Enters.foldl countDraft_enters (f.drafts outcomes)
    (outcomes.foldl (waitedFor .writer) s)
  rw [List.flatMap_eq_nil_iff.mpr fun _ _ => rfl] at hcounted
  have hdrafted := hwaited.trans hcounted
  rw [List.append_nil] at hdrafted
  unfold merge
  dsimp only
  generalize (f.drafts outcomes).foldl countDraft (outcomes.foldl (waitedFor .writer) s) = t
    at hcounting hdrafted ⊢
  rw [hcounting.work, hm, ← hcounting.work]
  -- `t` has counted the calls, and `u` has the new texts.
  obtain ⟨u, hu⟩ : ∃ u, { t with work := { t.work with manuscript := m } } = u := ⟨_, rfl⟩
  have hwritten : Enters [] t u := by
    rw [← hu]
    exact .nothing rfl rfl rfl rfl rfl
  have hkept := Enters.foldl (keepSnapshot_enters f.component.name) (f.sections.map (·.1))
    (mergeSurvey f u survey)
  dsimp only
  rw [hu]
  exact hdrafted.trans (hwritten.trans ((mergeSurvey_enters f u survey).trans hkept))

theorem process_enters {c : Component} {f : Fanout} {m : Manuscript}
    (hcurrent : s.work.current = some c) (hstart : Fanout.start s.work p.graph c = .ok f)
    (hm : Fanout.replaceAll s.work.manuscript (f.drafts (p.outcomes f s.requests.length)) =
      .ok m) :
    Enters (p.duesFrom s.requests.length (p.fanning f)) s (s.process p).2 := by
  have hnoted : Enters [] s { s with requests := s.requests ++ p.fanning f } :=
    .nothing rfl rfl rfl rfl rfl
  have hmerged := hnoted.trans (merge_enters (p.surveyOutcome f s.requests.length)
    (s := { s with requests := s.requests ++ p.fanning f }) hm)
  rw [process_snd hcurrent hstart]
  exact hmerged.congr fun e => (Plan.count_duesFrom_fanning f s.requests.length e).symm

/-- Closing work counts nothing and asks nothing, whether or not the store keeps what it must. -/
theorem closing_enters (hphase : s.machine.phase = .compiling ∨ s.machine.phase = .finalizing) :
    (s.act p).2.requests = s.requests ∧ Enters [] s (s.act p).2 := by
  unfold act
  rcases hphase with hphase | hphase
  · rw [hphase]
    dsimp only
    unfold compile
    split
    · exact ⟨rfl, .nothing rfl rfl rfl rfl rfl⟩
    · split
      · exact ⟨rfl, .nothing rfl rfl rfl rfl rfl⟩
      · split <;> exact ⟨rfl, .nothing rfl rfl rfl rfl rfl⟩
  · rw [hphase]
    dsimp only
    unfold finalize
    dsimp only
    split <;> exact ⟨rfl, .nothing rfl rfl rfl rfl rfl⟩

/-- The work of a phase counts what its requests leave to be counted. -/
theorem act_enters (hr : Triage.Sieve.ofRules p.settings.triage = .ok p.sieve) {n : Nat}
    (h : Fits p n s.machine.phase s.work) (hphase : s.machine.phase ≠ .done) :
    ∃ asked, (s.act p).2.requests = s.requests ++ asked ∧
      Enters (p.duesFrom s.requests.length asked) s (s.act p).2 := by
  -- At the end the store may fail, which is no turn; but there nothing is asked and counted.
  by_cases hclosing : s.machine.phase = .compiling ∨ s.machine.phase = .finalizing
  · obtain ⟨hrequests, henters⟩ := closing_enters (p := p) hclosing
    exact ⟨[], by rw [hrequests, List.append_nil], henters⟩
  rw [not_or] at hclosing
  obtain ⟨m, w, asked, hacts, hturn⟩ :=
    acts_before_closing h ⟨hclosing.1, hclosing.2, hphase⟩
  refine ⟨asked, hacts.requests, ?_⟩
  unfold act
  generalize s.machine.phase = phase at hclosing hturn
  cases hturn with
  | close hqueue =>
      simp only [load, Worklist.next_of_nil hqueue, Worklist.cleared]
      exact .nothing rfl rfl rfl rfl rfl
  | load hqueue =>
      simp only [load, Worklist.next_of_cons hqueue, Worklist.cleared]
      exact .nothing rfl rfl rfl rfl rfl
  | filter hcurrent _ => exact filter_enters hr hcurrent
  | reject => exact .nothing rfl rfl rfl rfl rfl
  | select hcurrent => exact select_enters hcurrent
  | process hcurrent hstart hm => exact process_enters hcurrent hstart hm
  | compile => exact absurd rfl hclosing.1
  | finalize => exact absurd rfl hclosing.2

/-! ## Whole runs -/

theorem Booked.step (hr : Triage.Sieve.ofRules p.settings.triage = .ok p.sieve) {n : Nat}
    (hfits : Fits p n s.machine.phase s.work) (hphase : s.machine.phase ≠ .done)
    (h : Booked p s) : Booked p (s.step p).2 := by
  obtain ⟨asked, hrequests, henters⟩ := act_enters hr hfits hphase
  have hacted := h.of_enters hrequests henters
  rcases step_cases p s with hstep | ⟨m, machine, hstep⟩
  · rw [hstep]
    exact hacted
  · rw [hstep]
    generalize (s.act p).2 = t at hacted ⊢
    have hmoved : Enters [] t { t with machine := machine } := .nothing rfl rfl rfl rfl rfl
    have hkept := hmoved.trans (keepCheckpoint_enters { t with machine := machine } m)
    exact hacted.of_enters (List.append_nil t.requests).symm hkept

/-- The entries of any run are complete, wherever it ends. -/
theorem run_booked (hp : p.Grounded)
    (hr : Triage.Sieve.ofRules p.settings.triage = .ok p.sieve) (k : Catalog) (id : RunId)
    (clock : Clock) (store : σ) : Booked p (run p k id clock store {}).2 :=
  run_induction hp (.start p k id clock store) fun _ hstanding hphase =>
    Booked.step hr (hstanding.reach.fits hp) hphase

def asked (s : Session σ) (task : Assistant.Task) : Nat := s.requests.countP (·.task = task)

/-- The accounts of a run that is done: what its report says, what its tally says and what it has
asked are one. -/
structure Balanced (s : Session σ) : Prop where
  components : s.report.total = s.report.accepted + s.report.rejected
  checkpoints : s.report.checkpointsWritten + s.report.checkpointFailures = s.report.steps
  filter : s.asked .filter = s.report.classifierDecisions ∧
    s.asked .filter = s.tally.waitsFor .filter
  selector : s.asked .selector = s.report.accepted ∧
    s.asked .selector = s.tally.waitsFor .selector
  writer : s.asked .writer = s.report.sectionsWritten + s.report.sectionFailures ∧
    s.asked .writer = s.tally.waitsFor .writer ∧
    s.asked .writer = s.trail.snapshotsWritten + s.report.snapshotFailures
  extractor : s.asked .extractor = s.report.accepted ∧
    s.asked .extractor = s.tally.waitsFor .extractor ∧
    s.asked .extractor = s.tally.extractionsMerged + s.report.extractionFailures
  accepted : s.tally.accepted = s.report.accepted
  rejected : s.tally.rejected = s.report.rejected
  classifierDecisions : s.tally.classifierDecisions = s.report.classifierDecisions
  selectorFallbacks : s.tally.selectorFallbacks = s.report.selectorFallbacks
  sectionsWritten : s.tally.sectionsWritten = s.report.sectionsWritten
  sectionFailures : s.tally.sectionFailures = s.report.sectionFailures
  extractionFailures : s.tally.extractionFailures = s.report.extractionFailures
  checkpointFailures : s.tally.checkpointFailures = s.report.checkpointFailures
  waits : s.tally.waits = s.tally.waitsFor .filter + s.tally.waitsFor .selector +
    s.tally.waitsFor .writer + s.tally.waitsFor .extractor

/-- The accounts of a completed run of checked settings balance, whatever the assistant answers and
whichever checkpoints and snapshots the store keeps, as long as no call breaks off. -/
theorem run_balances {settings : Settings} {graph : Option CallGraph}
    {answers : Assistant.Answering} (hp : Plan.ofSettings settings graph answers = .ok p)
    (k : Catalog) (id : RunId) (clock : Clock) (store : σ)
    (hok : (run p k id clock store {}).1 = .ok ())
    (hunbroken : p.Unbroken (run p k id clock store {}).2.requests) :
    (run p k id clock store {}).2.report.total = k.size ∧
      Balanced (run p k id clock store {}).2 := by
  have hgrounded := Plan.grounded_of_ofSettings hp
  obtain ⟨-, sieve, hr, rfl⟩ := Plan.ofSettings_eq_ok_iff.mp hp
  have hended := run_ended hgrounded k id clock store {}
  have hcounted := run_counted ⟨settings, sieve, graph, answers⟩ k id clock store {}
  have hbooked := run_booked hgrounded hr k id clock store
  have hreach := hended.reach_of_ok hok
  have hsteps := hended.steps_eq
  generalize run ⟨settings, sieve, graph, answers⟩ k id clock store {} = r at *
  obtain ⟨answer, s⟩ := r
  obtain ⟨hagreed, hcomplete⟩ := hbooked
  have hfits := hreach.fits hgrounded
  obtain ⟨hqueue, -⟩ := hreach.judged_of_done
  obtain ⟨hplaced, hsurveyed⟩ := hreach.asked_of_accepted
  have hentry : ∀ e, s.booked e = s.requests.countP fun q => e.dueTo q.task := fun e =>
    (hcomplete e).trans (Plan.count_duesFrom hunbroken e)
  have hmade : ∀ task, s.tally.waitsFor task = s.asked task := by
    intro task
    refine (hentry (.wait task)).trans (List.countP_congr fun q _ => ?_)
    cases q.task <;> cases task <;> decide
  have hdrafts : s.totals.sectionsWritten + s.totals.sectionFailures = s.asked .writer := by
    rw [hcounted.written, hcounted.failed, asked, ← Plan.length_draftsFrom 0 s.requests,
      List.length_eq_countP_add_countP (·.error.isNone)]
    refine congrArg (_ + ·) (List.countP_congr fun d _ => ?_)
    cases d.error <;> simp
  have hdecisions : s.totals.classifierDecisions = s.asked .filter :=
    (hentry .decision).trans (List.countP_congr fun q _ => by cases q.task <;> decide)
  have hsnapshots : s.trail.snapshotsWritten + s.trail.snapshotFailures = s.asked .writer :=
    (hentry .snapshot).trans (List.countP_congr fun q _ => by cases q.task <;> decide)
  have hsurveys : s.tally.extractionsMerged + s.tally.extractionFailures = s.asked .extractor :=
    (hentry .survey).trans (List.countP_congr fun q _ => by cases q.task <;> decide)
  have hcomponents : s.work.total = s.work.accepted + s.work.rejected := by
    have hprocessed := hfits.processed
    rw [hqueue, List.length_nil] at hprocessed
    exact hfits.total.trans (hprocessed.symm.trans hfits.judged.symm)
  refine ⟨hfits.total, ?_⟩
  exact {
    components := hcomponents
    checkpoints := hagreed.checkpoints.trans hsteps.symm
    filter := ⟨hdecisions.symm, (hmade .filter).symm⟩
    selector := ⟨hplaced, (hmade .selector).symm⟩
    writer := ⟨hdrafts.symm, (hmade .writer).symm, hsnapshots.symm⟩
    extractor := ⟨hsurveyed, (hmade .extractor).symm,
      hsurveys.symm.trans (congrArg (_ + ·) hagreed.extractionFailures)⟩
    accepted := hagreed.accepted
    rejected := hagreed.rejected
    classifierDecisions := hagreed.classifierDecisions
    selectorFallbacks := hagreed.selectorFallbacks
    sectionsWritten := hagreed.sectionsWritten
    sectionFailures := hagreed.sectionFailures
    extractionFailures := hagreed.extractionFailures
    checkpointFailures := hagreed.checkpointFailures
    waits := hagreed.waits }

private theorem ok_of_isOk {ε : Type} {x : Except ε Unit} (h : x.isOk = true) : x = .ok () := by
  cases x with
  | ok _ => rfl
  | error e => cases h

/-- The accounts of a small run that loses every other checkpoint or snapshot. -/
theorem run_balances_small :
    let p := Plan.small (.steady Assistant.scribe) none
    let s := (run p .small default default (Fitful.failing (fun n => n % 2 = 1) ({} : Shelf)) {}).2
    Balanced s ∧ (s.asked .filter, s.asked .selector, s.asked .writer, s.asked .extractor) =
        (0, 2, 2, 2) ∧
      (s.trail.checkpointFailures, s.trail.snapshotFailures, s.tally.waits) = (6, 2, 6) := by
  intro p s
  have hp := Plan.ofSettings_small (.steady Assistant.scribe) none (by decide)
  have hok : (run p .small default default (Fitful.failing (fun n => n % 2 = 1) ({} : Shelf))
      {}).1 = .ok () := ok_of_isOk (by decide +kernel)
  obtain ⟨-, hbalanced⟩ := run_balances hp .small default default
    (Fitful.failing (fun n => n % 2 = 1) ({} : Shelf)) hok fun n q _ =>
      Assistant.brokeOff_steady Assistant.scribe n q
  refine ⟨hbalanced, ?_, ?_⟩
  · decide +kernel
  · decide +kernel

end Session

end Run

end Scriptorium
