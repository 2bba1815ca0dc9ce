import Scriptorium.Proofs.Drafting
import Scriptorium.Proofs.Run.Ending

/-! # Texts by the requests made for them

The texts of a run can be read off its requests: they are the drafts that the requests for texts
came to, written one after the other from empty texts. Every request for a text shows the text that
its section has at that moment. Any two moments of a completed run are reached one from the other.
-/

namespace Scriptorium

namespace Run

open Archive

namespace Plan

variable {p : Plan}

def draft? (p : Plan) (n : Nat) (q : Assistant.Request) : Option Drafting.Draft :=
  if q.task = .writer then some (Drafting.ofRequest q (p.answers n q)) else none

def draftsFrom (p : Plan) (made : Nat) (asked : List Assistant.Request) : List Drafting.Draft :=
  (asked.zipIdx made).filterMap fun (q, n) => p.draft? n q

theorem draftsFrom_append (made : Nat) (asked later : List Assistant.Request) :
    p.draftsFrom made (asked ++ later) =
      p.draftsFrom made asked ++ p.draftsFrom (made + asked.length) later := by
  rw [draftsFrom, List.zipIdx_append, List.filterMap_append]
  rfl

theorem draftsFrom_of_no_writer {asked : List Assistant.Request}
    (h : ∀ q ∈ asked, q.task ≠ .writer) (made : Nat) : p.draftsFrom made asked = [] := by
  refine List.filterMap_eq_nil_iff.mpr fun ⟨q, n⟩ hq => ?_
  exact if_neg (h q (List.fst_mem_of_mem_zipIdx hq))

theorem mem_draftsFrom {made : Nat} {asked : List Assistant.Request} {d : Drafting.Draft} :
    d ∈ p.draftsFrom made asked ↔ ∃ i q, asked[i]? = some q ∧ q.task = .writer ∧
      d = Drafting.ofRequest q (p.answers (made + i) q) := by
  simp only [draftsFrom, List.mem_filterMap, Prod.exists]
  constructor
  · rintro ⟨q, n, hmem, hd⟩
    obtain ⟨hle, hq⟩ := List.mem_zipIdx_iff_le_and_getElem?_sub.mp hmem
    unfold draft? at hd
    split at hd
    next htask =>
      refine ⟨n - made, q, hq, htask, ?_⟩
      rw [Nat.add_sub_cancel' hle]
      exact (Option.some.inj hd).symm
    next => cases hd
  · rintro ⟨i, q, hq, htask, rfl⟩
    refine ⟨q, made + i, ?_, if_pos htask⟩
    exact List.mem_zipIdx_iff_le_and_getElem?_sub.mpr ⟨Nat.le_add_right _ _, by simpa using hq⟩

theorem judging_task {c : Component} : ∀ q ∈ p.judging c, q.task ≠ .writer := by
  intro q hq
  unfold judging at hq
  cases hjudge : p.sieve.judge? c with
  | some o =>
      rw [hjudge] at hq
      cases hq
  | none =>
      rw [hjudge] at hq
      rw [List.mem_singleton.mp hq]
      exact fun h => Assistant.Task.noConfusion h

/-- The drafts of a fan-out are those of its requests. -/
theorem draftsFrom_fanning (f : Fanout) (made : Nat) :
    p.draftsFrom made (p.fanning f) = f.drafts (p.outcomes f made) := by
  have hsurvey : ∀ n, p.draftsFrom n [f.surveyRequest p.settings.prompts] = [] :=
    draftsFrom_of_no_writer (by simp [Fanout.surveyRequest, Survey.request])
  rw [fanning, draftsFrom_append, hsurvey, List.append_nil]
  unfold draftsFrom Fanout.drafts outcomes Fanout.draftRequests
  generalize f.sections = sections
  induction sections generalizing made with
  | nil => rfl
  | cons e sections ih =>
      obtain ⟨target, existing⟩ := e
      have hdraft : p.draft? made
          (Drafting.request (p.settings.prompts.writer target) target existing f.component) =
          some (Drafting.ofOutcome target existing f.component (p.answers made
            (Drafting.request (p.settings.prompts.writer target) target existing f.component))) := by
        have htask : (Drafting.request (p.settings.prompts.writer target) target existing
            f.component).task = .writer := rfl
        rw [draft?, if_pos htask, Drafting.ofRequest_request]
      simp only [List.map_cons, List.zipIdx_cons, List.zip_cons_cons, List.filterMap_cons, hdraft]
      exact congrArg _ (ih (made + 1))

theorem mem_fanning {f : Fanout} {q : Assistant.Request} (h : q ∈ p.fanning f)
    (htask : q.task = .writer) : ∃ e ∈ f.sections,
      q = Drafting.request (p.settings.prompts.writer e.1) e.1 e.2 f.component := by
  rcases List.mem_append.mp h with hdraft | hsurvey
  · obtain ⟨e, he, rfl⟩ := List.mem_map.mp hdraft
    exact ⟨e, he, rfl⟩
  · rw [List.mem_singleton.mp hsurvey] at htask
    cases htask

end Plan

/-! ## Turns -/

variable {p : Plan} {k : Catalog} {n : Nat} {phase phase' : Phase} {w w' : Worklist}
  {trail trail' : List Checkpoint} {requests requests' asked : List Assistant.Request} {m : Move}

/-- The texts after a turn are those before it with the drafts of its requests, and its requests
for texts show the texts before it. -/
theorem Turn.texts {texts : String → String} {made : Nat} (h : Fits p n phase w)
    (hw : w.manuscript = .ofTexts p.settings.taxonomy.sectionIds.eraseDups texts)
    (ht : Turn p w made phase m w' asked) :
    w'.manuscript = .ofTexts p.settings.taxonomy.sectionIds.eraseDups
        (Fanout.written texts (p.draftsFrom made asked)) ∧
      ∀ q ∈ asked, q.task = .writer → q.value "existing" = texts (q.value "section") := by
  have hsame : phase ≠ .processing → (∀ q ∈ asked, q.task ≠ .writer) →
      w'.manuscript = .ofTexts p.settings.taxonomy.sectionIds.eraseDups
          (Fanout.written texts (p.draftsFrom made asked)) ∧
        ∀ q ∈ asked, q.task = .writer → q.value "existing" = texts (q.value "section") := by
    intro hphase hasked
    rw [Plan.draftsFrom_of_no_writer hasked, (ht.keeps hphase).1, hw]
    exact ⟨rfl, fun q hq htask => absurd htask (hasked q hq)⟩
  cases ht with
  | filter _ _ => exact hsame (by decide) Plan.judging_task
  | select _ => exact hsame (by decide) (by simp [Plan.placing, Placement.request])
  | @process c f m' _ hf hm =>
      obtain ⟨f', hf', hstart, hwritten⟩ := h.fanout hw c made
      obtain rfl : f' = f := Except.ok.inj (hstart.symm.trans hf)
      refine ⟨?_, fun q hq htask => ?_⟩
      · rw [Plan.draftsFrom_fanning]
        exact Except.ok.inj (hm.symm.trans hwritten)
      · obtain ⟨e, he, rfl⟩ := Plan.mem_fanning hq htask
        rw [hf'] at he
        obtain ⟨t, -, rfl⟩ := List.mem_map.mp he
        rw [Drafting.request_existing, Drafting.request_section]
  | _ => exact hsame (by decide) (by simp)

/-- The texts at any point are those of the drafts that the requests up to there came to. -/
theorem Reach.texts (hp : p.Grounded) (h : Reach p k phase w trail requests) :
    w.manuscript = .ofTexts p.settings.taxonomy.sectionIds.eraseDups
      (Fanout.written (fun _ => "") (p.draftsFrom 0 requests)) := by
  induction h with
  | start => exact Manuscript.ofTaxonomy_eq _
  | turn h ht ih =>
      rw [Plan.draftsFrom_append, Fanout.written_append, Nat.zero_add]
      exact (ht.texts (h.fits hp) ih).1

/-- Fewer turns make fewer requests. -/
theorem Reach.requests_prefix (h : Reach p k phase w trail requests)
    (h' : Reach p k phase' w' trail' requests') (hlen : trail.length ≤ trail'.length) :
    requests <+: requests' := by
  induction h' with
  | start =>
      have hnil : trail = [] := List.length_eq_zero_iff.mp (Nat.le_zero.mp hlen)
      obtain ⟨-, -, -, rfl⟩ := h.unique .start (by rw [hnil])
      exact List.prefix_refl _
  | turn h' ht' ih =>
      rcases Nat.lt_or_eq_of_le hlen with hlt | heq
      · refine (ih ?_).trans (List.prefix_append _ _)
        rw [List.length_append, List.length_singleton] at hlt
        exact Nat.le_of_lt_succ hlt
      · obtain ⟨-, -, -, rfl⟩ := h.unique (h'.turn ht') heq
        exact List.prefix_refl _

/-! ## Moments of a run -/

namespace Session

variable {σ : Type} [Store σ] {s : Session σ}

theorem Standing.steps_le_drive (hp : p.Grounded) (h : Standing p k s) (n : Nat)
    (hok : (s.drive p n).1 = .ok ()) : s.machine.steps ≤ (s.drive p n).2.machine.steps := by
  refine (drive_ok_induction (q := fun t => Standing p k t ∧ s.machine.steps ≤ t.machine.steps)
    (fun t ht hdone hok => ?_) n ⟨h, Nat.le_refl _⟩ hok).2
  rcases ht.1.step hp hdone with ⟨-, hstanding, -, hsteps, -⟩ | ⟨e, he, -⟩
  · refine ⟨hstanding, Nat.le_trans ht.2 ?_⟩
    rw [hsteps]
    exact Nat.le_succ _
  · cases he.symm.trans hok

/-- The moments of a completed run: each is a point that turns lead to, and a later one is reached
by at least as many. -/
theorem run_moments (hp : p.Grounded) {id : RunId} {clock : Clock} {store : σ} {tally : Tally}
    (hok : (run p k id clock store tally).1 = .ok ()) :
    let moment := fun n => ((start p k id clock store tally).drive p n).2
    (∀ n, Standing p k (moment n)) ∧
    (∀ a b, a ≤ b → (moment a).machine.steps ≤ (moment b).machine.steps) ∧
    ∀ n, (moment n).machine.steps ≤ (run p k id clock store tally).2.machine.steps := by
  have hphase := (run_ended hp k id clock store tally).phase_of_ok hok
  have hfinished := drive_of_finished (p := p) (s := start p k id clock store tally) hok hphase
  have hstart : Standing p k (start p k id clock store tally) := ⟨.start, rfl, Nat.zero_le _⟩
  have hmoment : ∀ n, Standing p k ((start p k id clock store tally).drive p n).2 :=
    fun n => hstart.drive_of_ok hp n (hfinished n).1
  have hmono : ∀ a b, a ≤ b → ((start p k id clock store tally).drive p a).2.machine.steps ≤
      ((start p k id clock store tally).drive p b).2.machine.steps := by
    intro a b hab
    obtain ⟨c, rfl⟩ := Nat.exists_eq_add_of_le hab
    have hokb := (hfinished (a + c)).1
    rw [drive_add] at hokb ⊢
    rcases hr : (start p k id clock store tally).drive p a with ⟨answer, t⟩
    have hoka := (hfinished a).1
    have hstanding := hmoment a
    rw [hr] at hoka hokb hstanding
    obtain rfl : answer = .ok () := hoka
    exact hstanding.steps_le_drive hp c hokb
  refine ⟨hmoment, hmono, fun n => ?_⟩
  have hlast := hmono n (moves k.size + n) (Nat.le_add_left _ _)
  rw [(hfinished n).2] at hlast
  exact hlast

end Session

end Run

end Scriptorium
