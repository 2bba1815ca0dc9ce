import Scriptorium.Proofs.Run.Cap
import Scriptorium.Proofs.Run.Course
import Scriptorium.Proofs.Survey

/-! # Texts and the model

What a run has written in the end: each section holds what the components that were accepted into
it made of it, one after the other, and the model holds their surveys. Each request is made from
what the components before left behind.
-/

namespace Scriptorium

namespace Run

open Archive

namespace Plan

variable {p : Plan} {f : Assistant.Request → Except Assistant.Failure String}
  {all : List Component} {phase : Phase} {w : Worklist} {marks : List Checkpoint.Mark}
  {requests : List Assistant.Request}

/-- Only accepted components are processed. -/
theorem Course.accepts_of_processing (h : p.Course f all phase w marks requests)
    (hphase : phase = .processing) : ∃ c, w.current = some c ∧ p.accepts f c = true := by
  cases h with
  | @processing before rest c _ hc => exact ⟨c, rfl, by simp [accepts, hc]⟩
  | _ => cases hphase

theorem takes_iff {id : String} {c : Component} :
    p.takes f id c = true ↔ (p.judged f c).verdict = .accept ∧ id ∈ p.placed f c := by
  simp [takes, accepts]

theorem task_judging {c : Component} {q : Assistant.Request} (h : q ∈ p.judging c) :
    q.task = .filter := by
  unfold judging at h
  cases hjudge : p.sieve.judge? c with
  | some o =>
      rw [hjudge] at h
      cases h
  | none =>
      rw [hjudge] at h
      rw [List.mem_singleton.mp h]
      rfl

theorem mem_asking {before : List Component} {c : Component} {q : Assistant.Request}
    (h : q ∈ p.asking f before c) :
    q ∈ p.judging c ∨ (p.judged f c).verdict = .accept ∧ (q = p.placing c ∨
      (∃ id ∈ p.placed f c, q = p.drafting c id (p.texts f before id)) ∨
      q = p.surveying c (p.model f before)) := by
  unfold asking at h
  cases hc : (p.judged f c).verdict with
  | reject =>
      rw [hc] at h
      exact .inl h
  | accept =>
      simp only [hc, List.mem_append, List.mem_singleton, List.mem_map] at h
      rcases h with ((h | h) | ⟨id, hid, h⟩) | h
      · exact .inl h
      · exact .inr ⟨rfl, .inl h⟩
      · exact .inr ⟨rfl, .inr (.inl ⟨id, hid, h.symm⟩)⟩
      · exact .inr ⟨rfl, .inr (.inr h)⟩

/-- A request about a component for a text is one for a section that it is drafted into. -/
theorem asking_writer {before : List Component} {c : Component} {q : Assistant.Request}
    (h : q ∈ p.asking f before c) (hq : q.task = .writer) :
    ∃ id, p.takes f id c = true ∧ q = p.drafting c id (p.texts f before id) := by
  rcases mem_asking h with hjudging | ⟨hc, rfl | ⟨id, hid, rfl⟩ | rfl⟩
  · rw [task_judging hjudging] at hq
    cases hq
  · cases hq
  · exact ⟨id, takes_iff.mpr ⟨hc, hid⟩, rfl⟩
  · cases hq

/-- A request about a component for a survey is made from the model before it. -/
theorem asking_extractor {before : List Component} {c : Component} {q : Assistant.Request}
    (h : q ∈ p.asking f before c) (hq : q.task = .extractor) :
    p.accepts f c = true ∧ q = p.surveying c (p.model f before) := by
  rcases mem_asking h with hjudging | ⟨hc, rfl | ⟨id, hid, rfl⟩ | rfl⟩
  · rw [task_judging hjudging] at hq
    cases hq
  · cases hq
  · cases hq
  · exact ⟨by simp [accepts, hc], rfl⟩

end Plan

namespace Session

variable {σ : Type} [Store σ] {p : Plan} {f : Assistant.Request → Except Assistant.Failure String}

/-- A step changes texts and model only where an accepted component is at hand. -/
theorem Standing.step_keeps {k : Catalog} {s : Session σ} (hp : p.Grounded)
    (hf : p.answers = .steady f) (h : Standing p k s)
    (hcurrent : ∀ c, s.work.current = some c → p.accepts f c = false) :
    (s.step p).2.work.manuscript = s.work.manuscript ∧
      (s.step p).2.work.model = s.work.model := by
  by_cases hdone : s.machine.phase = .done
  · have hstep : s.step p = (.error (.refused (.notAllowed .done .compiling)), s) := by
      simp only [Session.step, act, hdone]
    rw [hstep]
    exact ⟨rfl, rfl⟩
  · rcases acts_or_fails (h.reach.fits hp) hdone with ⟨m, w, asked, hacts, hturn⟩ |
      ⟨fault, hfails, -⟩
    · rw [hacts.step_work hturn.allows]
      refine hturn.keeps fun hphase => ?_
      obtain ⟨c, hc, haccepts⟩ :=
        (h.reach.course hf hp).accepts_of_processing hphase
      rw [hcurrent c hc] at haccepts
      cases haccepts
    · rw [hfails.step, hfails.quiet.work]
      exact ⟨rfl, rfl⟩

/-- What a completed run with a steady assistant has written. The text of a section is folded from
the empty text over the components drafted into it, the model from the empty model over the
surveys of the accepted ones, both in the order of the catalog. Each request for a text shows the
text that the last such component left behind, each request for a survey lists what the model held
before its component; and at no moment does a component that is not accepted change a text or the
model. -/
theorem run_texts {settings : Settings} {graph : Option CallGraph}
    (hp : Plan.ofSettings settings graph (.steady f) = .ok p) (k : Catalog) (id : RunId)
    (clock : Clock) (store : σ) (tally : Tally)
    (hok : (run p k id clock store tally).1 = .ok ()) :
    let r := run p k id clock store tally
    (∀ s ∈ settings.taxonomy.sectionIds, r.2.work.manuscript.get? s =
      some ((k.components.filter (p.takes f s)).foldl
        (fun text c => (p.drafted f c s text).text) "")) ∧
    (∀ s ∈ settings.taxonomy.sectionIds, (∀ c ∈ k.components, p.takes f s c = false) →
      r.2.work.manuscript.get? s = some "") ∧
    r.2.work.model =
      (k.components.filter (p.accepts f)).foldl (fun m c => p.surveyed f c m) {} ∧
    (∀ q ∈ r.2.requests, q.task = .writer → ∃ before c rest s,
      k.components = before ++ c :: rest ∧ p.takes f s c = true ∧
        q = p.drafting c s (p.texts f before s) ∧ q.value "existing" = p.texts f before s) ∧
    (∀ q ∈ r.2.requests, q.task = .extractor → ∃ before c rest,
      k.components = before ++ c :: rest ∧ p.accepts f c = true ∧
        q = p.surveying c (p.model f before) ∧ q.value "name" = c.name ∧
        Survey.Shows q ((before.filter (p.accepts f)).foldl (fun m c => p.surveyed f c m) {})) ∧
    r.2.requests = along (p.asking f) [] k.components ∧
    ∀ n, let t := (start p k id clock store tally).drive p n
      t.1 = .ok () → (∀ c, t.2.work.current = some c → p.accepts f c = false) →
        (t.2.step p).2.work.manuscript = t.2.work.manuscript ∧
          (t.2.step p).2.work.model = t.2.work.model := by
  have hgrounded := Plan.grounded_of_ofSettings hp
  have hended := run_ended hgrounded k id clock store tally
  obtain ⟨rfl, hanswers⟩ := Plan.fields_of_ofSettings hp
  have hstart : Standing p k (start p k id clock store tally) := ⟨.start, rfl, Nat.zero_le _⟩
  obtain ⟨hwork, -, hrequests⟩ := (hended.reach_of_ok hok).course hanswers hgrounded |>.of_done
  have htext : ∀ s ∈ p.settings.taxonomy.sectionIds,
      (run p k id clock store tally).2.work.manuscript.get? s =
        some (p.texts f k.components s) := by
    intro s hs
    rw [hwork, Plan.resting, Manuscript.get?_ofTexts, if_pos (List.mem_eraseDups.mpr hs)]
  refine ⟨htext, fun s hs hnone => ?_, ?_, fun q hq htask => ?_, fun q hq htask => ?_, hrequests,
    fun n => ?_⟩
  · rw [htext s hs, Plan.texts, List.filter_eq_nil_iff.mpr (by simpa using hnone)]
    rfl
  · rw [hwork]
    rfl
  · rw [hrequests] at hq
    obtain ⟨before, c, rest, hsplit, hmem⟩ := mem_along hq
    obtain ⟨s, htakes, rfl⟩ := Plan.asking_writer hmem htask
    exact ⟨before, c, rest, s, hsplit, htakes, rfl, rfl⟩
  · rw [hrequests] at hq
    obtain ⟨before, c, rest, hsplit, hmem⟩ := mem_along hq
    obtain ⟨haccepts, rfl⟩ := Plan.asking_extractor hmem htask
    exact ⟨before, c, rest, hsplit, haccepts, rfl, rfl, Survey.shows_request ..⟩
  · exact fun hmoment => (hstart.drive_of_ok hgrounded n hmoment).step_keeps hgrounded hanswers

/-- A small run writes the first section only, first of one component and then of the other. -/
theorem run_texts_small :
    let r := run (.small (.steady Assistant.scribe) none) .small default default ({} : Shelf) {}
    r.2.work.manuscript.get? "Overview" = some "Lexer.Reader." ∧
      r.2.work.manuscript.get? "Usage" = some "" := by
  have hp := Plan.ofSettings_small (.steady Assistant.scribe) none (by decide)
  have hok := run_ok_of_shelf (Plan.grounded_of_ofSettings hp) .small default default {} {}
    (by decide)
  obtain ⟨htext, hempty, -⟩ := run_texts hp .small default default ({} : Shelf) {} hok
  refine ⟨(htext "Overview" (by decide)).trans ?_, hempty "Usage" (by decide) ?_⟩
  · decide +kernel
  · decide +kernel

end Session

end Run

end Scriptorium
