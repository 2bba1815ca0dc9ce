import Mathlib.Data.List.Forall2
import Scriptorium.Proofs.Run.Ending
import Scriptorium.Proofs.Run.Steady
import Scriptorium.Proofs.Triage

/-! # Judging in a run

A run judges each component of its catalog once, in order, and asks about exactly those that the
local rules leave open. Under stricter rules it accepts no component that it would not accept under
more lenient ones.
-/

namespace Scriptorium

open Archive

/-! ## Presets -/

namespace Preset

def level : Preset → Nat
  | lenient => 0
  | balanced => 1
  | strict => 2

theorem stricter_of_level_le {a b : Preset} (h : a.level ≤ b.level) : a.rules.Stricter b.rules := by
  have hlists : ∀ x : Preset, x.rules.namePatterns = namePatterns ∧ x.rules.phrases = phrases ∧
      x.rules.keywords = keywords := by
    intro x
    cases x <;> exact ⟨rfl, rfl, rfl⟩
  have hthresholds : a.rules.minWords ≤ b.rules.minWords ∧ a.rules.minLines ≤ b.rules.minLines ∧
      a.rules.keywordThreshold ≤ b.rules.keywordThreshold := by
    cases a <;> cases b <;> simp [level, rules, rulesWith] at h ⊢
  obtain ⟨hpatterns, hphrases, hkeywords⟩ := hlists a
  obtain ⟨hpatterns', hphrases', hkeywords'⟩ := hlists b
  exact ⟨hpatterns'.trans hpatterns.symm, hphrases'.trans hphrases.symm,
    hkeywords'.trans hkeywords.symm, hthresholds.1, hthresholds.2.1, hthresholds.2.2⟩

/-- The name patterns of every preset can be read. -/
theorem ofRules_rules (a : Preset) : ∃ sieve, Triage.Sieve.ofRules a.rules = .ok sieve := by
  have hpatterns : a.rules.namePatterns = namePatterns := by
    cases a <;> rfl
  have hread : (Triage.readPatterns namePatterns).isOk = true := by
    decide +kernel
  unfold Triage.Sieve.ofRules
  rw [hpatterns]
  cases h : Triage.readPatterns namePatterns with
  | error e =>
      rw [h] at hread
      cases hread
  | ok patterns => exact ⟨_, rfl⟩

end Preset

namespace Run

variable {p q : Plan} {k : Catalog} {phase : Phase} {w : Worklist} {trail : List Checkpoint}
  {requests : List Assistant.Request}

/-! ## The components that are asked about -/

theorem Plan.flatMap_judging (p : Plan) (l : List Component) :
    l.flatMap p.judging = (l.filter fun c => (p.sieve.judge? c).isNone).map
      (Triage.request p.settings.prompts.filter) := by
  induction l with
  | nil => rfl
  | cons c l ih =>
      rw [List.flatMap_cons, ih, Plan.judging]
      cases h : p.sieve.judge? c with
      | some o => simp [h]
      | none => simp [h]

/-- A checkpoint of the verdict on a component, which tells what the local rules say if they say
anything. -/
structure Plan.Tells (p : Plan) (c : Component) (x : Checkpoint) : Prop where
  component : x.component = some c.name
  told : ∀ o, p.sieve.judge? c = some o → x.decision = some (Session.verdictName o.verdict) ∧
    x.reason = some o.reason.message

/-- The components of a catalog that a run has judged and those that it has not, by its phase, its
worklist, its checkpoints and its requests. -/
structure Judged (p : Plan) (k : Catalog) (phase : Phase) (w : Worklist) (trail : List Checkpoint)
    (requests : List Assistant.Request) (before rest : List Component) : Prop where
  split : k.components = before ++ rest
  asked : requests.filter (·.task = .filter) = before.flatMap p.judging
  told : List.Forall₂ p.Tells before (trail.filter (·.operation = "filter"))
  rest : rest = if phase = .filtering then w.current.toList ++ w.queue else w.queue
  closed : phase = .compiling ∨ phase = .finalizing ∨ phase = .done → w.queue = []

/-- A move that judges nothing. -/
theorem Judged.move {phase' : Phase} {w' : Worklist} {x : Checkpoint}
    {asked : List Assistant.Request} {before rest : List Component}
    (h : Judged p k phase w trail requests before rest)
    (hasked : asked.filter (·.task = .filter) = []) (hx : x.operation ≠ "filter")
    (hrest : rest = if phase' = .filtering then w'.current.toList ++ w'.queue else w'.queue)
    (hclosed : phase' = .compiling ∨ phase' = .finalizing ∨ phase' = .done → w'.queue = []) :
    Judged p k phase' w' (trail ++ [x]) (requests ++ asked) before rest where
  split := h.split
  asked := by rw [List.filter_append, hasked, List.append_nil, h.asked]
  told := by
    have hnone : [x].filter (·.operation = "filter") = [] := by simpa using hx
    rw [List.filter_append, hnone, List.append_nil]
    exact h.told
  rest := hrest
  closed := hclosed

theorem Judged.turn {w' : Worklist} {m : Move} {asked : List Assistant.Request}
    {before rest : List Component} (h : Judged p k phase w trail requests before rest)
    (ht : Turn p w requests.length phase m w' asked) :
    ∃ before rest, Judged p k m.target w' (trail ++ [recorded w' m]) (requests ++ asked)
      before rest := by
  have hrest := h.rest
  cases ht with
  | close hqueue =>
      exact ⟨before, rest, h.move rfl (by simp [recorded]) (by simpa [Worklist.cleared] using hrest)
        fun _ => hqueue⟩
  | load hqueue =>
      refine ⟨before, rest, h.move rfl (by simp [recorded]) ?_ (by simp)⟩
      simpa [Worklist.next_of_cons hqueue, hqueue] using hrest
  | @filter c o hcurrent ho =>
      -- The component at hand joins those that are judged, with the request that it took.
      have hqueue : rest = c :: w.queue := by simpa [hcurrent] using hrest
      refine ⟨before ++ [c], w.queue, ?_, ?_, ?_, ?_, ?_⟩
      · rw [h.split, hqueue, List.append_assoc, List.singleton_append]
      · have htask : (p.judging c).filter (·.task = .filter) = p.judging c := by
          unfold Plan.judging
          cases p.sieve.judge? c <;> rfl
        rw [List.filter_append, h.asked, htask, List.flatMap_append, List.flatMap_singleton]
      · rw [List.filter_append]
        refine List.rel_append h.told (.cons ⟨?_, fun o' ho' => ?_⟩ .nil)
        · cases hv : o.verdict <;> simp [recorded, Worklist.judge, Worklist.currentName, hcurrent]
        · rw [Plan.judgement, ho'] at ho
          rw [← ho]
          exact ⟨rfl, rfl⟩
      · cases hv : o.verdict <;> rfl
      · cases hv : o.verdict <;> simp [Session.phaseAfter]
  | reject =>
      exact ⟨before, rest, h.move rfl (by simp [recorded]) (by simpa using hrest) (by simp)⟩
  | select hcurrent =>
      refine ⟨before, rest, h.move ?_ (by simp [recorded]) ?_ (by simp)⟩
      · simp [Plan.placing, Placement.request]
      · simpa [Worklist.place] using hrest
  | @process c f m hcurrent hf hm =>
      refine ⟨before, rest, h.move ?_ (by simp [recorded]) ?_ (by simp)⟩
      · rw [List.filter_eq_nil_iff]
        intro r hr
        rcases List.mem_append.mp hr with hdraft | hsurvey
        · obtain ⟨e, -, rfl⟩ := List.mem_map.mp hdraft
          simp [Drafting.request]
        · rw [List.mem_singleton.mp hsurvey]
          simp [Fanout.surveyRequest, Survey.request]
      · simpa [Worklist.written] using hrest
  | compile =>
      exact ⟨before, rest, h.move rfl (by simp [recorded]) (by simpa using hrest)
        fun _ => h.closed (.inl rfl)⟩
  | finalize =>
      exact ⟨before, rest, h.move rfl (by simp [recorded]) (by simpa using hrest)
        fun _ => h.closed (.inr (.inl rfl))⟩

theorem Reach.judged (h : Reach p k phase w trail requests) :
    ∃ before rest, Judged p k phase w trail requests before rest := by
  induction h with
  | start => exact ⟨[], k.components, rfl, rfl, .nil, rfl, by simp⟩
  | turn _ ht ih =>
      obtain ⟨before, rest, hjudged⟩ := ih
      exact hjudged.turn ht

/-- A run that is done has no component left. It has asked about the components that the local
rules leave open, once each and in order, and it has kept a checkpoint of each verdict. -/
theorem Reach.judged_of_done (h : Reach p k .done w trail requests) :
    w.queue = [] ∧
      requests.filter (·.task = .filter) =
        (k.components.filter fun c => (p.sieve.judge? c).isNone).map
          (Triage.request p.settings.prompts.filter) ∧
      List.Forall₂ p.Tells k.components (trail.filter (·.operation = "filter")) := by
  obtain ⟨before, rest, hsplit, hasked, htold, hrest, hclosed⟩ := h.judged
  have hqueue := hclosed (.inr (.inr rfl))
  obtain rfl : rest = [] := by simpa [hqueue] using hrest
  rw [List.append_nil] at hsplit
  rw [hasked, hsplit, p.flatMap_judging]
  exact ⟨hqueue, rfl, htold⟩

/-! ## One judgement -/

def Plan.question (p : Plan) (c : Component) : Assistant.Request :=
  Triage.request p.settings.prompts.filter c

namespace Session

variable {σ τ : Type} {f : Assistant.Request → Except Assistant.Failure String}

def answer (p : Plan) (s : Session σ) (c : Component) : Except Assistant.Failure String :=
  (p.answers s.requests.length (p.question c)).settled

theorem judge_of_decided {s : Session σ} {c : Component} {o : Triage.Outcome}
    (h : p.sieve.judge? c = some o) : judge p s c = (o, s) := by
  unfold judge
  rw [h]

theorem judge_of_open {s : Session σ} {c : Component} (h : p.sieve.judge? c = none) :
    (judge p s c).1 = Triage.ofReply (answer p s c) ∧
      (judge p s c).2.requests = s.requests ++ [p.question c] := by
  unfold judge
  rw [h]
  exact ⟨rfl, rfl⟩

/-- A component is judged by the policy: the first rule that holds decides without a question, and
where none holds one question is asked, which only a clear refusal makes a rejection. The reason
tells whether it was asked. -/
structure ByPolicy (p : Plan) (s : Session σ) (c : Component) : Prop where
  decided : ∀ rule, Triage.Fires p.settings.triage c rule →
    ∃ first, Triage.IsFirst (Triage.Fires p.settings.triage c) Triage.Rule.policy first ∧
      ∀ o, Triage.Holds p.settings.triage c first o → judge p s c = (o, s)
  asked : (∀ rule, ¬ Triage.Fires p.settings.triage c rule) →
    (judge p s c).2.requests = s.requests ++ [p.question c] ∧
      ∀ o, (judge p s c).1 = o ↔ Triage.Settled (answer p s c) o
  rejected : (∀ rule, ¬ Triage.Fires p.settings.triage c rule) →
    ((judge p s c).1.verdict = .reject ↔
      ∃ reply, answer p s c = .ok reply ∧ Triage.Says Triage.refusals reply)
  told : (judge p s c).1.reason.asked = true ↔ (judge p s c).2.requests ≠ s.requests

theorem judge_byPolicy (hp : Triage.Sieve.ofRules p.settings.triage = .ok p.sieve)
    (s : Session σ) (c : Component) : ByPolicy p s c := by
  cases hjudge : p.sieve.judge? c with
  | some o =>
      obtain ⟨first, hfirst, hholds⟩ := (Triage.Sieve.judge?_eq_some_iff hp).mp hjudge
      have hfires : Triage.Fires p.settings.triage c first := ⟨o, hholds⟩
      refine ⟨fun rule _ => ⟨first, hfirst, fun o' ho' => judge_of_decided ?_⟩,
        fun hnone => absurd hfires (hnone first), fun hnone => absurd hfires (hnone first), ?_⟩
      · exact (Triage.Sieve.judge?_eq_some_iff hp).mpr ⟨first, hfirst, ho'⟩
      · rw [judge_of_decided hjudge, hholds.not_asked]
        simp
  | none =>
      have hnone := (Triage.Sieve.judge?_eq_none_iff hp).mp hjudge
      obtain ⟨houtcome, hrequests⟩ := judge_of_open (s := s) hjudge
      have hsettled : Triage.Settled (answer p s c) (judge p s c).1 :=
        Triage.ofReply_eq_iff.mp houtcome.symm
      refine ⟨fun rule hrule => absurd hrule (hnone rule), fun _ => ⟨hrequests, fun o => ?_⟩,
        fun _ => hsettled.reject_iff, ?_⟩
      · rw [houtcome]
        exact Triage.ofReply_eq_iff
      · rw [hsettled.asked, hrequests]
        simp

/-! ## Stricter plans -/

theorem judge_eq_getD (hf : p.answers = .steady f) (s : Session σ) (c : Component) :
    (judge p s c).1 = (p.sieve.judge? c).getD
      (Triage.ofReply (f (Triage.request p.settings.prompts.filter c))) := by
  rw [judge_fst, Plan.judgement_eq hf, Plan.judged]
  cases p.sieve.judge? c <;> rfl

theorem accept_of_not_reject {v : Verdict} (h : v ≠ .reject) : v = .accept := by
  cases v with
  | accept => rfl
  | reject => exact absurd rfl h

/-- Two plans that put the same question to the same steady assistant. Where the rules of one are
stricter, it rejects every component that the other rejects, and the other accepts every component
that it accepts; and so it is with the presets, all of which can be used. -/
theorem judge_of_stricter (hp : Triage.Sieve.ofRules p.settings.triage = .ok p.sieve)
    (hq : Triage.Sieve.ofRules q.settings.triage = .ok q.sieve) (hpf : p.answers = .steady f)
    (hqf : q.answers = .steady f)
    (htemplate : q.settings.prompts.filter = p.settings.prompts.filter) :
    let Shrinks := ∀ (s : Session σ) (t : Session τ) (c : Component),
      ((judge p s c).1.verdict = .reject → (judge q t c).1.verdict = .reject) ∧
      ((judge q t c).1.verdict = .accept → (judge p s c).1.verdict = .accept)
    (p.settings.triage.Stricter q.settings.triage → Shrinks) ∧
    (∀ a b : Preset, a.level ≤ b.level → p.settings.triage = a.rules →
      q.settings.triage = b.rules → Shrinks) ∧
    ∀ a : Preset, ∃ sieve, Triage.Sieve.ofRules a.rules = .ok sieve := by
  intro Shrinks
  have hshrinks : p.settings.triage.Stricter q.settings.triage → Shrinks := by
    intro hstricter s t c
    have hreject : (judge p s c).1.verdict = .reject → (judge q t c).1.verdict = .reject := by
      rw [judge_eq_getD hpf, judge_eq_getD hqf, htemplate]
      exact Triage.Sieve.reject_of_stricter hstricter hp hq _
    refine ⟨hreject, fun haccept => accept_of_not_reject fun h => ?_⟩
    rw [hreject h] at haccept
    cases haccept
  refine ⟨hshrinks, fun a b hlevel ha hb => hshrinks ?_, Preset.ofRules_rules⟩
  rw [ha, hb]
  exact Preset.stricter_of_level_le hlevel

/-- A component that is rejected when asked about is rejected for its few words under rules that
want more of them. -/
theorem judge_of_stricter_small :
    let p := Plan.small (.steady fun _ => .ok "Skip it.") none
    let strict := { Settings.small.triage with minWords := 5 }
    let q := { p with settings := { p.settings with triage := strict }, sieve := ⟨strict, []⟩ }
    let s := start p .small default default ({} : Shelf) {}
    let c : Component := ⟨"Index", "Reads lines.", none⟩
    (judge p s c).1 = ⟨.reject, .verdict "Skip it."⟩ ∧
      (judge q s c).1.verdict = .reject ∧ (judge q s c).1.reason = .tooFewWords 2 := by
  intro p strict q s c
  have hstricter : p.settings.triage.Stricter q.settings.triage :=
    ⟨rfl, rfl, rfl, by decide, by decide, by decide⟩
  obtain ⟨hshrinks, -⟩ :=
    judge_of_stricter (f := fun _ => .ok "Skip it.") (p := p) (q := q) (σ := Shelf) (τ := Shelf)
      rfl rfl rfl rfl rfl
  have hrejected : (judge p s c).1 = ⟨.reject, .verdict "Skip it."⟩ := by
    decide +kernel
  refine ⟨hrejected, (hshrinks hstricter s s c).1 ?_, ?_⟩
  · rw [hrejected]
  · decide +kernel

end Session

end Run

end Scriptorium
