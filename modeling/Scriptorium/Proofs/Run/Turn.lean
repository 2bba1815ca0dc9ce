import Scriptorium.Proofs.Run.Step

/-! # Turns

A turn is what a step does to the phase, the worklist and the requests of a run, with time, store
and counts left out. Turns are deterministic. An invariant ties the phase to the worklist: a
component is at hand wherever one is needed, the manuscript has exactly the sections of the
taxonomy, and only those are ever picked. Whatever is reached by turns satisfies it.
-/

namespace Scriptorium

namespace Run

open Archive

/-- One turn of a run that has made a number of requests: from a phase and a worklist by a move to
another worklist, and the requests that it makes. -/
inductive Turn (p : Plan) (w : Worklist) (made : Nat) :
    Phase → Move → Worklist → List Assistant.Request → Prop where
  | close (h : w.queue = []) :
      Turn p w made .loading ⟨.compiling, "queue_empty", none⟩ w.cleared []
  | load {c : Component} {rest : List Component} (h : w.queue = c :: rest) :
      Turn p w made .loading ⟨.filtering, "load", none⟩ w.next []
  | filter {c : Component} {o : Triage.Outcome} (h : w.current = some c)
      (ho : p.judgement c made = o) :
      Turn p w made .filtering ⟨Session.phaseAfter o.verdict, "filter", some o⟩
        (w.judge o.verdict) (p.judging c)
  | reject : Turn p w made .rejected ⟨.loading, "reject", none⟩ w []
  | select {c : Component} (h : w.current = some c) :
      Turn p w made .selecting ⟨.processing, "select", none⟩
        (w.place (p.placement c made).sections) [p.placing c]
  | process {c : Component} {f : Fanout} {m : Manuscript} (h : w.current = some c)
      (hf : Fanout.start w p.graph c = .ok f)
      (hm : Fanout.replaceAll w.manuscript (f.drafts (p.outcomes f made)) = .ok m) :
      Turn p w made .processing ⟨.loading, "process", none⟩
        (w.written m (f.mergeSurvey w.model (p.surveyOutcome f made)).1)
        (p.fanning f)
  | compile : Turn p w made .compiling ⟨.finalizing, "compile", none⟩ w []
  | finalize : Turn p w made .finalizing ⟨.done, "finalize", none⟩ w []

namespace Turn

variable {p : Plan} {w w₁ w₂ : Worklist} {made : Nat} {phase : Phase} {m m₁ m₂ : Move}
  {asked asked₁ asked₂ : List Assistant.Request}

theorem allows (h : Turn p w made phase m w₁ asked) : phase.allows m.target = true := by
  cases h with
  | @filter c o _ _ => cases hv : o.verdict <;> rfl
  | _ => rfl

theorem not_done (h : Turn p w made phase m w₁ asked) : phase ≠ .done := by
  cases h <;> decide

/-- Only processing touches the manuscript and the model. -/
theorem keeps (h : Turn p w made phase m w₁ asked) (hphase : phase ≠ .processing) :
    w₁.manuscript = w.manuscript ∧ w₁.model = w.model := by
  cases h with
  | close _ => exact ⟨rfl, rfl⟩
  | load hqueue =>
      rw [Worklist.next_of_cons hqueue]
      exact ⟨rfl, rfl⟩
  | @filter c o _ _ => cases o.verdict <;> exact ⟨rfl, rfl⟩
  | reject => exact ⟨rfl, rfl⟩
  | select _ => exact ⟨rfl, rfl⟩
  | process _ _ _ => exact absurd rfl hphase
  | compile => exact ⟨rfl, rfl⟩
  | finalize => exact ⟨rfl, rfl⟩

theorem deterministic (h₁ : Turn p w made phase m₁ w₁ asked₁)
    (h₂ : Turn p w made phase m₂ w₂ asked₂) : m₁ = m₂ ∧ w₁ = w₂ ∧ asked₁ = asked₂ := by
  cases h₁ <;> cases h₂ <;> simp_all

end Turn

/-! ## What is reached by turns -/

/-- What a run over a catalog can reach: its phase, its worklist, its checkpoints without run and
time, and its requests. -/
inductive Reach (p : Plan) (k : Catalog) :
    Phase → Worklist → List Checkpoint → List Assistant.Request → Prop where
  | start : Reach p k .loading (.start k p.settings.taxonomy) [] []
  | turn {phase : Phase} {w w' : Worklist} {trail : List Checkpoint} {m : Move}
      {requests asked : List Assistant.Request} (h : Reach p k phase w trail requests)
      (ht : Turn p w requests.length phase m w' asked) :
      Reach p k m.target w' (trail ++ [recorded w' m]) (requests ++ asked)

namespace Reach

variable {p : Plan} {k : Catalog} {phase phase' : Phase} {w w' : Worklist}
  {trail trail' : List Checkpoint} {requests requests' : List Assistant.Request}

/-- Equally many turns lead to the same point. -/
theorem unique (h : Reach p k phase w trail requests) (h' : Reach p k phase' w' trail' requests')
    (hlen : trail.length = trail'.length) :
    phase = phase' ∧ w = w' ∧ trail = trail' ∧ requests = requests' := by
  -- Induction on the first path; the second one is taken apart in step with it.
  induction h generalizing phase' w' trail' requests' with
  | start =>
      cases h' with
      | start => exact ⟨rfl, rfl, rfl, rfl⟩
      | turn h' ht' => simp at hlen
  | turn h ht ih =>
      cases h' with
      | start => simp at hlen
      | turn h' ht' =>
          obtain ⟨rfl, rfl, rfl, rfl⟩ := ih h' (by simpa using hlen)
          obtain ⟨rfl, rfl, rfl⟩ := ht.deterministic ht'
          exact ⟨rfl, rfl, rfl, rfl⟩

end Reach

/-! ## The invariant -/

def Phase.unjudged : Phase → Nat
  | .filtering => 1
  | _ => 0

/-- A worklist that fits a phase of a run over `n` components. -/
structure Fits (p : Plan) (n : Nat) (phase : Phase) (w : Worklist) : Prop where
  total : w.total = n
  processed : w.processed + w.queue.length = n
  judged : w.accepted + w.rejected + phase.unjudged = w.processed
  manuscript : ∃ texts, w.manuscript = .ofTexts p.settings.taxonomy.sectionIds.eraseDups texts
  targets : ∀ t ∈ w.targets, t ∈ p.settings.taxonomy.sectionIds
  current : phase = .filtering ∨ phase = .selecting ∨ phase = .processing →
    ∃ c, w.current = some c

/-- The fallback sections of a plan are sections of its taxonomy. -/
def Plan.Grounded (p : Plan) : Prop :=
  ∀ t ∈ p.settings.fallback, t ∈ p.settings.taxonomy.sectionIds

theorem Plan.grounded_of_ofSettings {settings : Settings} {graph : Option CallGraph}
    {answers : Assistant.Answering} {p : Plan} (h : ofSettings settings graph answers = .ok p) :
    p.Grounded := by
  obtain ⟨hcheck, sieve, -, rfl⟩ := Plan.ofSettings_eq_ok_iff.mp h
  exact (Settings.check_eq_ok_iff.mp hcheck).2.2.2.1

namespace Fits

variable {p : Plan} {n : Nat} {phase : Phase} {w : Worklist}

theorem start (p : Plan) (k : Catalog) : Fits p k.size .loading (.start k p.settings.taxonomy) where
  total := rfl
  processed := Nat.zero_add _
  judged := rfl
  manuscript := ⟨fun _ => "", Manuscript.ofTaxonomy_eq _⟩
  targets _ h := absurd h List.not_mem_nil
  current h := by simp at h

theorem next_nil (h : Fits p n .loading w) : Fits p n .compiling w.cleared where
  total := h.total
  processed := h.processed
  judged := h.judged
  manuscript := h.manuscript
  targets _ ht := absurd ht List.not_mem_nil
  current hbusy := by simp at hbusy

theorem next_cons (h : Fits p n .loading w) {c : Component} {rest : List Component}
    (hqueue : w.queue = c :: rest) : Fits p n .filtering w.next := by
  have hprocessed := h.processed
  rw [hqueue, List.length_cons] at hprocessed
  rw [Worklist.next_of_cons hqueue]
  constructor
  · exact h.total
  · dsimp only
    omega
  · exact congrArg (· + 1) h.judged
  · exact h.manuscript
  · exact fun _ ht => absurd ht List.not_mem_nil
  · exact fun _ => ⟨c, rfl⟩

theorem judge (h : Fits p n .filtering w) (v : Verdict) :
    Fits p n (Session.phaseAfter v) (w.judge v) := by
  have hjudged : w.accepted + w.rejected + 1 = w.processed := h.judged
  have hcurrent := h.current (.inl rfl)
  cases v with
  | accept =>
      refine ⟨h.total, h.processed, ?_, h.manuscript, h.targets, fun _ => hcurrent⟩
      change w.accepted + 1 + w.rejected + 0 = w.processed
      omega
  | reject =>
      refine ⟨h.total, h.processed, ?_, h.manuscript, h.targets, fun _ => hcurrent⟩
      change w.accepted + (w.rejected + 1) + 0 = w.processed
      omega

theorem place (h : Fits p n .selecting w) {targets : List String}
    (ht : ∀ t ∈ targets, t ∈ p.settings.taxonomy.sectionIds) :
    Fits p n .processing (w.place targets) :=
  ⟨h.total, h.processed, h.judged, h.manuscript, ht, fun _ => h.current (.inr (.inl rfl))⟩

/-- A fan-out can be started, and its drafts can be written. -/
theorem fanout (h : Fits p n .processing w) {texts : String → String}
    (hm : w.manuscript = .ofTexts p.settings.taxonomy.sectionIds.eraseDups texts) (c : Component)
    (made : Nat) :
    ∃ f, f = p.fanout c (w.targets.map fun t => (t, texts t)) w.model ∧
      Fanout.start w p.graph c = .ok f ∧
      Fanout.replaceAll w.manuscript (f.drafts (p.outcomes f made)) =
        .ok (.ofTexts p.settings.taxonomy.sectionIds.eraseDups
          (Fanout.written texts (f.drafts (p.outcomes f made)))) := by
  have ht : ∀ t ∈ w.targets, t ∈ p.settings.taxonomy.sectionIds.eraseDups :=
    fun t ht => List.mem_eraseDups.mpr (h.targets t ht)
  refine ⟨_, rfl, Fanout.start_ofTexts p.graph c hm ht, ?_⟩
  rw [hm]
  refine Fanout.replaceAll_ofTexts texts fun d hd => ht _ ?_
  simpa [Plan.fanout] using Fanout.mem_drafts hd

theorem write (h : Fits p n .processing w) (texts : String → String)
    (model : Architecture.Model) :
    Fits p n .loading
      (w.written (.ofTexts p.settings.taxonomy.sectionIds.eraseDups texts) model) :=
  ⟨h.total, h.processed, h.judged, ⟨texts, rfl⟩, h.targets, by simp⟩

/-- A move that leaves the worklist alone needs no component. -/
theorem move {a b : Phase} (h : Fits p n a w) (hunjudged : a.unjudged = b.unjudged)
    (hidle : ¬ (b = .filtering ∨ b = .selecting ∨ b = .processing)) : Fits p n b w :=
  ⟨h.total, h.processed, hunjudged ▸ h.judged, h.manuscript, h.targets, fun hb => absurd hb hidle⟩

/-- A turn keeps the invariant. -/
theorem turn (h : Fits p n phase w) (hp : p.Grounded) {made : Nat} {m : Move} {w' : Worklist}
    {asked : List Assistant.Request} (ht : Turn p w made phase m w' asked) :
    Fits p n m.target w' := by
  cases ht with
  | close _ => exact h.next_nil
  | load hqueue => exact h.next_cons hqueue
  | filter _ _ => exact h.judge _
  | reject => exact h.move rfl (by decide)
  | select _ => exact h.place fun t ht => Placement.mem_ofReply hp _ ht
  | process _ hf hm =>
      obtain ⟨texts, htexts⟩ := h.manuscript
      obtain ⟨f, -, hf', hm'⟩ := h.fanout htexts _ made
      obtain rfl := Except.ok.inj (hf'.symm.trans hf)
      rw [Except.ok.inj (hm.symm.trans hm')]
      exact h.write _ _
  | compile => exact h.move rfl (by decide)
  | finalize => exact h.move rfl (by decide)

end Fits

theorem Reach.fits {p : Plan} {k : Catalog} {phase : Phase} {w : Worklist}
    {trail : List Checkpoint} {requests : List Assistant.Request} (hp : p.Grounded)
    (h : Reach p k phase w trail requests) : Fits p k.size phase w := by
  induction h with
  | start => exact .start p k
  | turn _ ht ih => exact ih.turn hp ht

/-! ## The number of turns -/

/-- The turns that the verdicts count already and that are still to come. -/
def Phase.pending : Phase → Nat
  | .rejected | .processing => 1
  | .selecting => 2
  | _ => 0

/-- The turns made that the verdicts do not count. -/
def Phase.uncounted : Phase → Nat
  | .filtering | .compiling => 1
  | .finalizing => 2
  | .done => 3
  | _ => 0

/-- Four turns for each accepted component and three for each rejected one. -/
theorem Reach.length_eq {p : Plan} {k : Catalog} {phase : Phase} {w : Worklist}
    {trail : List Checkpoint} {requests : List Assistant.Request}
    (h : Reach p k phase w trail requests) :
    trail.length + phase.pending = 4 * w.accepted + 3 * w.rejected + phase.uncounted := by
  induction h with
  | start => rfl
  | turn _ ht ih =>
      rw [List.length_append, List.length_singleton]
      cases ht with
      | load hqueue =>
          rw [Worklist.next_of_cons hqueue]
          exact congrArg (· + 1) ih
      | @filter c o _ _ =>
          -- A verdict counts all moves of its component, so those to come become pending here.
          cases hv : o.verdict with
          | accept =>
              simp only [Phase.pending, Phase.uncounted, Session.phaseAfter, Worklist.judge]
                at ih ⊢
              omega
          | reject =>
              simp only [Phase.pending, Phase.uncounted, Session.phaseAfter, Worklist.judge]
                at ih ⊢
              omega
      | _ =>
          simp only [Phase.pending, Phase.uncounted, Worklist.cleared, Worklist.place,
            Worklist.written] at ih ⊢
          omega

/-- A run that is not done has made fewer turns than its catalog can take. -/
theorem Reach.length_lt {p : Plan} {k : Catalog} {phase : Phase} {w : Worklist}
    {trail : List Checkpoint} {requests : List Assistant.Request} (hp : p.Grounded)
    (h : Reach p k phase w trail requests) (hphase : phase ≠ .done) :
    trail.length < Session.moves k.size := by
  have hlength := h.length_eq
  have hprocessed := (h.fits hp).processed
  have hjudged := (h.fits hp).judged
  simp only [Session.moves, Settings.movesPerComponent, Settings.closingMoves]
  cases phase with
  | done => exact absurd rfl hphase
  | _ =>
      simp only [Phase.pending, Phase.uncounted, Phase.unjudged] at hlength hjudged
      omega

/-! ## Plans that differ in their caps -/

def Plan.withCap (p : Plan) (cap : Option Nat) : Plan :=
  { p with settings := { p.settings with maxSteps := cap } }

theorem Turn.of_withCap {p : Plan} {cap : Option Nat} {w w' : Worklist} {made : Nat}
    {phase : Phase} {m : Move} {asked : List Assistant.Request}
    (h : Turn (p.withCap cap) w made phase m w' asked) : Turn p w made phase m w' asked := by
  cases h with
  | close h => exact .close h
  | load h => exact .load h
  | filter h ho => exact .filter h ho
  | reject => exact .reject
  | select h => exact .select h
  | process h hf hm => exact .process h hf hm
  | compile => exact .compile
  | finalize => exact .finalize

/-- A cap does not change where turns lead to. -/
theorem Reach.of_withCap {p : Plan} {cap : Option Nat} {k : Catalog} {phase : Phase}
    {w : Worklist} {trail : List Checkpoint} {requests : List Assistant.Request}
    (h : Reach (p.withCap cap) k phase w trail requests) : Reach p k phase w trail requests := by
  induction h with
  | start => exact .start
  | turn _ ht ih => exact ih.turn ht.of_withCap

end Run

end Scriptorium
