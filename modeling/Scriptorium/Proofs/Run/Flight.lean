import Mathlib.Data.List.Nodup
import Mathlib.Data.List.Perm.Basic
import Mathlib.Logic.Relation
import Scriptorium.Proofs.Drafting
import Scriptorium.Proofs.Run.InTurn

/-! # Calls in flight

While a component is processed, the calls for its drafts and for its survey are all under way and
settle one at a time in any order. Each brings the outcome that belongs to its request, and nothing
else changes until the last one has settled; then the outcomes are taken up by the numbers of their
requests. So whatever the order is, processing comes to the same.
-/

namespace Scriptorium

namespace Run

open Archive

/-- The calls of a fan-out: those under way, by request and number, and what the others came to, by
number in the order in which they settled. -/
structure Flight where
  pending : List (Assistant.Request × Nat)
  settled : List (Nat × Assistant.Outcome) := []

def Plan.settlement (p : Plan) (call : Assistant.Request × Nat) : Nat × Assistant.Outcome :=
  (call.2, p.answers call.2 call.1)

namespace Flight

inductive Settles (p : Plan) : Flight → Flight → Prop where
  | call (before : List (Assistant.Request × Nat)) (call : Assistant.Request × Nat)
      (after : List (Assistant.Request × Nat)) (settled : List (Nat × Assistant.Outcome)) :
      Settles p ⟨before ++ call :: after, settled⟩
        ⟨before ++ after, settled ++ [p.settlement call]⟩

/-- The calls that a flight began with, each with what it comes to, settled or not. -/
def account (p : Plan) (f : Flight) : List (Nat × Assistant.Outcome) :=
  f.pending.map p.settlement ++ f.settled

def outcome? (f : Flight) (number : Nat) : Option Assistant.Outcome := f.settled.lookup number

variable {p : Plan} {f g : Flight}

/-- A call that settles stays in the account. -/
theorem Settles.account_perm (h : Settles p f g) : (g.account p).Perm (f.account p) := by
  cases h with
  | call before call after settled =>
      have hmiddle : ((before ++ call :: after).map p.settlement).Perm
          (p.settlement call :: (before ++ after).map p.settlement) :=
        List.perm_middle.map p.settlement
      calc (before ++ after).map p.settlement ++ (settled ++ [p.settlement call])
          = ((before ++ after).map p.settlement ++ settled) ++ [p.settlement call] :=
            (List.append_assoc _ _ _).symm
        List.Perm _ (p.settlement call :: ((before ++ after).map p.settlement ++ settled)) :=
          List.perm_append_singleton _ _
        List.Perm _ ((before ++ call :: after).map p.settlement ++ settled) :=
          (hmiddle.append_right settled).symm

end Flight

theorem lookup_of_mem {l : List (Nat × Assistant.Outcome)} (hnodup : (l.map (·.1)).Nodup)
    {n : Nat} {o : Assistant.Outcome} (h : (n, o) ∈ l) : l.lookup n = some o := by
  induction l with
  | nil => cases h
  | cons a l ih =>
      obtain ⟨m, u⟩ := a
      rw [List.map_cons, List.nodup_cons] at hnodup
      rcases List.mem_cons.mp h with heq | hrest
      · obtain ⟨rfl, rfl⟩ := Prod.mk.inj heq
        exact List.lookup_cons_self
      · have hne : n ≠ m := by
          rintro rfl
          exact hnodup.1 (List.mem_map.mpr ⟨(n, o), hrest, rfl⟩)
        rw [List.lookup_cons, beq_false_of_ne hne]
        exact ih hnodup.2 hrest

theorem Fanout.mergeSurvey_cases (f : Fanout) (m : Architecture.Model) (o : Assistant.Outcome) :
    (∃ e, Survey.ofReply f.component o.settled = .ok e ∧
      (f.mergeSurvey m o).1 = (m.merge e).1) ∨
    ∃ failure, Survey.ofReply f.component o.settled = .error failure ∧
      (f.mergeSurvey m o).1 = m := by
  unfold Fanout.mergeSurvey
  cases Survey.ofReply f.component o.settled with
  | ok e => exact .inl ⟨e, rfl, rfl⟩
  | error failure => exact .inr ⟨failure, rfl, rfl⟩

namespace Session

variable {σ : Type} [Store σ] {p : Plan} {s : Session σ}

/-! ## Stages of processing -/

/-- Where processing stands: with calls in flight, whose numbers begin after a number of requests,
or at its end. -/
inductive Stage (σ : Type) where
  | flying (f : Fanout) (made : Nat) (s : Session σ) (flight : Flight)
  | landed (r : Result σ Move)

def launch (p : Plan) (s : Session σ) : Stage σ :=
  match s.work.current with
  | none => .landed (.error (.noComponent s.machine.phase), s)
  | some c =>
    match Fanout.start s.work p.graph c with
    | .error e => .landed (.error e, s)
    | .ok f => .flying f s.requests.length (s.moved (s.requests ++ p.fanning f) s.work)
        ⟨(p.fanning f).zipIdx s.requests.length, []⟩

/-- One call settles, or all calls have and their outcomes are taken up by number: those of the
drafts in the order of the sections, then that of the survey. -/
inductive Stage.Step (p : Plan) : Stage σ → Stage σ → Prop where
  | settle {f : Fanout} {made : Nat} {s : Session σ} {before after : Flight}
      (h : before.Settles p after) : Step p (.flying f made s before) (.flying f made s after)
  | join {f : Fanout} {made : Nat} {s : Session σ} {flight : Flight}
      {outcomes : List Assistant.Outcome} {survey : Assistant.Outcome}
      (hall : flight.pending = [])
      (houtcomes : (List.range' made f.sections.length).map flight.outcome? = outcomes.map some)
      (hsurvey : flight.outcome? (made + f.sections.length) = some survey) :
      Step p (.flying f made s flight) (.landed (land f s outcomes survey))

abbrev Stage.Steps (p : Plan) : Stage σ → Stage σ → Prop := Relation.ReflTransGen (Stage.Step p)

namespace Stage

variable {f : Fanout} {made : Nat}

/-- The calls of a fan-out can settle in any order. -/
theorem steps_of_perm {order pending : List (Assistant.Request × Nat)} (h : order.Perm pending)
    (settled : List (Nat × Assistant.Outcome)) :
    Steps p (.flying f made s ⟨pending, settled⟩)
      (.flying f made s ⟨[], settled ++ order.map p.settlement⟩) := by
  induction order generalizing pending settled with
  | nil =>
      obtain rfl := h.symm.eq_nil
      rw [List.map_nil, List.append_nil]
  | cons call order ih =>
      obtain ⟨before, after, rfl⟩ := List.append_of_mem (h.mem_iff.mp List.mem_cons_self)
      have hrest : order.Perm (before ++ after) :=
        (List.perm_cons call).mp (h.trans List.perm_middle)
      have hfirst : Step p (.flying f made s ⟨before ++ call :: after, settled⟩)
          (.flying f made s ⟨before ++ after, settled ++ [p.settlement call]⟩) :=
        .settle (.call before call after settled)
      have hlater := ih hrest (settled ++ [p.settlement call])
      rw [List.append_assoc] at hlater
      exact .head hfirst hlater

def complete (p : Plan) (f : Fanout) (made : Nat) : List (Nat × Assistant.Outcome) :=
  ((p.fanning f).zipIdx made).map p.settlement

omit [Store σ] in
theorem nodup_complete : ((complete p f made).map (·.1)).Nodup := by
  have hnumbers : (complete p f made).map (·.1) = ((p.fanning f).zipIdx made).map Prod.snd := by
    rw [complete, List.map_map]
    rfl
  rw [hnumbers, List.zipIdx_map_snd]
  exact List.nodup_range'

/-- When all calls have settled, each number has the outcome that belongs to its request. -/
theorem outcome?_of_perm {flight : Flight} (h : flight.settled.Perm (complete p f made)) :
    (List.range' made f.sections.length).map flight.outcome? = (p.outcomes f made).map some ∧
      flight.outcome? (made + f.sections.length) = some (p.surveyOutcome f made) := by
  have hnodup : (flight.settled.map (·.1)).Nodup := (h.map (·.1)).nodup_iff.mpr nodup_complete
  have hlookup : ∀ call ∈ (p.fanning f).zipIdx made,
      flight.outcome? call.2 = some (p.answers call.2 call.1) := by
    intro call hcall
    exact lookup_of_mem hnodup (h.mem_iff.mpr (List.mem_map_of_mem hcall))
  have hlength : f.sections.length = (f.draftRequests p.settings.prompts).length := by
    rw [Fanout.draftRequests, List.length_map]
  have hcalls : (p.fanning f).zipIdx made = (f.draftRequests p.settings.prompts).zipIdx made ++
      [(f.surveyRequest p.settings.prompts, made + f.sections.length)] := by
    rw [Plan.fanning, List.zipIdx_append, hlength]
    rfl
  rw [hcalls] at hlookup
  constructor
  · rw [hlength, ← List.zipIdx_map_snd made, List.map_map, Plan.outcomes, List.map_map]
    exact List.map_congr_left fun call hcall => hlookup call (List.mem_append_left _ hcall)
  · rw [Plan.surveyOutcome, ← hlength]
    exact hlookup _ (List.mem_append_right _ List.mem_cons_self)

/-- Where steps can lead from a launch: calls are lost nowhere, and there is one way to land. -/
inductive Along (p : Plan) (f : Fanout) (made : Nat) (s : Session σ) : Stage σ → Prop where
  | flying {flight : Flight} (h : (flight.account p).Perm (complete p f made)) :
      Along p f made s (.flying f made s flight)
  | landed : Along p f made s (.landed (land f s (p.outcomes f made) (p.surveyOutcome f made)))

theorem Along.step {x y : Stage σ} (h : Along p f made s x) (hxy : Step p x y) :
    Along p f made s y := by
  cases hxy with
  | settle hsettles =>
      cases h with
      | flying h => exact .flying (hsettles.account_perm.trans h)
  | join hall houtcomes hsurvey =>
      cases h with
      | flying h =>
          rw [Flight.account, hall, List.map_nil, List.nil_append] at h
          obtain ⟨hdrafts, hlast⟩ := outcome?_of_perm h
          -- The join has looked up outcomes by number, and each number has one.
          have hsame := (List.map_inj_right fun _ _ => Option.some.inj).mp
            (houtcomes.symm.trans hdrafts)
          rw [hsame, Option.some.inj (hsurvey.symm.trans hlast)]
          exact .landed

theorem Along.steps {x y : Stage σ} (h : Along p f made s x) (hxy : Steps p x y) :
    Along p f made s y := by
  induction hxy with
  | refl => exact h
  | tail _ hstep ih => exact ih.step hstep

/-- From wherever steps can lead, processing goes on to the one way to land. -/
theorem Along.lands {x : Stage σ} (h : Along p f made s x) :
    Steps p x (.landed (land f s (p.outcomes f made) (p.surveyOutcome f made))) := by
  cases h with
  | landed => exact .refl
  | @flying flight h =>
      obtain ⟨last, hlast⟩ : ∃ last : Flight,
          ⟨[], flight.settled ++ flight.pending.map p.settlement⟩ = last := ⟨_, rfl⟩
      have hsettled : Steps p (.flying f made s flight) (.flying f made s last) := by
        rw [← hlast]
        exact steps_of_perm (List.Perm.refl flight.pending) flight.settled
      have hall : last.settled.Perm (complete p f made) := by
        rw [← hlast]
        exact List.perm_append_comm.trans h
      obtain ⟨houtcomes, hsurvey⟩ := outcome?_of_perm hall
      exact hsettled.tail (.join (by rw [← hlast]) houtcomes hsurvey)

end Stage

/-! ## Processing -/

/-- Processing the current component, whatever its sections and the texts and the model before are.
The calls may settle in any order; from wherever this leads, processing goes on to its end, and
there it is where processing in turn comes to. Each section picked has the draft of its own call,
which is the reply or the old text with a line about the failure; all other sections have their old
texts; and the model has the survey merged into it, or is the old one if the survey failed. -/
theorem process_in_any_order {settings : Settings} {graph : Option CallGraph}
    {answers : Assistant.Answering} (hp : Plan.ofSettings settings graph answers = .ok p)
    {c : Component} {texts : String → String} {reply : Except Assistant.Failure String}
    (hphase : s.machine.phase = .processing) (hcurrent : s.work.current = some c)
    (hm : s.work.manuscript = .ofTexts settings.taxonomy.sectionIds.eraseDups texts)
    (htargets : s.work.targets =
      (Placement.ofReply settings.taxonomy settings.fallback reply).sections) :
    (∃ f, launch p s = .flying f s.requests.length (s.moved (s.requests ++ p.fanning f) s.work)
        ⟨(p.fanning f).zipIdx s.requests.length, []⟩ ∧
      ∀ order : List (Assistant.Request × Nat),
        order.Perm ((p.fanning f).zipIdx s.requests.length) →
          Stage.Steps p (launch p s) (.flying f s.requests.length
            (s.moved (s.requests ++ p.fanning f) s.work) ⟨[], order.map p.settlement⟩)) ∧
    (∀ x, Stage.Steps p (launch p s) x → Stage.Steps p x (.landed (s.act p))) ∧
    (∀ r, Stage.Steps p (launch p s) (.landed r) → r = s.act p ∧ r = s.processInTurn p) ∧
    (s.act p).1 = .ok ⟨.loading, "process", none⟩ ∧
    (∀ i t, s.work.targets[i]? = some t →
      let o := p.answers (s.requests.length + i) (p.drafting c t (texts t))
      (s.act p).2.work.manuscript.get? t = some (Drafting.ofOutcome t (texts t) c o).text ∧
        ((∃ text inner, o = .reply text ∧ Assistant.plain text = .ok inner ∧
          (s.act p).2.work.manuscript.get? t = some inner) ∨
        ∃ error, (s.act p).2.work.manuscript.get? t =
          some (Drafting.Draft.failed t c.name (texts t) error).text)) ∧
    (∀ t, t ∉ s.work.targets →
      (s.act p).2.work.manuscript.get? t = s.work.manuscript.get? t) ∧
    ((∃ e, Survey.ofReply c (p.answers (s.requests.length + s.work.targets.length)
          (p.surveying c s.work.model)).settled = .ok e ∧
        (s.act p).2.work.model = (s.work.model.merge e).1) ∨
      ∃ failure, Survey.ofReply c (p.answers (s.requests.length + s.work.targets.length)
          (p.surveying c s.work.model)).settled = .error failure ∧
        (s.act p).2.work.model = s.work.model) := by
  have hgrounded := Plan.grounded_of_ofSettings hp
  obtain ⟨rfl, -⟩ := Plan.fields_of_ofSettings hp
  have hnodup : s.work.targets.Nodup := htargets ▸ Placement.nodup_ofReply _ _ reply
  have hin : ∀ t ∈ s.work.targets, t ∈ p.settings.taxonomy.sectionIds.eraseDups := by
    rw [htargets]
    exact fun t ht => List.mem_eraseDups.mpr (Placement.mem_ofReply hgrounded reply ht)
  have hstart := Plan.start_fanoutOver p c hm hin
  have hwritten := Plan.replaceAll_fanoutOver p c s.work.model s.requests.length hm hin
  have hsurvey := Plan.surveyOutcome_fanoutOver p c texts s.work.targets s.work.model
    s.requests.length
  have hcomponent : (p.fanoutOver c texts s.work.targets s.work.model).component = c := rfl
  generalize p.fanoutOver c texts s.work.targets s.work.model = f
    at hstart hwritten hsurvey hcomponent
  have hact : s.act p = s.process p := by simp only [act, hphase]
  have hland := process_eq_land hcurrent hstart
  have hlaunch : launch p s = .flying f s.requests.length
      (s.moved (s.requests ++ p.fanning f) s.work) ⟨(p.fanning f).zipIdx s.requests.length, []⟩ := by
    simp only [launch, hcurrent, hstart]
  have halong : Stage.Along p f s.requests.length (s.moved (s.requests ++ p.fanning f) s.work)
      (launch p s) := by
    rw [hlaunch]
    exact .flying (by rw [Flight.account, List.append_nil]; exact List.Perm.refl _)
  obtain ⟨hmove, -, hwork, -⟩ := acts_processing hphase hcurrent hstart hwritten
  have htexts : ∀ t, (s.act p).2.work.manuscript.get? t =
      if t ∈ p.settings.taxonomy.sectionIds.eraseDups then
        some (Fanout.written texts (Plan.numbered (p.draftOf c) texts s.requests.length
          s.work.targets) t)
      else none := by
    intro t
    rw [hwork]
    exact Manuscript.get?_ofTexts _ _ t
  -- The first three parts speak of stages, the others of the state where all of them end.
  refine ⟨⟨f, hlaunch, fun order horder => ?_⟩, fun x hx => ?_, fun r hr => ?_, hmove,
    fun i t ht => ?_, fun t ht => ?_, ?_⟩
  · rw [hlaunch]
    exact Stage.steps_of_perm horder []
  · rw [hact, hland]
    exact (halong.steps hx).lands
  · have hr' : r = s.act p := by
      rw [hact, hland]
      cases halong.steps hr with
      | landed => rfl
    exact ⟨hr', by rw [hr', hact, processInTurn_eq hcurrent hm hnodup hin]⟩
  · have hget : (s.act p).2.work.manuscript.get? t =
        some (p.draftOf c texts (s.requests.length + i) t).text := by
      rw [htexts, if_pos (hin t (List.mem_of_getElem? ht)),
        Plan.written_numbered p c texts _ s.requests.length hnodup ht]
    refine ⟨hget, ?_⟩
    rw [hget]
    rcases Drafting.ofOutcome_cases t (texts t) c
      (p.answers (s.requests.length + i) (p.drafting c t (texts t))) with
      ⟨text, inner, ho, hplain, heq⟩ | ⟨error, heq⟩
    · exact .inl ⟨text, inner, ho, hplain, by rw [Plan.draftOf, Plan.outcomeOf, heq]⟩
    · exact .inr ⟨error, by rw [Plan.draftOf, Plan.outcomeOf, heq]⟩
  · rw [htexts, hm, Manuscript.get?_ofTexts,
      Plan.written_numbered_of_not_mem p c texts _ s.requests.length ht]
  · have hcases := f.mergeSurvey_cases s.work.model (p.surveyOutcome f s.requests.length)
    rw [hwork, ← hsurvey]
    rwa [hcomponent] at hcases

/-- A component of a small run that is drafted into both sections, where a text is there already:
however the three calls settle, each section has its own draft in the end. -/
theorem process_in_any_order_small :
    let p := Plan.small (.steady Assistant.scribe) none
    let s : Session Shelf :=
      { start p .small default default {} {} with
        machine := ⟨15, .processing, 3⟩
        work :=
          { Worklist.start .small Settings.small.taxonomy with
            current := some ⟨"Reader", "It parses lines.", none⟩
            targets := ["Usage", "Overview"]
            manuscript := .ofTexts ["Overview", "Usage"] fun id =>
              if id = "Overview" then "Lexer." else "" } }
    ∀ r, Stage.Steps p (launch p s) (.landed r) →
      r.2.work.manuscript.get? "Usage" = some "Reader." ∧
        r.2.work.manuscript.get? "Overview" = some "Lexer.Reader." := by
  intro p s r hr
  have hp : Plan.ofSettings Settings.small none (.steady Assistant.scribe) = .ok p :=
    Plan.ofSettings_small (.steady Assistant.scribe) none (by decide)
  have htargets : s.work.targets = (Placement.ofReply Settings.small.taxonomy
      Settings.small.fallback
      (.ok "\x7b\"relevant_sections\": [\"Usage\", \"Overview\"]\x7d")).sections := by
    decide +kernel
  obtain ⟨-, -, hlanded, -, htexts, -⟩ := process_in_any_order (s := s) hp rfl rfl rfl htargets
  have husage := (htexts 0 "Usage" rfl).1
  have hoverview := (htexts 1 "Overview" rfl).1
  rw [(hlanded r hr).1, husage, hoverview]
  decide +kernel

end Session

end Run

end Scriptorium
