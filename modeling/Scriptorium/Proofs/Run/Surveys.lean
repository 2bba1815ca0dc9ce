import Scriptorium.Proofs.Architecture
import Scriptorium.Proofs.Run.Ending
import Scriptorium.Proofs.Survey

/-! # Where the model comes from

The model of a run is built from the surveys that could be read, in the order of their requests,
and from nothing else. Each component has at most one such request, which is made after it was
accepted. So whatever the model holds can be traced to the reply about an accepted component.
-/

namespace Scriptorium

namespace Run

open Archive Architecture

/-! ## Requests for surveys -/

def surveyedNames (asked : List Assistant.Request) : List String :=
  (asked.filter (·.task = .extractor)).map (·.value "name")

/-- The request of a number is the one for the survey of a name. -/
structure AsksSurvey (asked : List Assistant.Request) (name : String) (i : Nat)
    (q : Assistant.Request) : Prop where
  asked : asked[i]? = some q
  task : q.task = .extractor
  name : q.value "name" = name

variable {asked : List Assistant.Request}

theorem surveyedNames_append (asked later : List Assistant.Request) :
    surveyedNames (asked ++ later) = surveyedNames asked ++ surveyedNames later := by
  rw [surveyedNames, List.filter_append, List.map_append]
  rfl

theorem surveyedNames_of_no_extractor (h : ∀ q ∈ asked, q.task ≠ .extractor) :
    surveyedNames asked = [] := by
  have hnone : asked.filter (·.task = .extractor) = [] :=
    List.filter_eq_nil_iff.mpr fun q hq htask => h q hq (of_decide_eq_true htask)
  rw [surveyedNames, hnone]
  rfl

theorem AsksSurvey.mem_surveyedNames {name : String} {i : Nat} {q : Assistant.Request}
    (h : AsksSurvey asked name i q) : name ∈ surveyedNames asked := by
  refine List.mem_map.mpr ⟨q, List.mem_filter.mpr ⟨List.mem_of_getElem? h.asked, ?_⟩, h.name⟩
  exact decide_eq_true h.task

/-- Where no name is surveyed twice, the request for the survey of a name is the only one. -/
theorem AsksSurvey.unique (hnodup : (surveyedNames asked).Nodup) {name : String} {i j : Nat}
    {q r : Assistant.Request} (h : AsksSurvey asked name i q) (h' : AsksSurvey asked name j r) :
    i = j := by
  -- Two such requests would give the name once on each side of a cut between them.
  have hcut : ∀ {a b : Nat} {q r : Assistant.Request}, AsksSurvey asked name a q →
      AsksSurvey asked name b r → ¬ a < b := by
    intro a b q r ha hb hlt
    have hfront : AsksSurvey (asked.take b) name a q :=
      ⟨by rw [List.getElem?_take_of_lt hlt, ha.asked], ha.task, ha.name⟩
    have hback : AsksSurvey (asked.drop b) name 0 r :=
      ⟨by rw [List.getElem?_drop, Nat.add_zero, hb.asked], hb.task, hb.name⟩
    rw [← List.take_append_drop b asked, surveyedNames_append] at hnodup
    exact (List.nodup_append.mp hnodup).2.2 name hfront.mem_surveyedNames name
      hback.mem_surveyedNames rfl
  exact Nat.le_antisymm (Nat.not_lt.mp (hcut h' h)) (Nat.not_lt.mp (hcut h h'))

namespace Plan

variable {p : Plan}

def survey? (p : Plan) (n : Nat) (q : Assistant.Request) : Option Extraction :=
  if q.task = .extractor then (Survey.ofRequest q (p.answers n q)).toOption else none

/-- The surveys that can be read, with the numbers of their requests, from a first one on. -/
def surveysFrom (p : Plan) (made : Nat) (asked : List Assistant.Request) :
    List (Nat × Extraction) :=
  (asked.zipIdx made).filterMap fun (q, n) => (p.survey? n q).map (n, ·)

theorem survey?_eq_some_iff {n : Nat} {q : Assistant.Request} {e : Extraction} :
    p.survey? n q = some e ↔
      q.task = .extractor ∧ Survey.ofRequest q (p.answers n q) = .ok e := by
  unfold survey?
  split
  next htask =>
    cases Survey.ofRequest q (p.answers n q) <;> simp [htask, Except.toOption]
  next htask => simp [htask]

theorem surveysFrom_append (made : Nat) (asked later : List Assistant.Request) :
    p.surveysFrom made (asked ++ later) =
      p.surveysFrom made asked ++ p.surveysFrom (made + asked.length) later := by
  rw [surveysFrom, List.zipIdx_append, List.filterMap_append]
  rfl

theorem surveysFrom_of_no_extractor (h : ∀ q ∈ asked, q.task ≠ .extractor) (made : Nat) :
    p.surveysFrom made asked = [] := by
  refine List.filterMap_eq_nil_iff.mpr fun a ha => ?_
  have hnone : p.survey? a.2 a.1 = none := if_neg (h a.1 (List.fst_mem_of_mem_zipIdx ha))
  simp only [hnone, Option.map_none]

theorem mem_surveysFrom {i : Nat} {e : Extraction} :
    (i, e) ∈ p.surveysFrom 0 asked ↔ ∃ q, asked[i]? = some q ∧ q.task = .extractor ∧
      Survey.ofRequest q (p.answers i q) = .ok e := by
  simp only [surveysFrom, List.mem_filterMap, Prod.exists, List.mem_zipIdx_iff_getElem?,
    Option.map_eq_some_iff, survey?_eq_some_iff, Prod.mk.injEq]
  constructor
  · rintro ⟨q, n, hq, e', hread, rfl, rfl⟩
    exact ⟨q, hq, hread⟩
  · rintro ⟨q, hq, hread⟩
    exact ⟨q, i, hq, e, hread, rfl, rfl⟩

theorem draftRequests_task {f : Fanout} :
    ∀ q ∈ f.draftRequests p.settings.prompts, q.task ≠ .extractor := by
  intro q hq
  obtain ⟨t, -, rfl⟩ := List.mem_map.mp hq
  exact fun h => Assistant.Task.noConfusion h

theorem surveyedNames_fanning (f : Fanout) : surveyedNames (p.fanning f) = [f.component.name] := by
  rw [fanning, surveyedNames_append, surveyedNames_of_no_extractor draftRequests_task]
  rfl

/-- The requests of a fan-out come to one survey, if it can be read. -/
theorem surveysFrom_fanning (f : Fanout) (made : Nat) :
    p.surveysFrom made (p.fanning f) =
      ((Survey.ofReply f.component (p.surveyOutcome f made).settled).toOption.map
        (made + (f.draftRequests p.settings.prompts).length, ·)).toList := by
  rw [fanning, surveysFrom_append, surveysFrom_of_no_extractor draftRequests_task, List.nil_append]
  have hsurvey : p.survey? (made + (f.draftRequests p.settings.prompts).length)
      (f.surveyRequest p.settings.prompts) =
        (Survey.ofReply f.component (p.surveyOutcome f made).settled).toOption := by
    have htask : (f.surveyRequest p.settings.prompts).task = .extractor := rfl
    rw [survey?, if_pos htask, Fanout.surveyRequest, Survey.ofRequest_request]
    rfl
  simp only [surveysFrom, List.zipIdx_singleton, List.filterMap_cons, hsurvey, List.filterMap_nil]
  cases (Survey.ofReply f.component (p.surveyOutcome f made).settled).toOption <;> rfl

def modelOf (surveys : List (Nat × Extraction)) : Model :=
  .build (surveys.map fun e => .merge e.2)

theorem modelOf_append (surveys later : List (Nat × Extraction)) :
    modelOf (surveys ++ later) = later.foldl (fun m e => (m.merge e.2).1) (modelOf surveys) := by
  rw [modelOf, Model.build, List.map_append, List.foldl_append, List.foldl_map]
  rfl

/-- A fan-out merges its survey into the model. -/
theorem mergeSurvey_eq (f : Fanout) (made : Nat) (m : Model) :
    (f.mergeSurvey m (p.surveyOutcome f made)).1 =
      (p.surveysFrom made (p.fanning f)).foldl (fun m e => (m.merge e.2).1) m := by
  rw [surveysFrom_fanning]
  unfold Fanout.mergeSurvey
  cases Survey.ofReply f.component (p.surveyOutcome f made).settled <;> rfl

theorem judging_extractor {c : Component} : ∀ q ∈ p.judging c, q.task ≠ .extractor := by
  intro q hq
  unfold judging at hq
  cases hjudge : p.sieve.judge? c with
  | some o =>
      rw [hjudge] at hq
      cases hq
  | none =>
      rw [hjudge] at hq
      rw [List.mem_singleton.mp hq]
      exact fun h => Assistant.Task.noConfusion h

end Plan

/-! ## What the model is traced to -/

def Accepts (trail : List Checkpoint) (name : String) : Prop :=
  ∃ x ∈ trail, x.operation = "filter" ∧ x.component = some name ∧
    x.decision = some (Session.verdictName .accept)

theorem Accepts.append {trail : List Checkpoint} {name : String} (h : Accepts trail name)
    (later : List Checkpoint) : Accepts (trail ++ later) name := by
  obtain ⟨x, hx, htells⟩ := h
  exact ⟨x, List.mem_append_left _ hx, htells⟩

theorem accepts_undated {trail : List Checkpoint} {name : String} :
    Accepts (trail.map Checkpoint.undated) name ↔ Accepts trail name := by
  constructor
  · rintro ⟨x, hx, htells⟩
    obtain ⟨y, hy, rfl⟩ := List.mem_map.mp hx
    exact ⟨y, hy, htells⟩
  · rintro ⟨x, hx, htells⟩
    exact ⟨x.undated, List.mem_map_of_mem hx, htells⟩

/-- The model is built from the surveys, and these are about accepted components of the catalog, each
at most once. -/
structure Traced (p : Plan) (k : Catalog) (w : Worklist) (trail : List Checkpoint)
    (requests : List Assistant.Request) : Prop where
  model : w.model = Plan.modelOf (p.surveysFrom 0 requests)
  order : (surveyedNames requests).Sublist k.names
  accepted : ∀ name ∈ surveyedNames requests, Accepts trail name

/-- The components that may still be surveyed. -/
def ahead (phase : Phase) (w : Worklist) : List Component :=
  match phase with
  | .filtering | .selecting | .processing => w.current.toList ++ w.queue
  | _ => w.queue

/-- A point of a run whose model is traced: the components that may still be surveyed come after the
surveyed ones, and one that is about to be is accepted. -/
structure Surveying (p : Plan) (k : Catalog) (phase : Phase) (w : Worklist)
    (trail : List Checkpoint) (requests : List Assistant.Request) : Prop where
  traced : Traced p k w trail requests
  order : (surveyedNames requests ++ (ahead phase w).map Component.name).Sublist k.names
  accepted : phase = .selecting ∨ phase = .processing →
    ∀ c, w.current = some c → Accepts trail c.name

variable {p : Plan} {k : Catalog} {n : Nat} {phase : Phase} {w w' : Worklist}
  {trail : List Checkpoint} {requests : List Assistant.Request} {m : Move}

theorem Traced.append (h : Traced p k w trail requests) (later : List Checkpoint) :
    Traced p k w (trail ++ later) requests :=
  ⟨h.model, h.order, fun name hname => (h.accepted name hname).append later⟩

/-- A turn without a request for a survey leaves the model traced. -/
theorem Traced.of_no_extractor (h : Traced p k w trail requests) (hmodel : w'.model = w.model)
    (hasked : ∀ q ∈ asked, q.task ≠ .extractor) : Traced p k w' trail (requests ++ asked) where
  model := by
    rw [hmodel, h.model, Plan.surveysFrom_append, Plan.surveysFrom_of_no_extractor hasked,
      List.append_nil]
  order := by
    rw [surveyedNames_append, surveyedNames_of_no_extractor hasked, List.append_nil]
    exact h.order
  accepted := by
    rw [surveyedNames_append, surveyedNames_of_no_extractor hasked, List.append_nil]
    exact h.accepted

/-- The model is traced after a turn, also where the checkpoint of the turn is missing. -/
theorem Surveying.traced_turn (h : Surveying p k phase w trail requests) (hfits : Fits p n phase w)
    (ht : Turn p w requests.length phase m w' asked) :
    Traced p k w' trail (requests ++ asked) := by
  have hsame : phase ≠ .processing → (∀ q ∈ asked, q.task ≠ .extractor) →
      Traced p k w' trail (requests ++ asked) :=
    fun hphase => h.traced.of_no_extractor (ht.keeps hphase).2
  cases ht with
  | filter _ _ => exact hsame (by decide) Plan.judging_extractor
  | select _ => exact hsame (by decide) (by simp [Plan.placing, Placement.request])
  | @process c f m' hcurrent hf hm =>
      obtain ⟨texts, htexts⟩ := hfits.manuscript
      obtain ⟨f', rfl, hstart, -⟩ := hfits.fanout htexts c requests.length
      obtain rfl := Except.ok.inj (hstart.symm.trans hf)
      refine ⟨?_, ?_, ?_⟩
      · rw [Plan.surveysFrom_append, Plan.modelOf_append, Nat.zero_add, ← Plan.mergeSurvey_eq,
          ← h.traced.model]
        rfl
      · rw [surveyedNames_append, Plan.surveyedNames_fanning]
        refine .trans ?_ h.order
        refine (List.Sublist.refl _).append ?_
        simp [ahead, hcurrent, Plan.fanout]
      · intro name hname
        rw [surveyedNames_append, Plan.surveyedNames_fanning] at hname
        rcases List.mem_append.mp hname with hname | hname
        · exact h.traced.accepted name hname
        · rw [List.mem_singleton.mp hname]
          exact h.accepted (.inr rfl) c hcurrent
  | _ => exact hsame (by decide) (by simp)

theorem Surveying.turn (h : Surveying p k phase w trail requests) (hfits : Fits p n phase w)
    (ht : Turn p w requests.length phase m w' asked) :
    Surveying p k m.target w' (trail ++ [recorded w' m]) (requests ++ asked) := by
  refine ⟨(h.traced_turn hfits ht).append _, ?_, ?_⟩
  · -- The surveyed components and those ahead stay the same, but for one that is rejected.
    have horder := h.order
    rw [surveyedNames_append]
    cases ht with
    | close hqueue => simpa [surveyedNames, ahead, Worklist.cleared] using horder
    | load hqueue =>
        simpa [surveyedNames, ahead, Worklist.next_of_cons hqueue, hqueue] using horder
    | @filter c o hcurrent ho =>
        rw [surveyedNames_of_no_extractor Plan.judging_extractor, List.append_nil]
        cases hv : o.verdict with
        | accept => exact horder
        | reject =>
            refine .trans ?_ horder
            refine (List.Sublist.refl _).append (List.Sublist.map _ ?_)
            exact List.sublist_append_right _ _
    | reject => simpa [surveyedNames, ahead] using horder
    | select hcurrent =>
        simpa [surveyedNames, ahead, Plan.placing, Placement.request, Worklist.place] using horder
    | @process c f m' hcurrent hf hm =>
        obtain ⟨texts, htexts⟩ := hfits.manuscript
        obtain ⟨f', rfl, hstart, -⟩ := hfits.fanout htexts c requests.length
        obtain rfl := Except.ok.inj (hstart.symm.trans hf)
        rw [Plan.surveyedNames_fanning]
        simpa [ahead, hcurrent, Plan.fanout, Worklist.written] using horder
    | compile => simpa [surveyedNames, ahead] using horder
    | finalize => simpa [surveyedNames, ahead] using horder
  · intro hphase c hc
    cases ht with
    | @filter c' o hcurrent ho =>
        cases hv : o.verdict with
        | accept =>
            refine ⟨_, List.mem_append_right _ (List.mem_singleton_self _), rfl, ?_, ?_⟩
            · rw [hv] at hc
              exact congrArg (Option.map Component.name) hc
            · exact congrArg (fun v => some (Session.verdictName v)) hv
        | reject =>
            rw [hv] at hphase
            simp [Session.phaseAfter] at hphase
    | select hcurrent => exact (h.accepted (.inl rfl) c hc).append _
    | _ => simp at hphase

theorem Reach.surveying (hp : p.Grounded) (h : Reach p k phase w trail requests) :
    Surveying p k phase w trail requests := by
  induction h with
  | start => exact ⟨⟨rfl, List.nil_sublist _, by simp [surveyedNames]⟩, List.Sublist.refl _, by simp⟩
  | turn h ht ih => exact ih.turn (h.fits hp) ht

/-! ## What the model holds -/

namespace Traced

theorem holds (h : Traced p k w trail requests) :
    w.model.Holds ((p.surveysFrom 0 requests).map (·.2)) := by
  have hholds := Model.build_holds ((p.surveysFrom 0 requests).map fun e => .merge e.2)
  rw [List.map_map] at hholds
  rw [h.model]
  exact hholds

/-- A record of the model was read from the survey of its name. -/
theorem record (h : Traced p k w trail requests) {name : String} {r : Record}
    (hr : (name, r) ∈ w.model.records) : r.significant = true ∧ ∃ i q e,
      AsksSurvey requests name i q ∧ Survey.ofRequest q (p.answers i q) = .ok e ∧
        e.component = some r := by
  have hlast := (h.holds.records name).symm.trans (h.holds.table.1.lookup_of_mem hr)
  obtain ⟨hoffered, hkept⟩ := List.mem_filter.mp (List.mem_of_getLast? hlast)
  obtain ⟨hsignificant, hname⟩ : r.significant = true ∧ r.name = name := by simpa using hkept
  obtain ⟨e, he, hrecord⟩ := List.mem_filterMap.mp hoffered
  obtain ⟨⟨i, e⟩, hsurvey, rfl⟩ := List.mem_map.mp he
  obtain ⟨q, hq, htask, hread⟩ := Plan.mem_surveysFrom.mp hsurvey
  obtain ⟨r', hr', hasked⟩ := Survey.ofRequest_name hread
  obtain rfl : r' = r := Option.some.inj (hr'.symm.trans hrecord)
  exact ⟨hsignificant, i, q, e, ⟨hq, htask, hasked.symm.trans hname⟩, hread, hrecord⟩

theorem mem_names (h : Traced p k w trail requests) {name : String}
    (hname : name ∈ w.model.names) : ∃ i q e, AsksSurvey requests name i q ∧
      Survey.ofRequest q (p.answers i q) = .ok e := by
  obtain ⟨⟨name, r⟩, hr, rfl⟩ := List.mem_map.mp hname
  obtain ⟨-, i, q, e, hasks, hread, -⟩ := h.record hr
  exact ⟨i, q, e, hasks, hread⟩

theorem link (h : Traced p k w trail requests) {l : Link} (hl : l ∈ w.model.links) :
    ∃ e ∈ p.surveysFrom 0 requests, l ∈ e.2.links := by
  rw [h.holds.links, List.mem_eraseDups] at hl
  obtain ⟨e, he, hl⟩ := List.mem_flatMap.mp hl
  obtain ⟨e, hsurvey, rfl⟩ := List.mem_map.mp he
  exact ⟨e, hsurvey, hl⟩

theorem fragment (h : Traced p k w trail requests) {text : String}
    (htext : text ∈ w.model.fragments) :
    ∃ e ∈ p.surveysFrom 0 requests, e.2.fragment = some text := by
  rw [h.holds.fragments] at htext
  obtain ⟨e, he, hfragment⟩ := List.mem_filterMap.mp (List.mem_filter.mp htext).1
  obtain ⟨e, hsurvey, rfl⟩ := List.mem_map.mp he
  exact ⟨e, hsurvey, hfragment⟩

end Traced

/-! ## Runs -/

namespace Session

variable {σ : Type} [Store σ]

/-- The model is traced after a step, also where an error ends the run. -/
theorem Standing.traced_step {s : Session σ} (hp : p.Grounded) (h : Standing p k s)
    (hphase : s.machine.phase ≠ .done) : Traced p k (s.step p).2.work
      ((s.step p).2.trail.checkpoints.map Checkpoint.undated) (s.step p).2.requests := by
  have hsurveying := h.reach.surveying hp
  rcases acts_or_fails (h.reach.fits hp) hphase with ⟨m, w, asked, hacts, hturn⟩ |
    ⟨fault, hfails, -⟩
  · have htraced := hsurveying.traced_turn (h.reach.fits hp) hturn
    by_cases hcap : s.machine.steps < s.machine.cap
    · have hsteps := hacts.step_of_lt hturn.allows hcap
      rw [hsteps.work, hsteps.requests, hsteps.checkpoints, List.map_append]
      exact htraced.append _
    · rw [hacts.step_of_le hturn.allows (Nat.not_lt.mp hcap)]
      rw [hacts.work, hacts.requests, hacts.frame.checkpoints]
      exact htraced
  · rw [hfails.step, hfails.quiet.work, hfails.quiet.requests, hfails.quiet.checkpoints]
    exact hsurveying.traced

theorem drive_traced (hp : p.Grounded) (k : Catalog) (id : RunId) (clock : Clock) (store : σ)
    (tally : Tally) (n : Nat) :
    let s := ((start p k id clock store tally).drive p n).2
    Traced p k s.work (s.trail.checkpoints.map Checkpoint.undated) s.requests :=
  drive_induction (i := Standing p k)
    (q := fun s => Traced p k s.work (s.trail.checkpoints.map Checkpoint.undated) s.requests)
    (fun _ h => h.step_of_ok hp) (fun _ h hphase _ => h.traced_step hp hphase) n
    ⟨.start, rfl, Nat.zero_le _⟩ (Reach.start.surveying hp).traced

/-- At every moment of a run, the model is built from the surveys that could be read, and what it
holds can be traced to them. Its names are names of components of the catalog that were accepted by
then. Each record is significant and is what the reply about its own component says, under the name
of the component. Each link has both ends and is there once. Each component has at most one request
for a survey, and one that cannot be read adds nothing. -/
theorem run_surveys {settings : Settings} {graph : Option CallGraph}
    {answers : Assistant.Answering} (hp : Plan.ofSettings settings graph answers = .ok p)
    (k : Catalog) (id : RunId) (clock : Clock) (store : σ) (tally : Tally) (n : Nat) :
    let s := ((start p k id clock store tally).drive p n).2
    let surveys := p.surveysFrom 0 s.requests
    s.work.model = Plan.modelOf surveys ∧
    (∀ name ∈ s.work.model.names, name ∈ k.names ∧ Accepts s.trail.checkpoints name) ∧
    (∀ e ∈ s.work.model.records, e.2.significant = true ∧ ∃ i q text r links fragment,
      AsksSurvey s.requests e.1 i q ∧ answers i q = .reply text ∧
        Assistant.decode Survey.extraction? text = .ok (r, links, fragment) ∧
          e.2 = { r with name := e.1 }) ∧
    (∀ l ∈ s.work.model.links, Text.blank l.source = false ∧ Text.blank l.target = false ∧
      ∃ e ∈ surveys, l ∈ e.2.links) ∧
    s.work.model.links.Nodup ∧
    (∀ text ∈ s.work.model.fragments, ∃ e ∈ surveys, e.2.fragment = some text) ∧
    (∀ name i j q r, AsksSurvey s.requests name i q → AsksSurvey s.requests name j r → i = j) ∧
    ∀ name i q, AsksSurvey s.requests name i q → Survey.Unread (answers i q) →
      name ∉ s.work.model.names ∧ ∀ e ∈ surveys, e.1 ≠ i := by
  intro s surveys
  have htraced := drive_traced (Plan.grounded_of_ofSettings hp) k id clock store tally n
  obtain ⟨-, rfl⟩ := Plan.fields_of_ofSettings hp
  have hnodup : (surveyedNames s.requests).Nodup := htraced.order.nodup k.distinct
  refine ⟨htraced.model, fun name hname => ?_, fun e he => ?_, fun l hl => ?_, ?_,
    fun text htext => htraced.fragment htext, fun name i j q r hi hj => hi.unique hnodup hj,
    fun name i q hasks hunread => ⟨fun hname => ?_, fun e he hi => ?_⟩⟩
  · obtain ⟨i, q, e, hasks, -⟩ := htraced.mem_names hname
    exact ⟨htraced.order.subset hasks.mem_surveyedNames,
      accepts_undated.mp (htraced.accepted name hasks.mem_surveyedNames)⟩
  · obtain ⟨hsignificant, i, q, e', hasks, hread, hrecord⟩ := htraced.record he
    obtain ⟨text, r, links, fragment, hreply, hdecode, rfl⟩ := Survey.ofReply_eq_ok_iff.mp hread
    refine ⟨hsignificant, i, q, text, r, links, fragment, hasks, hreply, hdecode, ?_⟩
    rw [← Option.some.inj hrecord, ← hasks.name]
  · obtain ⟨e, he, hmem⟩ := htraced.link hl
    obtain ⟨q, -, -, hread⟩ := Plan.mem_surveysFrom.mp he
    obtain ⟨hsource, htarget⟩ := Survey.ofRequest_links hread l hmem
    exact ⟨hsource, htarget, e, he, hmem⟩
  · rw [htraced.holds.links]
    exact nodup_eraseDups _
  · obtain ⟨j, r, e, hasks', hread⟩ := htraced.mem_names hname
    obtain rfl := hasks.unique hnodup hasks'
    obtain rfl : q = r := Option.some.inj (hasks.asked.symm.trans hasks'.asked)
    exact hunread.not_read hread
  · obtain ⟨i, e⟩ := e
    obtain rfl := hi
    obtain ⟨r, hr, -, hread⟩ := Plan.mem_surveysFrom.mp he
    obtain rfl : q = r := Option.some.inj (hasks.asked.symm.trans hr)
    exact hunread.not_read hread

def mistaken (_ : Nat) (r : Assistant.Request) : Assistant.Outcome :=
  if r.task = .extractor ∧ r.value "name" = "Lexer" then
    .reply ("\x7b\"component\":\x7b\"name\":\"Parser\",\"kind\":\"\",\"layer\":\"\"," ++
      "\"is_significant\":true\x7d\x7d")
  else .failure .empty

/-- Where the cap ends a small run, the record that it has stands under the name of the component
that was asked about. -/
theorem run_surveys_small :
    let s := (run (.small mistaken (some 4)) .small default default ({} : Shelf) {}).2
    s.work.model.names = ["Lexer"] ∧ Accepts s.trail.checkpoints "Lexer" := by
  have hnames : (run (.small mistaken (some 4)) .small default default ({} : Shelf)
      {}).2.work.model.names = ["Lexer"] := by
    decide +kernel
  obtain ⟨-, hknown, -⟩ := run_surveys (Plan.ofSettings_small mistaken (some 4) (by decide))
    .small default default ({} : Shelf) {} (moves Catalog.small.size)
  rw [← run] at hknown
  refine ⟨hnames, (hknown "Lexer" ?_).2⟩
  rw [hnames]
  exact List.mem_singleton_self "Lexer"

end Session

end Run

end Scriptorium
