import Scriptorium.Proofs.Run.Steady

/-! # Processing in turn

Processing a component in turn asks for one draft after the other, each from the text of that
moment, and writes each before the next one is asked for; the survey comes last. As no section is
picked twice, this comes to the same as asking for everything at once and writing afterwards.
-/

namespace Scriptorium

namespace Run

open Archive

namespace Plan

def outcomeOf (p : Plan) (c : Component) (texts : String → String) (number : Nat) (id : String) :
    Assistant.Outcome :=
  p.answers number (p.drafting c id (texts id))

def draftOf (p : Plan) (c : Component) (texts : String → String) (number : Nat) (id : String) :
    Drafting.Draft :=
  Drafting.ofOutcome id (texts id) c (p.outcomeOf c texts number id)

variable {p : Plan} {c : Component} {texts : String → String} {made : Nat} {targets : List String}
  {model : Architecture.Model}

/-! ## Drafts by number -/

section Numbered

variable {α : Type} (g : (String → String) → Nat → String → α)

def numbered (texts : String → String) (made : Nat) (targets : List String) : List α :=
  (targets.zipIdx made).map fun (id, number) => g texts number id

theorem numbered_cons (id : String) : numbered g texts made (id :: targets) =
    g texts made id :: numbered g texts (made + 1) targets := rfl

theorem getElem?_numbered (i : Nat) :
    (numbered g texts made targets)[i]? = targets[i]?.map (g texts (made + i)) := by
  rw [numbered, List.getElem?_map, List.getElem?_zipIdx, Option.map_map]
  rfl

theorem numbered_congr {other : String → String} (h : ∀ id ∈ targets, texts id = other id)
    (hg : ∀ number id, texts id = other id → g texts number id = g other number id) :
    numbered g texts made targets = numbered g other made targets := by
  refine List.map_congr_left fun ⟨id, number⟩ hmem => ?_
  exact hg number id (h id (List.fst_mem_of_mem_zipIdx hmem))

end Numbered

theorem outcomeOf_congr {other : String → String} (number : Nat) (id : String)
    (h : texts id = other id) : p.outcomeOf c texts number id = p.outcomeOf c other number id := by
  rw [outcomeOf, outcomeOf, h]

theorem draftOf_congr {other : String → String} (number : Nat) (id : String)
    (h : texts id = other id) : p.draftOf c texts number id = p.draftOf c other number id := by
  rw [draftOf, draftOf, outcomeOf_congr number id h, h]

theorem draftOf_target (number : Nat) (id : String) :
    (p.draftOf c texts number id).target = id :=
  Drafting.ofOutcome_target _ _ _ _

/-! ## The fan-out over sections that have texts -/

def fanoutOver (p : Plan) (c : Component) (texts : String → String) (targets : List String)
    (model : Architecture.Model) : Fanout :=
  p.fanout c (targets.map fun id => (id, texts id)) model

section Over

variable (p : Plan) (c : Component) (texts : String → String) (targets : List String)
  (model : Architecture.Model) (made : Nat)

theorem map_target_draftOf :
    (numbered (p.draftOf c) texts made targets).map (·.target) = targets := by
  induction targets generalizing made with
  | nil => rfl
  | cons id targets ih => rw [numbered_cons, List.map_cons, ih, draftOf_target]

/-- A section has its own draft in the end, whatever the other drafts are. -/
theorem written_numbered (hnodup : targets.Nodup) {i : Nat} {id : String}
    (hid : targets[i]? = some id) :
    Fanout.written texts (numbered (p.draftOf c) texts made targets) id =
      (p.draftOf c texts (made + i) id).text := by
  have hdraft : p.draftOf c texts (made + i) id ∈ numbered (p.draftOf c) texts made targets := by
    refine List.mem_of_getElem? (i := i) ?_
    rw [getElem?_numbered, hid, Option.map_some]
  have hdistinct : ((numbered (p.draftOf c) texts made targets).map (·.target)).Nodup := by
    rw [map_target_draftOf]
    exact hnodup
  have hown := Fanout.written_of_mem texts hdistinct hdraft
  rwa [draftOf_target] at hown

theorem written_numbered_of_not_mem {id : String} (hid : id ∉ targets) :
    Fanout.written texts (numbered (p.draftOf c) texts made targets) id = texts id := by
  refine Fanout.written_of_not_mem texts ?_
  rwa [map_target_draftOf]

theorem outcomes_fanoutOver : p.outcomes (p.fanoutOver c texts targets model) made =
    numbered (p.outcomeOf c) texts made targets := by
  simp only [outcomes, fanoutOver, fanout, Fanout.draftRequests, List.map_map]
  rw [List.zipIdx_map, List.map_map]
  rfl

theorem drafts_fanoutOver : (p.fanoutOver c texts targets model).drafts
    (p.outcomes (p.fanoutOver c texts targets model) made) =
      numbered (p.draftOf c) texts made targets := by
  rw [outcomes_fanoutOver]
  unfold Fanout.drafts fanoutOver fanout
  dsimp only
  induction targets generalizing made with
  | nil => rfl
  | cons id targets ih => exact congrArg _ (ih (made + 1))

theorem names_fanoutOver :
    (p.fanoutOver c texts targets model).sections.map (·.1) = targets := by
  rw [fanoutOver, fanout, List.map_map]
  exact List.map_id _

theorem fanning_fanoutOver : p.fanning (p.fanoutOver c texts targets model) =
    (targets.map fun id => p.drafting c id (texts id)) ++ [p.surveying c model] :=
  fanning_eq c targets texts model

theorem surveyOutcome_fanoutOver : p.surveyOutcome (p.fanoutOver c texts targets model) made =
    p.answers (made + targets.length) (p.surveying c model) := by
  rw [surveyOutcome, Fanout.draftRequests, List.length_map, fanoutOver, fanout, List.length_map]
  rfl

variable {texts targets} {ids : List String}

theorem start_fanoutOver {w : Worklist} (hm : w.manuscript = .ofTexts ids texts)
    (h : ∀ id ∈ w.targets, id ∈ ids) :
    Fanout.start w p.graph c = .ok (p.fanoutOver c texts w.targets w.model) :=
  Fanout.start_ofTexts p.graph c hm h

theorem replaceAll_fanoutOver {m : Manuscript} (hm : m = .ofTexts ids texts)
    (h : ∀ id ∈ targets, id ∈ ids) :
    Fanout.replaceAll m ((p.fanoutOver c texts targets model).drafts
      (p.outcomes (p.fanoutOver c texts targets model) made)) =
        .ok (.ofTexts ids (Fanout.written texts (numbered (p.draftOf c) texts made targets))) := by
  rw [drafts_fanoutOver, hm]
  refine Fanout.replaceAll_ofTexts texts fun d hd => h d.target ?_
  rw [← map_target_draftOf p c texts targets made]
  exact List.mem_map_of_mem hd

end Over

end Plan

namespace Session

variable {σ : Type} {p : Plan} {s : Session σ}

/-! ## One draft after the other -/

def moved (s : Session σ) (requests : List Assistant.Request) (w : Worklist) : Session σ :=
  { s with requests := requests, work := w }

/-- Drafts sections in turn: a request is made from the text that the section has when its turn
comes, and its draft is counted and written before the next one. -/
def draftEach (p : Plan) (c : Component) : List String → Session σ → Result σ
  | [], s => (.ok (), s)
  | id :: targets, s =>
    match s.work.manuscript.get? id with
    | none => (.error (.unknownSection id), s)
    | some existing =>
      let q := p.drafting c id existing
      let o := p.answers s.requests.length q
      let d := Drafting.ofOutcome id existing c o
      match s.work.manuscript.replace? id d.text with
      | none => (.error (.unknownSection id), s)
      | some m =>
        let counted := countDraft (waitedFor .writer s o) d
        draftEach p c targets (counted.moved (s.requests ++ [q]) { s.work with manuscript := m })

theorem waitedFor_moved (task : Assistant.Task) (requests : List Assistant.Request) (w : Worklist)
    (s : Session σ) (o : Assistant.Outcome) :
    waitedFor task (s.moved requests w) o = (waitedFor task s o).moved requests w := by
  unfold waitedFor
  split <;> rfl

theorem countDraft_moved (requests : List Assistant.Request) (w : Worklist) (s : Session σ)
    (d : Drafting.Draft) :
    countDraft (s.moved requests w) d = (countDraft s d).moved requests w := by
  unfold countDraft
  split <;> rfl

/-- It does not matter whether a wait or a draft is counted first. -/
theorem waitedFor_countDraft (task : Assistant.Task) (d : Drafting.Draft) (s : Session σ)
    (o : Assistant.Outcome) :
    waitedFor task (countDraft s d) o = countDraft (waitedFor task s o) d := by
  unfold waitedFor countDraft
  cases o.brokeOff with
  | true => rfl
  | false => cases d.error <;> cases task <;> rfl

def counted (s : Session σ) (outcomes : List Assistant.Outcome) (drafts : List Drafting.Draft) :
    Session σ :=
  drafts.foldl countDraft (outcomes.foldl (waitedFor .writer) s)

theorem counted_moved (s : Session σ) (requests : List Assistant.Request) (w : Worklist)
    (outcomes : List Assistant.Outcome) (drafts : List Drafting.Draft) :
    (s.moved requests w).counted outcomes drafts =
      (s.counted outcomes drafts).moved requests w := by
  unfold counted
  rw [List.foldl_hom (fun t : Session σ => t.moved requests w) (waitedFor_moved .writer requests w),
    List.foldl_hom (fun t : Session σ => t.moved requests w) (countDraft_moved requests w)]

theorem counted_cons (s : Session σ) (o : Assistant.Outcome) (d : Drafting.Draft)
    (outcomes : List Assistant.Outcome) (drafts : List Drafting.Draft) :
    s.counted (o :: outcomes) (d :: drafts) =
      (countDraft (waitedFor .writer s o) d).counted outcomes drafts := by
  unfold counted
  rw [List.foldl_cons, List.foldl_cons,
    List.foldl_hom (fun t : Session σ => countDraft t d) (waitedFor_countDraft .writer d)]

/-- A run after the drafts of a component for sections that had texts: they are asked for from
these texts, counted and written. -/
def drafted (p : Plan) (c : Component) (ids : List String) (texts : String → String)
    (targets : List String) (s : Session σ) : Session σ :=
  let drafts := Plan.numbered (p.draftOf c) texts s.requests.length targets
  (s.counted (Plan.numbered (p.outcomeOf c) texts s.requests.length targets) drafts).moved
    (s.requests ++ targets.map fun id => p.drafting c id (texts id))
    (s.work.written (.ofTexts ids (Fanout.written texts drafts)) s.work.model)

def draftedOne (p : Plan) (c : Component) (ids : List String) (texts : String → String)
    (id : String) (s : Session σ) : Session σ :=
  let d := p.draftOf c texts s.requests.length id
  (countDraft (waitedFor .writer s (p.outcomeOf c texts s.requests.length id)) d).moved
    (s.requests ++ [p.drafting c id (texts id)])
    (s.work.written (.ofTexts ids (Function.update texts id d.text)) s.work.model)

section Drafting

variable {c : Component} {ids targets : List String} {texts : String → String} {id : String}

theorem draftEach_cons (hid : id ∈ ids) (hm : s.work.manuscript = .ofTexts ids texts) :
    draftEach p c (id :: targets) s = draftEach p c targets (s.draftedOne p c ids texts id) := by
  have hget : s.work.manuscript.get? id = some (texts id) := by
    rw [hm, Manuscript.get?_ofTexts, if_pos hid]
  have hreplace (text : String) : s.work.manuscript.replace? id text =
      some (.ofTexts ids (Function.update texts id text)) := by
    rw [hm, Manuscript.replace?_ofTexts texts text hid]
  simp only [draftEach, hget, hreplace]
  rfl

/-- A section that is not among those still to come leaves them the texts that they had before. -/
theorem drafted_cons (hid : id ∉ targets) : s.drafted p c ids texts (id :: targets) =
    (s.draftedOne p c ids texts id).drafted p c ids
      (Function.update texts id (p.draftOf c texts s.requests.length id).text) targets := by
  obtain ⟨o, ho⟩ : ∃ o, p.outcomeOf c texts s.requests.length id = o := ⟨_, rfl⟩
  obtain ⟨d, hd⟩ : ∃ d, p.draftOf c texts s.requests.length id = d := ⟨_, rfl⟩
  obtain ⟨later, hlater⟩ : ∃ later, Function.update texts id d.text = later := ⟨_, rfl⟩
  have hsame : ∀ u ∈ targets, later u = texts u := by
    intro u hu
    rw [← hlater, Function.update_of_ne (ne_of_mem_of_not_mem hu hid)]
  have hwritten (drafts : List Drafting.Draft) :
      Fanout.written texts (d :: drafts) = Fanout.written later drafts := by
    have htarget : d.target = id := by rw [← hd, Plan.draftOf_target]
    rw [← hlater, ← htarget]
    rfl
  have hlength : (s.requests ++ [p.drafting c id (texts id)]).length = s.requests.length + 1 :=
    List.length_append
  have hasked : targets.map (fun u => p.drafting c u (later u)) =
      targets.map fun u => p.drafting c u (texts u) :=
    List.map_congr_left fun u hu => by rw [hsame u hu]
  unfold drafted draftedOne
  simp only [ho, hd, hlater, Plan.numbered_cons, counted_cons, counted_moved, hwritten]
  simp only [moved, hlength, hasked, Plan.numbered_congr _ hsame Plan.outcomeOf_congr,
    Plan.numbered_congr _ hsame Plan.draftOf_congr, List.map_cons, List.append_assoc,
    List.singleton_append]
  rfl

/-- Drafting in turn comes to the same as asking for all drafts from the texts before. -/
theorem draftEach_eq (hnodup : targets.Nodup) (htargets : ∀ id ∈ targets, id ∈ ids)
    (hm : s.work.manuscript = .ofTexts ids texts) :
    draftEach p c targets s = (.ok (), s.drafted p c ids texts targets) := by
  -- The induction is over the sections still to come, with whatever texts the run then has.
  induction targets generalizing s texts with
  | nil =>
      have hsame : s.work.written (.ofTexts ids texts) s.work.model = s.work := by
        rw [← hm]
        rfl
      rw [draftEach, drafted, List.map_nil, List.append_nil]
      exact congrArg (fun w => (Except.ok (), s.moved s.requests w)) hsame.symm
  | cons id targets ih =>
      obtain ⟨hid, hrest⟩ := List.nodup_cons.mp hnodup
      have hin : ∀ u ∈ targets, u ∈ ids := fun u hu => htargets u (List.mem_cons_of_mem id hu)
      rw [draftEach_cons (htargets id List.mem_cons_self) hm, drafted_cons hid]
      exact ih hrest hin rfl

end Drafting

/-! ## The whole component -/

variable [Store σ]

/-- Processes the current component in turn: all drafts one after the other, then the survey. -/
def processInTurn (p : Plan) (s : Session σ) : Result σ Move :=
  s.withCurrent fun c =>
    match draftEach p c s.work.targets s with
    | (.error e, t) => (.error e, t)
    | (.ok (), t) =>
      let f := p.fanout c [] t.work.model
      let q := f.surveyRequest p.settings.prompts
      let o := p.answers t.requests.length q
      (.ok ⟨.loading, "process", none⟩,
        s.work.targets.foldl (keepSnapshot c.name) (mergeSurvey f (t.noted q) o))

omit [Store σ] in
theorem mergeSurvey_congr {f g : Fanout} (h : f.component = g.component) (s : Session σ)
    (o : Assistant.Outcome) : mergeSurvey f s o = mergeSurvey g s o := by
  simp only [mergeSurvey, Fanout.mergeSurvey, h]

/-- Merging what the calls came to, where all drafts can be written. -/
theorem merge_eq {f : Fanout} {outcomes : List Assistant.Outcome} {m : Manuscript}
    (survey : Assistant.Outcome)
    (hm : Fanout.replaceAll s.work.manuscript (f.drafts outcomes) = .ok m) :
    merge f s outcomes survey =
      (.ok (), (f.sections.map (·.1)).foldl (keepSnapshot f.component.name)
        (mergeSurvey f ((s.counted outcomes (f.drafts outcomes)).moved s.requests
          (s.work.written m s.work.model)) survey)) := by
  have hsame : s.counted outcomes (f.drafts outcomes) =
      (s.counted outcomes (f.drafts outcomes)).moved s.requests s.work :=
    counted_moved s s.requests s.work outcomes (f.drafts outcomes)
  have hwork := congrArg Session.work hsame
  have hrequests := congrArg Session.requests hsame
  unfold merge counted at *
  dsimp only
  generalize (f.drafts outcomes).foldl countDraft (outcomes.foldl (waitedFor .writer) s) = t
    at hwork hrequests ⊢
  change t.work = s.work at hwork
  change t.requests = s.requests at hrequests
  rw [hwork, hm]
  simp only [moved, ← hrequests, Worklist.written]

/-- What processing comes to when the calls of its fan-out have come to outcomes. -/
def land (f : Fanout) (s : Session σ) (outcomes : List Assistant.Outcome)
    (survey : Assistant.Outcome) : Result σ Move :=
  match merge f s outcomes survey with
  | (.error e, t) => (.error e, t)
  | (.ok (), t) => (.ok ⟨.loading, "process", none⟩, t)

theorem process_eq_land {c : Component} {f : Fanout} (hcurrent : s.work.current = some c)
    (hstart : Fanout.start s.work p.graph c = .ok f) :
    s.process p = land f (s.moved (s.requests ++ p.fanning f) s.work)
      (p.outcomes f s.requests.length) (p.surveyOutcome f s.requests.length) :=
  process_of_start hcurrent hstart

/-- Processing in turn comes to the same as processing at once. -/
theorem processInTurn_eq {c : Component} {ids : List String} {texts : String → String}
    (hcurrent : s.work.current = some c) (hm : s.work.manuscript = .ofTexts ids texts)
    (hnodup : s.work.targets.Nodup) (htargets : ∀ id ∈ s.work.targets, id ∈ ids) :
    s.processInTurn p = s.process p := by
  have hstart := Plan.start_fanoutOver p c hm htargets
  have hwritten := Plan.replaceAll_fanoutOver p c s.work.model s.requests.length hm htargets
  obtain ⟨t, ht⟩ : ∃ t, s.drafted p c ids texts s.work.targets = t := ⟨_, rfl⟩
  have hlength : t.requests.length = s.requests.length + s.work.targets.length := by
    rw [← ht, drafted]
    simp [moved]
  have hmodel : t.work.model = s.work.model := by
    rw [← ht]
    rfl
  have hcomponent : (p.fanout c [] s.work.model).component =
      (p.fanoutOver c texts s.work.targets s.work.model).component := rfl
  have hturn : s.processInTurn p = (.ok ⟨.loading, "process", none⟩,
      s.work.targets.foldl (keepSnapshot c.name)
        (mergeSurvey (p.fanoutOver c texts s.work.targets s.work.model)
          (t.noted (p.surveying c s.work.model))
          (p.answers (s.requests.length + s.work.targets.length)
            (p.surveying c s.work.model)))) := by
    simp only [processInTurn, withCurrent, hcurrent, draftEach_eq hnodup htargets hm, ht, hlength,
      hmodel]
    rw [mergeSurvey_congr hcomponent]
    rfl
  have hmerge := merge_eq
    (s := s.moved (s.requests ++ p.fanning (p.fanoutOver c texts s.work.targets s.work.model))
      s.work)
    (p.surveyOutcome (p.fanoutOver c texts s.work.targets s.work.model) s.requests.length) hwritten
  rw [hturn, process_eq_land hcurrent hstart, land, hmerge, Plan.names_fanoutOver,
    Plan.surveyOutcome_fanoutOver, Plan.drafts_fanoutOver, Plan.outcomes_fanoutOver,
    counted_moved, ← ht, Plan.fanning_fanoutOver, ← List.append_assoc]
  rfl

end Session

end Run

end Scriptorium
