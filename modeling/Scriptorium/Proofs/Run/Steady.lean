import Scriptorium.Proofs.Run.Turn

/-! # Steady assistants

A steady assistant answers a request in the same way whenever it is asked. What a run makes of a
component is then a function of the component, the texts of its sections and the model, and these
are folds over the components that came before.
-/

namespace Scriptorium

/-- The assistant that answers each request as a function of it. -/
def Assistant.Answering.steady (f : Assistant.Request → Except Assistant.Failure String) :
    Assistant.Answering := fun _ r =>
  match f r with
  | .ok text => .reply text
  | .error e => .failure e

theorem Assistant.settled_steady (f : Request → Except Failure String) (n : Nat) (r : Request) :
    (Answering.steady f n r).settled = f r := by
  unfold Answering.steady
  cases f r <;> rfl

theorem Assistant.brokeOff_steady (f : Request → Except Failure String) (n : Nat) (r : Request) :
    (Answering.steady f n r).brokeOff = false := by
  unfold Answering.steady
  cases f r <;> rfl

theorem Drafting.ofOutcome_steady (f : Assistant.Request → Except Assistant.Failure String)
    (n : Nat) (r : Assistant.Request) (target existing : String) (c : Component) :
    ofOutcome target existing c (Assistant.Answering.steady f n r) =
      ofReply target existing c (f r) := by
  unfold Assistant.Answering.steady
  cases f r <;> rfl

namespace Run

/-! ## Lists made component by component -/

section Along

variable {α : Type} (g : List Component → Component → List α) (before l : List Component)

/-- What each component of a list adds after those before it, all together. -/
def along (before : List Component) : List Component → List α
  | [] => []
  | c :: rest => g before c ++ along (before ++ [c]) rest

theorem along_append (c : Component) :
    along g before (l ++ [c]) = along g before l ++ g (before ++ l) c := by
  induction l generalizing before with
  | nil => simp [along]
  | cons d l ih => simp [along, ih]

variable {g before l}

/-- What is added is added by some component of the list, after those before it. -/
theorem mem_along {a : α} (h : a ∈ along g before l) :
    ∃ done c rest, l = done ++ c :: rest ∧ a ∈ g (before ++ done) c := by
  induction l generalizing before with
  | nil => cases h
  | cons c l ih =>
      rcases List.mem_append.mp h with hhere | hlater
      · exact ⟨[], c, l, rfl, (List.append_nil before).symm ▸ hhere⟩
      · obtain ⟨done, d, rest, hl, ha⟩ := ih hlater
        refine ⟨c :: done, d, rest, congrArg (c :: ·) hl, ?_⟩
        rwa [← List.append_cons] at ha

end Along

namespace Plan

variable (p : Plan) (f : Assistant.Request → Except Assistant.Failure String)

/-! ## What is made of one component -/

def judged (c : Component) : Triage.Outcome :=
  match p.sieve.judge? c with
  | some o => o
  | none => Triage.ofReply (f (Triage.request p.settings.prompts.filter c))

def accepts (c : Component) : Bool := (p.judged f c).verdict == .accept

def placed (c : Component) : List String :=
  (Placement.ofReply p.settings.taxonomy p.settings.fallback (f (p.placing c))).sections

def drafting (c : Component) (id existing : String) : Assistant.Request :=
  Drafting.request (p.settings.prompts.writer id) id existing c

def drafted (c : Component) (id existing : String) : Drafting.Draft :=
  Drafting.ofReply id existing c (f (p.drafting c id existing))

def surveying (c : Component) (model : Architecture.Model) : Assistant.Request :=
  Survey.request p.settings.prompts.extractor
    (.ofModel model ((p.graph.map fun g => g.neighbors c.name).getD {})) c

def surveyed (c : Component) (model : Architecture.Model) : Architecture.Model :=
  match Survey.ofReply c (f (p.surveying c model)) with
  | .ok e => (model.merge e).1
  | .error _ => model

/-! ## What is made of a list of components -/

def takes (id : String) (c : Component) : Bool := p.accepts f c && (p.placed f c).contains id

/-- The text of a section after components: that of the last of them that is drafted into it, made
from the text before. -/
def texts (l : List Component) (id : String) : String :=
  (l.filter (p.takes f id)).foldl (fun text c => (p.drafted f c id text).text) ""

def model (l : List Component) : Architecture.Model :=
  (l.filter (p.accepts f)).foldl (fun m c => p.surveyed f c m) {}

def asking (before : List Component) (c : Component) : List Assistant.Request :=
  match (p.judged f c).verdict with
  | .reject => p.judging c
  | .accept =>
    p.judging c ++ [p.placing c] ++
      ((p.placed f c).map fun id => p.drafting c id (p.texts f before id)) ++
      [p.surveying c (p.model f before)]

theorem texts_append (before : List Component) (c : Component) (id : String) :
    p.texts f (before ++ [c]) id =
      if p.takes f id c then (p.drafted f c id (p.texts f before id)).text
      else p.texts f before id := by
  unfold texts
  rw [List.filter_append, List.foldl_append]
  by_cases h : p.takes f id c = true <;> simp [h]

theorem model_append (before : List Component) (c : Component) :
    p.model f (before ++ [c]) =
      if p.accepts f c then p.surveyed f c (p.model f before) else p.model f before := by
  unfold model
  rw [List.filter_append, List.foldl_append]
  by_cases h : p.accepts f c = true <;> simp [h]

variable {p f}

theorem drafted_target (c : Component) (id existing : String) :
    (p.drafted f c id existing).target = id :=
  Drafting.ofReply_target id existing c _

theorem texts_append_of_reject {c : Component} (hc : (p.judged f c).verdict = .reject)
    (before : List Component) : p.texts f (before ++ [c]) = p.texts f before := by
  funext id
  rw [texts_append]
  simp [takes, accepts, hc]

theorem model_append_of_reject {c : Component} (hc : (p.judged f c).verdict = .reject)
    (before : List Component) : p.model f (before ++ [c]) = p.model f before := by
  rw [model_append]
  simp [accepts, hc]

/-- An accepted component leaves its drafts. -/
theorem texts_append_of_accept {c : Component} (hc : (p.judged f c).verdict = .accept)
    (before : List Component) : p.texts f (before ++ [c]) =
      Fanout.written (p.texts f before)
        ((p.placed f c).map fun id => p.drafted f c id (p.texts f before id)) := by
  funext id
  rw [Fanout.written_map (fun t => drafted_target c t (p.texts f before t)), texts_append]
  simp [takes, accepts, hc]

theorem model_append_of_accept {c : Component} (hc : (p.judged f c).verdict = .accept)
    (before : List Component) :
    p.model f (before ++ [c]) = p.surveyed f c (p.model f before) := by
  rw [model_append]
  simp [accepts, hc]

theorem asking_of_reject {c : Component} (hc : (p.judged f c).verdict = .reject)
    (before : List Component) : p.asking f before c = p.judging c := by
  rw [asking, hc]

theorem asking_of_accept {c : Component} (hc : (p.judged f c).verdict = .accept)
    (before : List Component) : p.asking f before c =
      p.judging c ++ [p.placing c] ++
        ((p.placed f c).map fun id => p.drafting c id (p.texts f before id)) ++
        [p.surveying c (p.model f before)] := by
  rw [asking, hc]

/-! ## A plan with a steady assistant -/

section Steady

variable (h : p.answers = .steady f)

include h

theorem judgement_eq (c : Component) (made : Nat) : p.judgement c made = p.judged f c := by
  unfold judgement judged
  cases p.sieve.judge? c with
  | some o => rfl
  | none =>
      dsimp only
      rw [h, Assistant.settled_steady]

theorem placement_eq (c : Component) (made : Nat) :
    (p.placement c made).sections = p.placed f c := by
  unfold placement placed
  rw [h, Assistant.settled_steady]

theorem fanout_drafts (c : Component) (l : List String) (g : String → String)
    (m : Architecture.Model) (made : Nat) {fan : Fanout}
    (hfan : fan = p.fanout c (l.map fun id => (id, g id)) m) :
    fan.drafts (p.outcomes fan made) = l.map fun id => p.drafted f c id (g id) := by
  have houtcomes : p.outcomes fan made =
      (fan.draftRequests p.settings.prompts).map (Assistant.Answering.steady f 0) := by
    unfold outcomes
    rw [h]
    calc ((fan.draftRequests p.settings.prompts).zipIdx made).map
          (fun x => Assistant.Answering.steady f x.2 x.1)
        = (((fan.draftRequests p.settings.prompts).zipIdx made).map Prod.fst).map
            (Assistant.Answering.steady f 0) := by
          rw [List.map_map]
          rfl
      _ = _ := by rw [List.zipIdx_map_fst]
  rw [houtcomes, hfan]
  simp only [Fanout.drafts, Fanout.draftRequests, fanout, List.map_map, List.zip_map']
  refine List.map_congr_left fun id _ => ?_
  exact Drafting.ofOutcome_steady f 0 _ id (g id) c

theorem fanout_survey (c : Component) (sections : List (String × String))
    (m : Architecture.Model) (made : Nat) {fan : Fanout} (hfan : fan = p.fanout c sections m) :
    (fan.mergeSurvey m (p.surveyOutcome fan made)).1 = p.surveyed f c m := by
  unfold Fanout.mergeSurvey surveyOutcome surveyed
  rw [h, Assistant.settled_steady, hfan]
  change (match Survey.ofReply c (f (p.surveying c m)) with
    | .ok e => ((m.merge e).1, true)
    | .error _ => (m, false)).1 = _
  cases Survey.ofReply c (f (p.surveying c m)) <;> rfl

end Steady

theorem fanning_eq (c : Component) (l : List String) (g : String → String)
    (m : Architecture.Model) :
    p.fanning (p.fanout c (l.map fun id => (id, g id)) m) =
      (l.map fun id => p.drafting c id (g id)) ++ [p.surveying c m] := by
  simp [fanning, fanout, Fanout.draftRequests, drafting]
  rfl

end Plan

end Run

end Scriptorium
