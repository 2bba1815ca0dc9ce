import Scriptorium.Worklist
import Scriptorium.Drafting
import Scriptorium.Survey
import Scriptorium.Settings.Prompts
import Scriptorium.Fatal

/-!
# Fanning out

An accepted component is drafted into all its sections and surveyed at once.  All requests are made
from the state before the first of them, and the state changes only after the last call has
settled, section by section and then the model; so the order in which the calls settle does not
matter.
-/

namespace Scriptorium.Run

/-- One component with the texts that its sections have now, and what the survey is told. -/
structure Fanout where
  component : Component
  sections : List (String × String)
  context : Survey.Context
  deriving Repr, DecidableEq, Inhabited

namespace Fanout

/-- The texts of sections; one that the manuscript does not have is fatal. -/
def textsOf (m : Manuscript) (targets : List String) : Except Fatal (List (String × String)) :=
  targets.mapM fun t =>
    match m.get? t with
    | some text => .ok (t, text)
    | none => .error (.unknownSection t)

/-- The fan-out of a component from the state before it. -/
def start (w : Worklist) (graph : Option CallGraph) (c : Component) : Except Fatal Fanout := do
  let sections ← textsOf w.manuscript w.targets
  let neighbors := (graph.map fun g => g.neighbors c.name).getD {}
  return ⟨c, sections, .ofModel w.model neighbors⟩

/-- The requests for new texts, in the order of the sections. -/
def draftRequests (f : Fanout) (p : Prompts) : List Assistant.Request :=
  f.sections.map fun (target, existing) =>
    Drafting.request (p.writer target) target existing f.component

def surveyRequest (f : Fanout) (p : Prompts) : Assistant.Request :=
  Survey.request p.extractor f.context f.component

/-- The new texts, in the order of the sections, from the outcomes in that order. -/
def drafts (f : Fanout) (outcomes : List Assistant.Outcome) : List Drafting.Draft :=
  (f.sections.zip outcomes).map fun ((target, existing), o) =>
    Drafting.ofOutcome target existing f.component o

/-- The manuscript with new texts. -/
def replaceAll (m : Manuscript) : List Drafting.Draft → Except Fatal Manuscript
  | [] => .ok m
  | d :: r =>
    match m.replace? d.target d.text with
    | some m => replaceAll m r
    | none => .error (.unknownSection d.target)

/-- The model with what the survey found; a survey that failed changes nothing. -/
def mergeSurvey (f : Fanout) (m : Architecture.Model) (o : Assistant.Outcome) :
    Architecture.Model × Bool :=
  match Survey.ofReply f.component o.settled with
  | .ok e => ((m.merge e).1, true)
  | .error _ => (m, false)

end Fanout

end Scriptorium.Run
