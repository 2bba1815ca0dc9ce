import Scriptorium.Assistant.Reply
import Scriptorium.Json.Printer

/-!
# Rehearsals

A rehearsal stands in for an assistant: it answers each task in one fixed way that keeps a run
going, or as a script says.  The first rule of a task whose conditions all hold decides.
-/

namespace Scriptorium.Assistant

/-- The standard answer to a request. -/
def standardAnswer (r : Request) : String :=
  match r.task with
  | .filter => "DOCUMENT"
  | .selector =>
    "\x7b\"relevant_sections\": [\"Module Documentation\", \"Class Documentation\"]\x7d"
  | .writer =>
    let paragraph := r.value "name" ++ " (" ++ r.value "section" ++ "): "
      ++ Text.trim (r.value "documentation")
    let existing := Text.trim (r.value "existing")
    if existing = "" then paragraph else existing ++ "\n\n" ++ paragraph
  | .extractor =>
    let name := r.value "name"
    Json.compact (.obj [
      ("component", .obj [("name", .str name), ("kind", .str "SERVICE"),
        ("layer", .str "BUSINESS"), ("responsibilities", .str ("Implements " ++ name)),
        ("is_significant", .bool true)]),
      ("relationships", .arr []), ("diagram_fragment", .null)])

inductive Answer where
  | text (s : String)
  | template (s : String)
  | failure (f : Failure)
  | panic (message : String)
  deriving Repr, DecidableEq, Inhabited

/-- A rule: variables that must have exact values, and the answer. -/
structure Rule where
  task : Task
  conditions : List (String × String)
  answer : Answer
  deriving Repr, DecidableEq, Inhabited

/-- Whether a rule applies to a request. -/
def Rule.applies (rule : Rule) (r : Request) : Bool :=
  rule.task == r.task && rule.conditions.all fun (k, v) => r.variables.lookup k == some v

def Answer.outcome (r : Request) : Answer → Outcome
  | .text s => .reply s
  | .template s => .reply (Text.render s r.variables)
  | .failure f => .failure f
  | .panic m => .panic m

/-- Answers by the first rule that applies, else in the standard way. -/
def rehearse (script : List Rule) (r : Request) : Outcome :=
  match script.find? (·.applies r) with
  | some rule => rule.answer.outcome r
  | none => .reply (standardAnswer r)

end Scriptorium.Assistant
