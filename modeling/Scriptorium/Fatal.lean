import Scriptorium.Settings.Basic
import Scriptorium.CallGraph
import Scriptorium.Document
import Scriptorium.Run.Phase

/-!
# Fatal errors

What ends a run.  Failures of the assistant are not among these: they are mended where they occur.
-/

namespace Scriptorium

/-- Why there is no run, or why one stopped. -/
inductive Fatal where
  | catalog (e : Catalog.Error)
  | graph (e : CallGraph.Error)
  | settings (e : Settings.Error)
  | refused (r : Run.Refusal)
  | unknownSection (id : String)
  | document (e : Document.MissingSection)
  | archive (f : Archive.Fault)
  | noComponent (phase : Run.Phase)

namespace Fatal

/-- What an error in one of the inputs is about. -/
inductive Input where
  | catalog | graph | config
  deriving Repr, DecidableEq

namespace Input

def name : Input → String
  | catalog => "catalog"
  | graph => "graph"
  | config => "config"

def ofName? (s : String) : Option Input := [catalog, graph, config].find? (·.name = s)

def describe (i : Input) (text : String) : String :=
  (match i with
    | catalog => "Catalog error: "
    | graph => "Graph error: "
    | config => "Configuration error: ") ++ text

end Input

def message : Fatal → String
  | catalog e => Input.catalog.describe e.message
  | graph e => Input.graph.describe e.message
  | settings .notYaml => Settings.Error.notYaml.message
  | settings e => Input.config.describe e.message
  | refused r => r.message
  | unknownSection id => "Unknown section: " ++ id
  | document e => "Document serialization failed: " ++ e.message
  | archive f => "Storage error: " ++ f.message
  | noComponent phase => "no current component in phase " ++ phase.name

/-- Whatever is listed here ends a run. -/
def severity (_ : Fatal) : Assistant.Severity := .fatal

/-- The phase of a name, which must be one. -/
def phaseNamed (s : String) : Except Fatal Run.Phase :=
  match Run.Phase.ofName? s with
  | some p => .ok p
  | none => .error (.settings (.invalidName "phase" s))

/-- The severity of a name, which must be one. -/
def severityNamed (s : String) : Except Fatal Assistant.Severity :=
  match Assistant.Severity.ofName? s with
  | some v => .ok v
  | none => .error (.settings (.invalidName "error category" s))

end Fatal

end Scriptorium
