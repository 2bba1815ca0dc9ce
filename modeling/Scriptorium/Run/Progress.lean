import Scriptorium.Run.Phase
import Scriptorium.Archive.Artifact

/-!
# Progress of a run

Where a run stopped, what it had done by then and where its artifacts are.
-/

namespace Scriptorium.Run

/-- How far a run has come. -/
structure Progress where
  run : Archive.RunId
  phase : Phase
  steps : Nat
  counts : Counts
  current : Option String
  populated : Nat
  extent : Architecture.Extent
  root : String
  deriving Repr, DecidableEq, Inhabited

namespace Progress

/-- The line about the component in progress, if there is one. -/
def currentLine : Option String → String
  | none => ""
  | some name => "  in progress: " ++ name ++ "\n"

/-- The progress for a reader. -/
def text (p : Progress) : String :=
  "run " ++ p.run.text ++ " stopped in " ++ p.phase.name ++ " after " ++ toString p.steps
    ++ " steps\n  components: " ++ toString p.counts.processed ++ " processed of "
    ++ toString p.counts.total ++ " (" ++ toString p.counts.accepted ++ " accepted, "
    ++ toString p.counts.rejected ++ " rejected, " ++ toString p.counts.remaining
    ++ " remaining)\n" ++ currentLine p.current ++ "  sections with content: "
    ++ toString p.populated ++ "\n  architecture: " ++ toString p.extent.components
    ++ " components, " ++ toString p.extent.relationships
    ++ " relationships\n  partial artifacts: " ++ p.root

def toJson (p : Progress) : Json :=
  .obj [("run_id", .str p.run.text), ("phase", .str p.phase.name), ("steps", .nat p.steps),
    ("counts", Archive.countsToJson p.counts),
    ("current_component", Json.orNull .str p.current),
    ("sections_populated", .nat p.populated), ("architecture", p.extent.toJson),
    ("artifact_root", .str p.root)]

end Progress

end Scriptorium.Run
