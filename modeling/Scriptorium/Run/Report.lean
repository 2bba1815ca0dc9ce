import Scriptorium.Archive.Artifact

/-!
# Reports

What a completed run tells: its counts, and where the document and the drawing are.
-/

namespace Scriptorium.Run

/-- The outcome of a completed run; `duration` is in nanoseconds. -/
structure Report where
  run : Archive.RunId
  started : Archive.Timestamp
  total : Nat
  accepted : Nat
  rejected : Nat
  classifierDecisions : Nat
  selectorFallbacks : Nat
  sectionsWritten : Nat
  sectionFailures : Nat
  extractionFailures : Nat
  checkpointsWritten : Nat
  checkpointFailures : Nat
  snapshotFailures : Nat
  steps : Nat
  duration : Nat
  extent : Architecture.Extent
  document : Option String
  drawing : Archive.DrawingPaths
  deriving Repr, DecidableEq, Inhabited

namespace Report

/-- Seconds and nanoseconds as a value. -/
def durationToJson (nanos : Nat) : Json :=
  .obj [("secs", .nat (nanos / 1000000000)), ("nanos", .nat (nanos % 1000000000))]

/-- What a report says about the run but not about its name and its time. -/
def body (r : Report) : List (String × Json) × List (String × Json) :=
  ([("total_components", .nat r.total), ("accepted", .nat r.accepted),
      ("rejected", .nat r.rejected), ("classifier_decisions", .nat r.classifierDecisions),
      ("selector_fallbacks", .nat r.selectorFallbacks),
      ("sections_written", .nat r.sectionsWritten), ("section_failures", .nat r.sectionFailures),
      ("extraction_failures", .nat r.extractionFailures),
      ("checkpoints_written", .nat r.checkpointsWritten),
      ("checkpoint_failures", .nat r.checkpointFailures),
      ("snapshot_failures", .nat r.snapshotFailures), ("steps", .nat r.steps)],
    [("architecture", r.extent.toJson), ("document_path", Json.orNull .str r.document),
      ("diagram", r.drawing.toJson)])

def toJson (r : Report) : Json :=
  let (counts, places) := r.body
  .obj ([("run_id", .str r.run.text), ("started_at", .str r.started.text)] ++ counts
    ++ [("duration", durationToJson r.duration)] ++ places)

end Report

end Scriptorium.Run
