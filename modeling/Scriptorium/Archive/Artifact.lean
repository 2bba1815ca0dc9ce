import Scriptorium.Archive.Name
import Scriptorium.Archive.Timestamp
import Scriptorium.Archive.RunId
import Scriptorium.Worklist
import Scriptorium.Json.Reader
import Scriptorium.Json.Printer

/-!
# Artifacts

What a run leaves behind: a checkpoint after each change of phase, a snapshot of each section that
was written, and the drawing of the architecture.  Every artifact knows the name of its file.
-/

namespace Scriptorium.Archive

/-- The progress of a run at one moment. -/
structure Checkpoint where
  run : RunId
  time : Timestamp
  operation : String
  phase : String
  component : Option String := none
  decision : Option String := none
  reason : Option String := none
  counts : Counts := {}
  selected : List String := []
  lengths : List (String × Nat) := []
  extent : Architecture.Extent := {}
  deriving Repr, DecidableEq, Inhabited

/-- The text of a section after a component was merged into it. -/
structure Snapshot where
  component : String
  target : String
  content : String
  time : Timestamp
  deriving Repr, DecidableEq, Inhabited

/-- The drawing of an architecture with its prose and its fragments. -/
structure Drawing where
  source : String
  description : String
  fragments : Option String := none
  time : Timestamp
  deriving Repr, DecidableEq, Inhabited

structure DrawingPaths where
  source : String
  description : String
  fragments : Option String := none
  deriving Repr, DecidableEq, Inhabited

/-! ## File names -/

/-- The file name of a checkpoint: time, operation and component. -/
def Checkpoint.fileName (c : Checkpoint) : String :=
  c.time.slug ++ "_" ++ sanitize c.operation ++ "_" ++ sanitize (c.component.getD "pipeline")
    ++ ".json"

/-- The directory of a snapshot, named for its component. -/
def Snapshot.directory (s : Snapshot) : String := sanitize s.component

/-- The file name of a snapshot: section and time. -/
def Snapshot.fileName (s : Snapshot) : String :=
  sanitize s.target ++ "_" ++ s.time.slug ++ ".md"

def Snapshot.path (s : Snapshot) : String := s.directory ++ "/" ++ s.fileName

namespace Drawing

/-- A drawing without fragments that are blank. -/
def make (source description : String) (fragments : Option String) (time : Timestamp) :
    Drawing where
  source := source
  description := description
  fragments := fragments.filter (!Text.blank ·)
  time := time

def sourceName (d : Drawing) : String := "architecture_" ++ d.time.slug ++ ".mmd"

def descriptionName (d : Drawing) : String := "architecture_" ++ d.time.slug ++ ".md"

def fragmentsName (d : Drawing) : String := "fragments_" ++ d.time.slug ++ ".mmd"

end Drawing

/-! ## JSON -/

/-- A member for a value that may be missing. -/
def optionalMember (k : String) : Option String → List (String × Json)
  | none => []
  | some s => [(k, .str s)]

def countsToJson (c : Counts) : Json :=
  .obj [("total_components", .nat c.total), ("remaining", .nat c.remaining),
    ("processed", .nat c.processed), ("accepted", .nat c.accepted), ("rejected", .nat c.rejected)]

def counts? (v : Json) : Option Counts :=
  match Json.slots
      [["total_components"], ["remaining"], ["processed"], ["accepted"], ["rejected"]] v with
  | some [total, remaining, processed, accepted, rejected] => do
    some {
      total := ← total.required Json.asNat?
      remaining := ← remaining.required Json.asNat?
      processed := ← processed.required Json.asNat?
      accepted := ← accepted.required Json.asNat?
      rejected := ← rejected.required Json.asNat? }
  | _ => none

def extent? (v : Json) : Option Architecture.Extent :=
  match Json.slots [["components"], ["relationships"]] v with
  | some [components, relationships] => do
    some ⟨← components.required Json.asNat?, ← relationships.required Json.asNat?⟩
  | _ => none

def lengths? : Json → Option (List (String × Nat))
  | .obj ms =>
    (ms.mapM fun (m : String × Json) => (Json.asNat? m.2).map fun n => (m.1, n)).map Text.tableOf
  | _ => none

namespace Checkpoint

/-- A checkpoint as a value; what it has not is left out. -/
def toJson (c : Checkpoint) : Json :=
  .obj ([("run_id", .str c.run.text), ("timestamp", .str c.time.text),
      ("operation", .str c.operation), ("phase", .str c.phase)]
    ++ optionalMember "component" c.component ++ optionalMember "decision" c.decision
    ++ optionalMember "reason" c.reason
    ++ [("counts", countsToJson c.counts), ("selected_sections", .strings c.selected),
      ("section_lengths", .obj (c.lengths.map fun (k, n) => (k, .nat n))),
      ("architecture", c.extent.toJson)])

def ofJson? (v : Json) : Option Checkpoint :=
  match Json.slots
      [["run_id"], ["timestamp"], ["operation"], ["phase"], ["component"], ["decision"],
        ["reason"], ["counts"], ["selected_sections"], ["section_lengths"], ["architecture"]] v with
  | some [run, time, operation, phase, component, decision, reason, counts, selected, lengths,
      extent] => do
    some {
      run := ← run.required fun v => (Json.asString? v).bind RunId.ofText?
      time := ← time.required fun v => (Json.asString? v).bind Timestamp.ofRelaxedText?
      operation := ← operation.required Json.asString?
      phase := ← phase.required Json.asString?
      component := ← component.optional Json.asString?
      decision := ← decision.optional Json.asString?
      reason := ← reason.optional Json.asString?
      counts := ← counts.required counts?
      selected := ← selected.withDefault [] (Json.asList? Json.asString?)
      lengths := ← lengths.withDefault [] lengths?
      extent := ← extent.required extent? }
  | _ => none

def text (c : Checkpoint) : String := c.toJson.pretty

def ofText? (s : String) : Option Checkpoint := (Json.parse? s).bind ofJson?

/-- The checkpoint that a file holds. -/
def ofBytes? (b : ByteArray) : Option Checkpoint := (String.fromUTF8? b).bind ofText?

end Checkpoint

def Snapshot.toJson (s : Snapshot) : Json :=
  .obj [("component", .str s.component), ("section", .str s.target), ("content", .str s.content),
    ("timestamp", .str s.time.text)]

def Drawing.toJson (d : Drawing) : Json :=
  .obj ([("source", .str d.source), ("description", .str d.description)]
    ++ optionalMember "fragments" d.fragments ++ [("timestamp", .str d.time.text)])

def DrawingPaths.toJson (p : DrawingPaths) : Json :=
  .obj [("source", .str p.source), ("description", .str p.description),
    ("fragments", Json.orNull .str p.fragments)]

end Scriptorium.Archive
