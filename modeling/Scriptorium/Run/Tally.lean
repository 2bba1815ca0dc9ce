import Scriptorium.Worklist
import Scriptorium.Assistant.Request

/-!
# Tallies

A tally counts what happens in a run, and how often each kind of work waited for the assistant.
-/

namespace Scriptorium.Run

/-- Something worth counting. -/
inductive Event where
  | judged (verdict : Verdict) (asked : Bool)
  | selectorFallback
  | sectionWritten
  | sectionFailed
  | extractionMerged
  | extractionFailed
  | checkpointFailed
  deriving Repr, DecidableEq, Inhabited

def Event.name : Event → String
  | judged .accept _ => "component_accepted"
  | judged .reject _ => "component_rejected"
  | selectorFallback => "selector_fallback"
  | sectionWritten => "section_written"
  | sectionFailed => "section_failed"
  | extractionMerged => "extraction_merged"
  | extractionFailed => "extraction_failed"
  | checkpointFailed => "checkpoint_failed"

/-- Counts of events, and of waits, by task and all together. -/
structure Tally where
  accepted : Nat := 0
  rejected : Nat := 0
  classifierDecisions : Nat := 0
  selectorFallbacks : Nat := 0
  sectionsWritten : Nat := 0
  sectionFailures : Nat := 0
  extractionsMerged : Nat := 0
  extractionFailures : Nat := 0
  checkpointFailures : Nat := 0
  filterWaits : Nat := 0
  selectorWaits : Nat := 0
  writerWaits : Nat := 0
  extractorWaits : Nat := 0
  waits : Nat := 0
  deriving Repr, DecidableEq, Inhabited

namespace Tally

def record (t : Tally) : Event → Tally
  | .judged v asked =>
    let t := if asked then { t with classifierDecisions := t.classifierDecisions + 1 } else t
    match v with
    | .accept => { t with accepted := t.accepted + 1 }
    | .reject => { t with rejected := t.rejected + 1 }
  | .selectorFallback => { t with selectorFallbacks := t.selectorFallbacks + 1 }
  | .sectionWritten => { t with sectionsWritten := t.sectionsWritten + 1 }
  | .sectionFailed => { t with sectionFailures := t.sectionFailures + 1 }
  | .extractionMerged => { t with extractionsMerged := t.extractionsMerged + 1 }
  | .extractionFailed => { t with extractionFailures := t.extractionFailures + 1 }
  | .checkpointFailed => { t with checkpointFailures := t.checkpointFailures + 1 }

/-- How often one kind of work waited. -/
def waitsFor (t : Tally) : Assistant.Task → Nat
  | .filter => t.filterWaits
  | .selector => t.selectorWaits
  | .writer => t.writerWaits
  | .extractor => t.extractorWaits

def observe (t : Tally) (task : Assistant.Task) : Tally :=
  let t := { t with waits := t.waits + 1 }
  match task with
  | .filter => { t with filterWaits := t.filterWaits + 1 }
  | .selector => { t with selectorWaits := t.selectorWaits + 1 }
  | .writer => { t with writerWaits := t.writerWaits + 1 }
  | .extractor => { t with extractorWaits := t.extractorWaits + 1 }

end Tally

end Scriptorium.Run
