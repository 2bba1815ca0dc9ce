import Scriptorium.Run.Clock
import Scriptorium.Run.Fanout
import Scriptorium.Run.Progress
import Scriptorium.Run.Report
import Scriptorium.Run.Tally
import Scriptorium.Placement
import Scriptorium.Architecture.Diagram

/-!
# Runs

A run takes the components of a catalog one by one: it judges each, picks the sections of the
accepted ones, drafts and surveys them, and in the end compiles the document and draws the model.
After every move it keeps a checkpoint; a checkpoint or a snapshot that cannot be kept is counted
and otherwise ignored.  `Session.act` is the work of a phase, which ends by asking for a move,
`Session.step` is that work with the move, `Session.drive` a bounded number of steps, and
`Session.run` a whole run.  Only the calls of a fan-out may break off and leave the run going: to
judge and to place a component the assistant is called in place, and a panic there, which would
unwind the run, is taken as a failure of the call.
-/

namespace Scriptorium.Run

open Archive

/-- What a run is given and does not change. -/
structure Plan where
  settings : Settings
  sieve : Triage.Sieve
  graph : Option CallGraph := none
  answers : Assistant.Answering

/-- The plan of settings that pass their check. -/
def Plan.ofSettings (s : Settings) (graph : Option CallGraph) (answers : Assistant.Answering) :
    Except Settings.Error Plan := do
  s.check
  match Triage.Sieve.ofRules s.triage with
  | .ok sieve => return ⟨s, sieve, graph, answers⟩
  | .error e => .error (.badPattern e.pattern)

/-- What the report counts of the assistant's work. -/
structure Totals where
  classifierDecisions : Nat := 0
  selectorFallbacks : Nat := 0
  sectionsWritten : Nat := 0
  sectionFailures : Nat := 0
  extractionFailures : Nat := 0
  deriving Repr, DecidableEq, Inhabited

/-- The artifacts that a run gave to its store, in order, and how many of them were kept and could
not be kept. -/
structure Trail where
  checkpoints : List Checkpoint := []
  snapshots : List Snapshot := []
  checkpointsWritten : Nat := 0
  checkpointFailures : Nat := 0
  snapshotsWritten : Nat := 0
  snapshotFailures : Nat := 0
  deriving Repr, DecidableEq, Inhabited

namespace Trail

def withCheckpoint (t : Trail) (c : Checkpoint) (kept : Bool) : Trail :=
  { t with
    checkpoints := t.checkpoints ++ [c]
    checkpointsWritten := t.checkpointsWritten + kept.toNat
    checkpointFailures := t.checkpointFailures + (!kept).toNat }

def withSnapshot (t : Trail) (n : Snapshot) (kept : Bool) : Trail :=
  { t with
    snapshots := t.snapshots ++ [n]
    snapshotsWritten := t.snapshotsWritten + kept.toNat
    snapshotFailures := t.snapshotFailures + (!kept).toNat }

end Trail

/-- A move that a run asks for: where to, and what the checkpoint there tells of it. -/
structure Move where
  target : Phase
  operation : String
  outcome : Option Triage.Outcome := none
  deriving Repr, DecidableEq

/-- A run at one moment: where it stands, what it knows, its store and its counts.  `readings` are
the readings of its clock and `requests` the requests made so far. -/
structure Session (σ : Type) where
  id : RunId
  clock : Clock
  readings : Nat
  machine : Machine
  work : Worklist
  store : σ
  tally : Tally := {}
  totals : Totals := {}
  trail : Trail := {}
  requests : List Assistant.Request := []
  document : Option String := none
  drawing : Option DrawingPaths := none

namespace Session

variable {σ : Type} [Store σ]

/-- What the clock shows at the next reading. -/
def now (s : Session σ) : Timestamp := s.clock.moment s.readings

/-- The session after a reading of the clock. -/
def tick (s : Session σ) : Session σ := { s with readings := s.readings + 1 }

def count (s : Session σ) (e : Event) : Session σ := { s with tally := s.tally.record e }

def waited (s : Session σ) (t : Assistant.Task) : Session σ :=
  { s with tally := s.tally.observe t }

def noted (s : Session σ) (r : Assistant.Request) : Session σ :=
  { s with requests := s.requests ++ [r] }

def progress (s : Session σ) : Progress where
  run := s.id
  phase := s.machine.phase
  steps := s.machine.steps
  counts := s.work.counts
  current := s.work.currentName
  populated := s.work.manuscript.populated
  extent := s.work.model.extent
  root := Store.root s.store

/-! ## The trail -/

def verdictName : Verdict → String
  | .accept => "accept"
  | .reject => "reject"

/-- The checkpoint of this moment, after a move. -/
def checkpoint (s : Session σ) (m : Move) : Checkpoint where
  run := s.id
  time := s.now
  operation := m.operation
  phase := s.machine.phase.name
  component := s.work.currentName
  decision := m.outcome.map fun o => verdictName o.verdict
  reason := m.outcome.map fun o => o.reason.message
  counts := s.work.counts
  selected := s.work.targets
  lengths := s.work.manuscript.lengths
  extent := s.work.model.extent

/-- Keeps a checkpoint, or counts that it could not be kept. -/
def keepCheckpoint (s : Session σ) (m : Move) : Session σ :=
  let c := s.checkpoint m
  let (answer, store) := Store.saveCheckpoint s.store c
  { s.tick with
    store := store
    tally := if answer.isOk then s.tally else s.tally.record .checkpointFailed
    trail := s.trail.withCheckpoint c answer.isOk }

/-- Keeps the text of a section, or counts that it could not be kept. -/
def keepSnapshot (component : String) (s : Session σ) (target : String) : Session σ :=
  let n : Snapshot := ⟨component, target, (s.work.manuscript.get? target).getD "", s.now⟩
  let (answer, store) := Store.saveSnapshot s.store n
  { s.tick with store := store, trail := s.trail.withSnapshot n answer.isOk }

/-! ## The work of a phase -/

/-- What work comes to: a result or a fatal error, and in either case the run after it. -/
abbrev Result (σ : Type) (α : Type := Unit) := Except Fatal α × Session σ

/-- Does something with the current component, which there must be. -/
def withCurrent (s : Session σ) (act : Component → Result σ Move) : Result σ Move :=
  match s.work.current with
  | some c => act c
  | none => (.error (.noComponent s.machine.phase), s)

/-- Takes the next component, or goes on to compiling when there is none. -/
def load (s : Session σ) : Result σ Move :=
  let s := { s with work := s.work.next }
  match s.work.current with
  | some _ => (.ok ⟨.filtering, "load", none⟩, s)
  | none => (.ok ⟨.compiling, "queue_empty", none⟩, s)

/-- The verdict on a component, by the local rules or by the assistant. -/
def judge (p : Plan) (s : Session σ) (c : Component) : Triage.Outcome × Session σ :=
  match p.sieve.judge? c with
  | some o => (o, s)
  | none =>
    let r := Triage.request p.settings.prompts.filter c
    let answer := p.answers s.requests.length r
    let s := (s.noted r).waited .filter
    (Triage.ofReply answer.settled,
      { s with totals :=
        { s.totals with classifierDecisions := s.totals.classifierDecisions + 1 } })

/-- Where a judged component goes. -/
def phaseAfter : Verdict → Phase
  | .accept => .selecting
  | .reject => .rejected

/-- Judges the current component. -/
def filter (p : Plan) (s : Session σ) : Result σ Move :=
  s.withCurrent fun c =>
    let (o, s) := judge p s c
    let s := s.count (.judged o.verdict o.reason.asked)
    (.ok ⟨phaseAfter o.verdict, "filter", some o⟩, { s with work := s.work.judge o.verdict })

/-- Counts a placement that took the fallback. -/
def countPlacement (s : Session σ) (o : Placement.Outcome) : Session σ :=
  if o.usedFallback then
    { s.count .selectorFallback with totals :=
      { s.totals with selectorFallbacks := s.totals.selectorFallbacks + 1 } }
  else s

/-- Picks the sections of the current component. -/
def select (p : Plan) (s : Session σ) : Result σ Move :=
  s.withCurrent fun c =>
    let r := Placement.request p.settings.prompts.selector p.settings.taxonomy c
    let answer := p.answers s.requests.length r
    let o := Placement.ofReply p.settings.taxonomy p.settings.fallback answer.settled
    let s := ((s.noted r).waited .selector).countPlacement o
    (.ok ⟨.processing, "select", none⟩, { s with work := s.work.place o.sections })

def countDraft (s : Session σ) (d : Drafting.Draft) : Session σ :=
  match d.error with
  | some _ =>
    { s.count .sectionFailed with totals :=
      { s.totals with sectionFailures := s.totals.sectionFailures + 1 } }
  | none =>
    { s.count .sectionWritten with totals :=
      { s.totals with sectionsWritten := s.totals.sectionsWritten + 1 } }

/-- Counts the wait for a call, unless it broke off. -/
def waitedFor (t : Assistant.Task) (s : Session σ) (o : Assistant.Outcome) : Session σ :=
  if o.brokeOff then s else s.waited t

def countSurvey (s : Session σ) (merged : Bool) : Session σ :=
  if merged then s.count .extractionMerged
  else
    { s.count .extractionFailed with totals :=
      { s.totals with extractionFailures := s.totals.extractionFailures + 1 } }

def mergeSurvey (f : Fanout) (s : Session σ) (o : Assistant.Outcome) : Session σ :=
  let s := waitedFor .extractor s o
  let (model, merged) := f.mergeSurvey s.work.model o
  { s with work := { s.work with model := model } }.countSurvey merged

/-- Merges all drafts and the survey, then keeps the texts of the sections. -/
def merge (f : Fanout) (s : Session σ) (outcomes : List Assistant.Outcome)
    (survey : Assistant.Outcome) : Result σ :=
  let drafts := f.drafts outcomes
  let s := outcomes.foldl (waitedFor .writer) s
  let s := drafts.foldl countDraft s
  match Fanout.replaceAll s.work.manuscript drafts with
  | .error e => (.error e, s)
  | .ok m =>
    let s := mergeSurvey f { s with work := { s.work with manuscript := m } } survey
    (.ok (), (f.sections.map (·.1)).foldl (keepSnapshot f.component.name) s)

/-- Drafts and surveys the current component. -/
def process (p : Plan) (s : Session σ) : Result σ Move :=
  s.withCurrent fun c =>
    match Fanout.start s.work p.graph c with
    | .error e => (.error e, s)
    | .ok f =>
      let drafts := f.draftRequests p.settings.prompts
      let survey := f.surveyRequest p.settings.prompts
      let base := s.requests.length
      let outcomes := (drafts.zipIdx base).map fun (r, n) => p.answers n r
      let s := (drafts ++ [survey]).foldl noted s
      match merge f s outcomes (p.answers (base + drafts.length) survey) with
      | (.error e, s) => (.error e, s)
      | (.ok (), s) => (.ok ⟨.loading, "process", none⟩, s)

/-- Compiles the document; an empty one is not kept. -/
def compile (p : Plan) (s : Session σ) : Result σ Move :=
  match Document.compile p.settings.taxonomy p.settings.output.title s.work.manuscript with
  | .error e => (.error (.document e), s)
  | .ok text =>
    if text = "" then (.ok ⟨.finalizing, "compile", none⟩, s)
    else match Store.saveDocument s.store p.settings.output.documentName text with
      | (.error f, store) => (.error (.archive f), { s with store := store })
      | (.ok path, store) =>
        (.ok ⟨.finalizing, "compile", none⟩, { s with store := store, document := some path })

/-- The drawing of the model at this moment. -/
def drawn (s : Session σ) : Drawing :=
  let d := Architecture.Diagram.ofModel s.work.model
  .make d.source d.summary d.fragments s.now

/-- Draws the model. -/
def finalize (s : Session σ) : Result σ Move :=
  match Store.saveDrawing s.store s.drawn with
  | (.error f, store) => (.error (.archive f), { s with store := store })
  | (.ok paths, store) =>
    (.ok ⟨.done, "finalize", none⟩, { s.tick with store := store, drawing := some paths })

/-- The work of a phase, and the move that the run then asks for.  A run that is done has no work
left. -/
def act (p : Plan) (s : Session σ) : Result σ Move :=
  match s.machine.phase with
  | .loading => s.load
  | .filtering => s.filter p
  | .rejected => (.ok ⟨.loading, "reject", none⟩, s)
  | .selecting => s.select p
  | .processing => s.process p
  | .compiling => s.compile p
  | .finalizing => s.finalize
  | .done => (.error (.refused (.notAllowed .done .compiling)), s)

/-! ## Runs -/

/-- Moves and keeps a checkpoint; a refused move is fatal. -/
def advance (s : Session σ) (m : Move) : Result σ :=
  match s.machine.advance m.target with
  | .error r => (.error (.refused r), s)
  | .ok machine => (.ok (), { s with machine := machine }.keepCheckpoint m)

/-- The work of a phase and the move after it. -/
def step (p : Plan) (s : Session σ) : Result σ :=
  match s.act p with
  | (.error e, s) => (.error e, s)
  | (.ok m, s) => s.advance m

/-- At most `n` steps, until the run is done or an error ends it. -/
def drive (p : Plan) : Nat → Session σ → Result σ
  | 0, s => (.ok (), s)
  | n + 1, s =>
    if s.machine.phase.terminal then (.ok (), s)
    else match s.step p with
      | (.error e, s) => (.error e, s)
      | (.ok (), s) => drive p n s

/-- A run that has not begun; the first reading of its clock is the time of its start. -/
def start (p : Plan) (k : Catalog) (id : RunId) (clock : Clock) (store : σ) (tally : Tally) :
    Session σ where
  id := id
  clock := clock
  readings := 1
  machine := { cap := p.settings.stepCap k.size }
  work := .start k p.settings.taxonomy
  store := store
  tally := tally

/-- The report of a completed run. -/
def report (s : Session σ) : Report where
  run := s.id
  started := s.clock.moment 0
  total := s.work.counts.total
  accepted := s.work.accepted
  rejected := s.work.rejected
  classifierDecisions := s.totals.classifierDecisions
  selectorFallbacks := s.totals.selectorFallbacks
  sectionsWritten := s.totals.sectionsWritten
  sectionFailures := s.totals.sectionFailures
  extractionFailures := s.totals.extractionFailures
  checkpointsWritten := s.trail.checkpointsWritten
  checkpointFailures := s.trail.checkpointFailures
  snapshotFailures := s.trail.snapshotFailures
  steps := s.machine.steps
  duration := s.clock.elapsed s.readings
  extent := s.work.model.extent
  document := s.document
  drawing := s.drawing.getD default

/-- The most moves that a run over `n` components can make. -/
def moves (n : Nat) : Nat := n * Settings.movesPerComponent + Settings.closingMoves

/-- A whole run: every component takes at most four moves, and the end takes three. -/
def run (p : Plan) (k : Catalog) (id : RunId) (clock : Clock) (store : σ) (tally : Tally) :
    Result σ :=
  (start p k id clock store tally).drive p (moves k.size)

end Session

/-- The largest number of calls that were under way at one time: the calls of a fan-out are made at
once, all others one by one. -/
def peakLoad : Nat → List Assistant.Request → Nat
  | _, [] => 0
  | n, r :: rest =>
    match r.task with
    | .writer => max (n + 1) (peakLoad (n + 1) rest)
    | .extractor => max (n + 1) (peakLoad 0 rest)
    | _ => max 1 (peakLoad 0 rest)

end Scriptorium.Run
