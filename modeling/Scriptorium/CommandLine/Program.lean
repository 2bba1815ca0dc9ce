import Scriptorium.CommandLine.Invocation
import Scriptorium.Run.Session
import Scriptorium.Source

/-!
# The program

What an invocation does, as a function of the files it finds: what it prints, its exit code and the
files it leaves.
-/

namespace Scriptorium.CommandLine

open Archive

/-- What an invocation finds. -/
structure World where
  read : String → Content
  tree : FileTree
  time : Timestamp
  run : RunId

/-- What an invocation leaves. -/
structure Ending where
  exit : Nat
  out : String := ""
  err : String := ""
  tree : FileTree

/-- An error with what was being done. -/
structure Failure where
  error : Fatal
  doing : Option String := none

namespace Failure

/-- What an error says, with the reader that it comes from. -/
def detail : Fatal → List String
  | .settings .notYaml =>
    [Settings.Error.notYaml.message, "the text is no record of settings"]
  | .settings (.badPattern p) =>
    [(Fatal.settings (.badPattern p)).message ++ ": regex parse error"]
  | e => [e.message]

/-- Lines after the first moved to the right. -/
def continued (margin : String) (s : String) : String :=
  ("\n" ++ margin).intercalate ((Text.splitAtChar '\n' s.toList).map String.ofList)

def causes : List String → String
  | [] => ""
  | [c] => "\n\nCaused by:\n    " ++ continued "    " c
  | cs => "\n\nCaused by:" ++ String.join (cs.zipIdx.map fun (c, i) =>
      "\n    " ++ toString i ++ ": " ++ continued "       " c)

def text (f : Failure) : String :=
  match f.doing with
  | none => "Error: " ++ f.error.message ++ causes ((detail f.error).drop 1)
  | some s => "Error: " ++ s ++ causes (detail f.error)

end Failure

/-- Adds what was being done to an error. -/
def while_ {ε α : Type} (doing : String) (wrap : ε → Fatal) : Except ε α → Except Failure α
  | .ok a => .ok a
  | .error e => .error ⟨wrap e, some doing⟩

/-- Takes an error as it is. -/
def plainly {ε α : Type} (wrap : ε → Fatal) : Except ε α → Except Failure α
  | .ok a => .ok a
  | .error e => .error ⟨wrap e, none⟩

/-- The settings of an invocation: those of the file, else those of the preset. -/
def settingsOf (w : World) (i : Invocation) : Except Failure Settings :=
  match i.config, i.preset with
  | some path, _ =>
    while_ ("loading configuration " ++ path) .settings (Settings.load path (w.read path))
  | none, some name => (plainly .settings (Settings.presetNamed name)).map .ofPreset
  | none, none => .ok {}

def catalogOf (w : World) (path : String) : Except Failure Catalog :=
  while_ ("loading catalog " ++ path) .catalog (Catalog.load path (w.read path))

/-- The call graph of an invocation, if it names one. -/
def graphOf (w : World) : Option String → Except Failure (Option CallGraph)
  | none => .ok none
  | some path =>
    (while_ ("loading call graph " ++ path) .graph (CallGraph.load path (w.read path))).map some

/-- Text filled with spaces to a width. -/
def padRight (width : Nat) (s : String) : String :=
  s ++ String.ofList (List.replicate (width - s.length) ' ')

def verdictLine (sieve : Triage.Sieve) (c : Component) : String :=
  match sieve.judge? c with
  | some o =>
    padRight 8 (Run.Session.verdictName o.verdict) ++ " " ++ c.name ++ "  (" ++ o.reason.message
      ++ ")\n"
  | none => padRight 8 "?" ++ " " ++ c.name ++ "  (classifier)\n"

/-- Prints the local verdicts on a catalog. -/
def inspect (w : World) (s : Settings) (path : String) : Except Failure Ending := do
  let catalog ← catalogOf w path
  let sieve ← plainly (fun e => .settings (.badPattern e.pattern)) (Triage.Sieve.ofRules s.triage)
  return { exit := 0, out := String.join (catalog.components.map (verdictLine sieve)), tree := w.tree }

/-- An endpoint that cannot be reached: every attempt ends without a connection. -/
def unreachable (e : Assistant.Endpoint) : Assistant.Answering := fun _ _ =>
  match (e.invoke e.noConnection).2 with
  | .ok text => .reply text
  | .error f => .failure f

/-- Settings with what the command line says. -/
def adjusted (s : Settings) (output : Option String) (maxSteps : Option Nat) : Settings :=
  { s with
    output := { s.output with root := output.getD s.output.root }
    maxSteps := maxSteps.orElse fun _ => s.maxSteps }

/-- Runs over a catalog and prints the report, or the error with the progress so far. -/
def runCatalog (w : World) (s : Settings) (path : String) (graph : Option String) :
    Except Failure Ending := do
  let catalog ← catalogOf w path
  let plan ← plainly .settings (Run.Plan.ofSettings s none (unreachable s.endpoint))
  let graph ← graphOf w graph
  let disk : Disk := { rootPath := s.output.root, layout := s.output.layout, tree := w.tree }
  match Run.Session.run { plan with graph := graph } catalog w.run w.time disk {} with
  | (.ok (), session) =>
    return { exit := 0, out := session.report.toJson.pretty ++ "\n", tree := session.store.tree }
  | (.error e, session) =>
    return {
      exit := 1
      err := "error: " ++ e.message ++ "\n" ++ session.progress.text
      tree := session.store.tree }

/-- Carries out an invocation. -/
def perform (w : World) (i : Invocation) : Except Failure Ending := do
  let s ← settingsOf w i
  match i.command with
  | .config => return { exit := 0, out := s.toYaml, tree := w.tree }
  | .inspect catalog => inspect w s catalog
  | .run catalog graph output maxSteps => runCatalog w (adjusted s output maxSteps) catalog graph

/-- Where an invocation leaves files, if it leaves any. -/
def outputRoot? (w : World) (i : Invocation) : Option String :=
  match i.command with
  | .run _ _ output maxSteps =>
    match settingsOf w i with
    | .ok s => some (adjusted s output maxSteps).output.root
    | .error _ => none
  | _ => none

def usageText : String :=
  "Usage: codedoc [OPTIONS] <COMMAND>

Commands:
  run      Run the full pipeline over a component catalog
  config   Print the effective configuration as YAML
  inspect  Show the local filter verdict for every catalog entry

Options:
  -c, --config <FILE>    Configuration file
  -p, --preset <PRESET>  Preset used when no configuration file is given
  -v, --verbose          Enable debug logging
"

def versionText : String := "codedoc 0.1.0\n"

def Stop.ending (tree : FileTree) : Stop → Ending
  | .help => { exit := 0, out := usageText, tree := tree }
  | .version => { exit := 0, out := versionText, tree := tree }
  | .usage => { exit := 2, err := usageText, tree := tree }

/-- What a command line does. -/
def execute (w : World) (args : List String) : Ending :=
  match Invocation.ofArguments args with
  | .error stop => stop.ending w.tree
  | .ok i =>
    match perform w i with
    | .ok e => e
    | .error f => { exit := 1, err := f.text, tree := w.tree }

end Scriptorium.CommandLine
