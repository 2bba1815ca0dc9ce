import Scriptorium.Triage
import Scriptorium.Taxonomy
import Scriptorium.Settings.Prompts
import Scriptorium.Archive.Disk
import Scriptorium.Assistant.Endpoint

/-!
# Settings

Everything about a run that can be chosen.  A preset fixes the thresholds of the triage; the rest
has defaults.  `Settings.check` tells the first fault of settings, `Settings.stepCap` the most
moves that a run may make.
-/

namespace Scriptorium

/-- How strict the triage is. -/
inductive Preset where
  | lenient | balanced | strict
  deriving Repr, DecidableEq

namespace Preset

instance : Inhabited Preset := ⟨balanced⟩

def name : Preset → String
  | lenient => "lenient"
  | balanced => "balanced"
  | strict => "strict"

/-- The preset of a name, in letters of any case. -/
def ofName? (s : String) : Option Preset :=
  [lenient, balanced, strict].find? (·.name = Text.lowercase s)

/-- Patterns of names that need no documentation. -/
def namePatterns : List String :=
  ["(^|\\.)__\\w+__$", "(^|[./])__init__(\\.py)?$", "(^|\\.)[A-Z][A-Z0-9_]+$", "(?i)imports$"]

/-- Phrases that betray a trivial documentation. -/
def phrases : List String :=
  ["no documentation", "not documented", "placeholder", "auto-generated", "this file is generated",
    "do not edit", "empty module", "intentionally left blank"]

/-- Words that promise substance. -/
def keywords : List String :=
  ["class", "function", "method", "algorithm", "endpoint", "validate", "calculate", "process",
    "handle", "request", "service", "database", "query", "transform", "parse", "api"]

/-- Triage rules with the common lists. -/
def rulesWith (minWords minLines keywordThreshold : Nat) : Triage.Rules where
  namePatterns := namePatterns
  minWords := minWords
  minLines := minLines
  phrases := phrases
  keywords := keywords
  keywordThreshold := keywordThreshold

def rules : Preset → Triage.Rules
  | lenient => rulesWith 10 2 1
  | balanced => rulesWith 15 3 2
  | strict => rulesWith 25 5 3

end Preset

/-- Where artifacts go, and what the document is called. -/
structure Output where
  root : String := "output"
  layout : Archive.Layout := {}
  documentName : String := "technical_documentation.md"
  title : Option String := some "Technical Documentation"
  deriving Repr, DecidableEq

instance : Inhabited Output := ⟨{}⟩

/-- The settings of a run. -/
structure Settings where
  preset : Preset := .balanced
  triage : Triage.Rules := preset.rules
  fallback : List String := ["Architecture Overview", "Module Documentation"]
  taxonomy : Taxonomy := .standard
  prompts : Prompts := {}
  output : Output := {}
  maxSteps : Option Nat := none
  endpoint : Assistant.Endpoint := {}
  deriving Repr, DecidableEq

namespace Settings

instance : Inhabited Settings := ⟨{}⟩

def ofPreset (p : Preset) : Settings := { preset := p }

/-- Why settings cannot be used. -/
inductive Error where
  | unreadable (path reason : String)
  | notYaml
  | missingVersion
  | unsupportedVersion (found : Nat)
  | unknownPreset (name : String)
  | noSteps
  | badTaxonomy (e : Taxonomy.Error)
  | badPattern (pattern : String)
  | noThreshold
  | fallbackOutside (target : String)
  | promptOutside (target : String)
  | noDocumentName
  | invalidName (what name : String)
  deriving Repr, DecidableEq

/-- The version of the settings format. -/
def version : Nat := 1

def Error.message : Error → String
  | unreadable path reason => "Cannot read " ++ path ++ ": " ++ reason
  | notYaml => "YAML error"
  | missingVersion =>
    "Missing 'version' field in configuration file. Add 'version: 1' to the top of your YAML file."
  | unsupportedVersion found =>
    "Unsupported configuration version " ++ toString found ++ ". Supported versions: "
      ++ toString version
  | unknownPreset name =>
    "Unknown preset '" ++ name ++ "'. Valid presets: lenient, balanced, strict"
  | noSteps => "max_steps must be greater than 0"
  | badTaxonomy e => e.message
  | badPattern pattern => "Invalid name pattern '" ++ pattern ++ "'"
  | noThreshold => "filter.keyword_threshold must be at least 1"
  | fallbackOutside target => "Fallback section '" ++ target ++ "' is not in the taxonomy"
  | promptOutside target => "Prompt template for unknown section '" ++ target ++ "'"
  | noDocumentName => "output.document_name is empty"
  | invalidName what name => "Invalid " ++ what ++ ": " ++ name

/-- Reads the name of a preset. -/
def presetNamed (name : String) : Except Error Preset :=
  match Preset.ofName? name with
  | some p => .ok p
  | none => .error (.unknownPreset name)

/-- Checks the triage rules: patterns first, then the threshold. -/
def checkTriage (r : Triage.Rules) : Except Error Unit :=
  match Triage.readPatterns r.namePatterns with
  | .error e => .error (.badPattern e.pattern)
  | .ok _ => if r.keywordThreshold = 0 then .error .noThreshold else .ok ()

def checkTaxonomy (t : Taxonomy) : Except Error Unit :=
  match t.check with
  | .error e => .error (.badTaxonomy e)
  | .ok () => .ok ()

/-- Checks that every name is a section; `error` tells of the first that is none. -/
def checkSections (t : Taxonomy) (error : String → Error) (names : List String) :
    Except Error Unit :=
  match names.find? (!t.contains ·) with
  | some s => .error (error s)
  | none => .ok ()

/-- Accepts settings, or tells their first fault. -/
def check (s : Settings) : Except Error Unit := do
  if s.maxSteps = some 0 then .error .noSteps
  checkTaxonomy s.taxonomy
  checkTriage s.triage
  checkSections s.taxonomy .fallbackOutside s.fallback
  checkSections s.taxonomy .promptOutside (s.prompts.writers.map (·.1))
  if Text.blank s.output.documentName then .error .noDocumentName

/-- The largest count. -/
def maxCount : Nat := Nat.pow 2 64 - 1

/-- The most moves that one component takes. -/
def movesPerComponent : Nat := 4

/-- The moves that end a run: to compiling, to finalizing and to the end. -/
def closingMoves : Nat := 3

/-- Room beyond the moves that a run can need. -/
def spareMoves : Nat := 64

/-- The most moves of a run over `n` components: as set, else more than it can need. -/
def stepCap (s : Settings) (n : Nat) : Nat :=
  s.maxSteps.getD (min maxCount (n * movesPerComponent + (closingMoves + spareMoves)))

end Settings

end Scriptorium
