import Scriptorium.Settings.Basic
import Scriptorium.Yaml.Document
import Scriptorium.Yaml.Printer

/-!
# Settings as YAML

Settings are written as a version, a preset and overrides of everything that the preset does not
fix.  When they are read, what is missing keeps the value of the preset or its default; only the
outermost record, the overrides and the triage rules refuse fields that they do not know.
-/

namespace Scriptorium

open Yaml

/-- What a bound of 64 bits allows. -/
def Settings.wordBound : Nat := Nat.pow 2 64

/-- What a bound of 32 bits allows. -/
def Settings.halfWordBound : Nat := Nat.pow 2 32

/-! ## Writing -/

/-- A record from the names and the values of its fields. -/
def Yaml.Node.record (fields : List (String × Node)) : Node :=
  .mapping (fields.map fun (k, v) => (.ofText k, v))

/-- A number of 32 bits. -/
def Yaml.Node.ofSingle (x : Number.Binary Number.single) : Node :=
  .scalar { text :=
    if x.isNan then ".nan"
    else if x.isFinite then ({ low := -6, high := 13, plus := false } : Number.Notation).write x
    else if x.negative then "-.inf" else ".inf" }

def Triage.Rules.toNode (r : Triage.Rules) : Node := .record [
  ("trivial_name_patterns", .ofTexts r.namePatterns), ("min_words", .ofNat r.minWords),
  ("min_substantive_lines", .ofNat r.minLines), ("trivial_phrases", .ofTexts r.phrases),
  ("substantial_keywords", .ofTexts r.keywords), ("keyword_threshold", .ofNat r.keywordThreshold)]

def Taxonomy.toNode (t : Taxonomy) : Node :=
  .sequence (t.groups.map fun g =>
    .record [("name", .ofText g.name), ("sections", .ofTexts g.sections)])

def Prompts.toNode (p : Prompts) : Node := .record [
  ("filter", .ofText p.filter), ("selector", .ofText p.selector), ("extractor", .ofText p.extractor),
  ("default_writer", .ofText p.defaultWriter),
  ("sections", .record (p.writers.map fun (k, v) => (k, .ofText v)))]

def Archive.Layout.toNode (l : Archive.Layout) : Node := .record [
  ("checkpoints", .ofText l.checkpoints), ("sections", .ofText l.sections),
  ("diagrams", .ofText l.diagrams)]

/-- The place of the artifacts as a node. -/
def Output.toNode (o : Output) : Node := .record [
  ("root", .ofText o.root), ("layout", o.layout.toNode), ("document_name", .ofText o.documentName),
  ("title", .ofOption .ofText o.title)]

def Assistant.Endpoint.toNode (e : Assistant.Endpoint) : Node := .record [
  ("base_url", .ofText e.baseUrl), ("model", .ofText e.model),
  ("api_key_env", .ofText e.keyVariable), ("timeout_secs", .ofNat e.timeoutSeconds.toNat),
  ("max_retries", .ofNat e.maxRetries.toNat),
  ("retry_backoff_ms", .ofNat e.backoffMilliseconds.toNat),
  ("temperature", .ofSingle e.temperature), ("max_tokens", .ofOption (fun n => .ofNat n.toNat) e.maxTokens)]

namespace Settings

/-- Settings as a node; the largest number of moves is told only if it was set. -/
def toNode (s : Settings) : Node :=
  let limit := match s.maxSteps with
    | some n => [("max_steps", Node.ofNat n)]
    | none => []
  .record [("version", .ofNat version), ("preset", .ofText s.preset.name),
    ("overrides", .record ([("filter", s.triage.toNode),
      ("selector", .record [("fallback_sections", .ofTexts s.fallback)]),
      ("taxonomy", s.taxonomy.toNode), ("prompts", s.prompts.toNode), ("output", s.output.toNode)]
      ++ limit ++ [("llm", s.endpoint.toNode)]))]

def toYaml (s : Settings) : String := s.toNode.print

end Settings

/-! ## Reading -/

/-- Changes of triage rules. -/
structure Triage.Changes where
  namePatterns : Option (List String) := none
  minWords : Option Nat := none
  minLines : Option Nat := none
  phrases : Option (List String) := none
  keywords : Option (List String) := none
  keywordThreshold : Option Nat := none
  deriving Repr, DecidableEq, Inhabited

namespace Triage.Changes

/-- Rules with changes; what is not changed stays. -/
def apply (c : Changes) (r : Rules) : Rules where
  namePatterns := c.namePatterns.getD r.namePatterns
  minWords := c.minWords.getD r.minWords
  minLines := c.minLines.getD r.minLines
  phrases := c.phrases.getD r.phrases
  keywords := c.keywords.getD r.keywords
  keywordThreshold := c.keywordThreshold.getD r.keywordThreshold

def ofNode? (n : Node) : Option Changes := do
  let texts := Node.asList? Node.asText?
  let count := Node.asNat? Settings.wordBound
  let f ← n.closedFields? ["trivial_name_patterns", "min_words", "min_substantive_lines",
    "trivial_phrases", "substantial_keywords", "keyword_threshold"]
  some {
    namePatterns := ← f.optional "trivial_name_patterns" texts
    minWords := ← f.optional "min_words" count
    minLines := ← f.optional "min_substantive_lines" count
    phrases := ← f.optional "trivial_phrases" texts
    keywords := ← f.optional "substantial_keywords" texts
    keywordThreshold := ← f.optional "keyword_threshold" count }

end Triage.Changes

def Settings.fallback? (n : Node) : Option (List String) := do
  let f ← n.openFields? ["fallback_sections"]
  f.withDefault "fallback_sections" ({} : Settings).fallback (Node.asList? Node.asText?)

def Group.ofNode? (n : Node) : Option Group := do
  let f ← n.openFields? ["name", "sections"]
  some ⟨← f.required "name" Node.asText?, ← f.required "sections" (Node.asList? Node.asText?)⟩

def Taxonomy.ofNode? (n : Node) : Option Taxonomy := (n.asList? Group.ofNode?).map (⟨·⟩)

def Prompts.ofNode? (n : Node) : Option Prompts := do
  let base : Prompts := {}
  let f ← n.openFields? ["filter", "selector", "extractor", "default_writer", "sections"]
  some {
    filter := ← f.withDefault "filter" base.filter Node.asText?
    selector := ← f.withDefault "selector" base.selector Node.asText?
    extractor := ← f.withDefault "extractor" base.extractor Node.asText?
    defaultWriter := ← f.withDefault "default_writer" base.defaultWriter Node.asText?
    writers := ← f.withDefault "sections" [] fun n =>
      (n.asTable? Node.asText?).map Text.tableOf }

def Archive.Layout.ofNode? (n : Node) : Option Archive.Layout := do
  let base : Archive.Layout := {}
  let f ← n.openFields? ["checkpoints", "sections", "diagrams"]
  some {
    checkpoints := ← f.withDefault "checkpoints" base.checkpoints Node.asText?
    sections := ← f.withDefault "sections" base.sections Node.asText?
    diagrams := ← f.withDefault "diagrams" base.diagrams Node.asText? }

def Output.ofNode? (n : Node) : Option Output := do
  let base : Output := {}
  let f ← n.openFields? ["root", "layout", "document_name", "title"]
  some {
    root := ← f.withDefault "root" base.root Node.asText?
    layout := ← f.withDefault "layout" base.layout Archive.Layout.ofNode?
    documentName := ← f.withDefault "document_name" base.documentName Node.asText?
    title := ← f.withDefault "title" base.title (Node.asOption? Node.asText?) }

def Assistant.Endpoint.ofNode? (n : Node) : Option Assistant.Endpoint := do
  let base : Assistant.Endpoint := {}
  let word (n : Node) := (n.asNat? Settings.wordBound).map UInt64.ofNat
  let half (n : Node) := (n.asNat? Settings.halfWordBound).map UInt32.ofNat
  let f ← n.openFields? ["base_url", "model", "api_key_env", "timeout_secs", "max_retries",
    "retry_backoff_ms", "temperature", "max_tokens"]
  some {
    baseUrl := ← f.withDefault "base_url" base.baseUrl Node.asText?
    model := ← f.withDefault "model" base.model Node.asText?
    keyVariable := ← f.withDefault "api_key_env" base.keyVariable Node.asText?
    timeoutSeconds := ← f.withDefault "timeout_secs" base.timeoutSeconds word
    maxRetries := ← f.withDefault "max_retries" base.maxRetries half
    backoffMilliseconds := ← f.withDefault "retry_backoff_ms" base.backoffMilliseconds word
    temperature := ← f.withDefault "temperature" base.temperature Node.asSingle?
    maxTokens := ← f.withDefault "max_tokens" base.maxTokens (Node.asOption? half) }

namespace Settings

/-- What overrides the settings of a preset. -/
structure Overrides where
  triage : Option Triage.Changes := none
  fallback : Option (List String) := none
  taxonomy : Option Taxonomy := none
  prompts : Option Prompts := none
  output : Option Output := none
  maxSteps : Option Nat := none
  endpoint : Option Assistant.Endpoint := none
  deriving Repr, DecidableEq, Inhabited

namespace Overrides

/-- Settings with overrides; what is not overridden stays. -/
def apply (o : Overrides) (s : Settings) : Settings where
  preset := s.preset
  triage := ((o.triage.map fun c => c.apply s.triage).getD s.triage)
  fallback := o.fallback.getD s.fallback
  taxonomy := o.taxonomy.getD s.taxonomy
  prompts := o.prompts.getD s.prompts
  output := o.output.getD s.output
  maxSteps := o.maxSteps.orElse fun _ => s.maxSteps
  endpoint := o.endpoint.getD s.endpoint

def ofNode? (n : Node) : Option Overrides := do
  let f ← n.closedFields? ["filter", "selector", "taxonomy", "prompts", "output", "max_steps", "llm"]
  some {
    triage := ← f.optional "filter" Triage.Changes.ofNode?
    fallback := ← f.optional "selector" fallback?
    taxonomy := ← f.optional "taxonomy" Taxonomy.ofNode?
    prompts := ← f.optional "prompts" Prompts.ofNode?
    output := ← f.optional "output" Output.ofNode?
    maxSteps := ← f.optional "max_steps" (Node.asNat? wordBound)
    endpoint := ← f.optional "llm" Assistant.Endpoint.ofNode? }

end Overrides

/-- The outermost record: a version, the name of a preset and overrides. -/
structure Sheet where
  found : Option Nat := none
  presetName : Option String := none
  overrides : Option Overrides := none
  deriving Repr, DecidableEq, Inhabited

def Sheet.ofNode? (n : Node) : Option Sheet := do
  let f ← n.closedFields? ["version", "preset", "overrides"]
  some {
    found := ← f.optional "version" (Node.asNat? halfWordBound)
    presetName := ← f.optional "preset" Node.asText?
    overrides := ← f.optional "overrides" Overrides.ofNode? }

/-- Accepts the one version that is supported. -/
def checkVersion : Option Nat → Except Error Unit
  | none => .error .missingVersion
  | some v => if v = version then .ok () else .error (.unsupportedVersion v)

/-- The settings that a record describes, not checked yet. -/
def Sheet.settings (h : Sheet) : Except Error Settings := do
  checkVersion h.found
  let preset ← match h.presetName with
    | some name => presetNamed name
    | none => .ok default
  return (h.overrides.getD {}).apply (ofPreset preset)

/-- Reads settings and checks them. -/
def ofNode (n : Node) : Except Error Settings :=
  match Sheet.ofNode? n with
  | none => .error .notYaml
  | some h => do
    let s ← h.settings
    s.check
    return s

/-- Reads settings from a text and checks them. -/
def ofYaml (text : String) : Except Error Settings :=
  match Node.ofText? text with
  | some n => ofNode n
  | none => .error .notYaml

end Settings

end Scriptorium
