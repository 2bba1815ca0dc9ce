import Scriptorium.Proofs.Settings
import Scriptorium.Proofs.Text.Table
import Scriptorium.Proofs.Yaml.Value

/-! # Settings that are written and read

Every field of settings is written, and what is written of a field is read as the field, but for the
temperature, which is read by way of a double.
-/

namespace Scriptorium

open Yaml Yaml.Node

/-! ## The parts of settings -/

theorem Triage.Changes.ofNode?_toNode {r : Triage.Rules} (hwords : r.minWords < Settings.wordBound)
    (hlines : r.minLines < Settings.wordBound)
    (hthreshold : r.keywordThreshold < Settings.wordBound) :
    Triage.Changes.ofNode? r.toNode = some ⟨some r.namePatterns, some r.minWords, some r.minLines,
      some r.phrases, some r.keywords, some r.keywordThreshold⟩ := by
  have htexts (l : List String) : (ofTexts l).asOption? (asList? asText?) = some (some l) :=
    asOption?_sequence (asList?_ofTexts l)
  unfold ofNode? Triage.Rules.toNode
  refine closedFields?_record (by simp) (by simp) fun f hgives => ?_
  simp [hgives.optional, List.lookup_cons, htexts, asOption?_asNat? hwords,
    asOption?_asNat? hlines, asOption?_asNat? hthreshold]

theorem Settings.fallback?_record (l : List String) :
    Settings.fallback? (.record [("fallback_sections", .ofTexts l)]) = some l := by
  unfold fallback?
  refine openFields?_record (by simp) (by simp) fun f hgives => ?_
  simp [hgives.withDefault, asList?_ofTexts]

theorem Taxonomy.ofNode?_toNode (t : Taxonomy) : Taxonomy.ofNode? t.toNode = some t := by
  have hgroup (g : Group) : Group.ofNode?
      (.record [("name", .ofText g.name), ("sections", .ofTexts g.sections)]) = some g := by
    unfold Group.ofNode?
    refine openFields?_record (by simp) (by simp) fun f hgives => ?_
    simp [hgives.required, List.lookup_cons, asText?_ofText, asList?_ofTexts]
  have hgroups := asList?_map (l := t.groups) fun g _ => hgroup g
  rw [ofNode?, toNode, hgroups]
  rfl

theorem Prompts.ofNode?_toNode {p : Prompts} (h : Text.IsTable p.writers) :
    Prompts.ofNode? p.toNode = some p := by
  have hwriters : (record (p.writers.map fun e => (e.1, ofText e.2))).asTable? asText? =
      some p.writers := asTable?_record fun e _ => asText?_ofText e.2
  unfold ofNode? toNode
  refine openFields?_record (by simp) (by simp) fun f hgives => ?_
  simp [hgives.withDefault, List.lookup_cons, asText?_ofText, hwriters, h.tableOf_eq]

theorem Archive.Layout.ofNode?_toNode (l : Archive.Layout) :
    Archive.Layout.ofNode? l.toNode = some l := by
  unfold ofNode? toNode
  refine openFields?_record (by simp) (by simp) fun f hgives => ?_
  simp [hgives.withDefault, List.lookup_cons, asText?_ofText]

theorem Output.ofNode?_toNode (o : Output) : Output.ofNode? o.toNode = some o := by
  have htitle : (ofOption ofText o.title).asOption? asText? = some o.title := by
    cases o.title with
    | none => rfl
    | some title => exact asOption?_ofText title
  unfold ofNode? toNode
  refine openFields?_record (by simp) (by simp) fun f hgives => ?_
  simp [hgives.withDefault, List.lookup_cons, asText?_ofText, Archive.Layout.ofNode?_toNode, htitle]

/-- The settings of an endpoint are read as they are, but for the temperature. -/
theorem Assistant.Endpoint.ofNode?_toNode {e : Assistant.Endpoint}
    (h : e.temperature.isNan = false) : ∃ t, Reread e.temperature t ∧
      Assistant.Endpoint.ofNode? e.toNode = some { e with temperature := t } := by
  obtain ⟨t, htemperature, ht⟩ := asSingle?_ofSingle h
  have hword (n : UInt64) :
      ((ofNat n.toNat).asNat? Settings.wordBound).map UInt64.ofNat = some n := by
    have hlt : n.toNat < Settings.wordBound := n.toNat_lt
    rw [asNat?_ofNat hlt, Option.map_some, UInt64.ofNat_toNat]
  have hhalf (n : UInt32) :
      ((ofNat n.toNat).asNat? Settings.halfWordBound).map UInt32.ofNat = some n := by
    have hlt : n.toNat < Settings.halfWordBound := n.toNat_lt
    rw [asNat?_ofNat hlt, Option.map_some, UInt32.ofNat_toNat]
  have htokens : (ofOption (fun n => ofNat n.toNat) e.maxTokens).asOption?
      (fun n => (n.asNat? Settings.halfWordBound).map UInt32.ofNat) = some e.maxTokens := by
    cases e.maxTokens with
    | none => rfl
    | some n =>
        rw [ofOption, asOption?_ofNat, hhalf]
        rfl
  refine ⟨t, ht, ?_⟩
  unfold ofNode? toNode
  refine openFields?_record (by simp) (by simp) fun f hgives => ?_
  simp [hgives.withDefault, List.lookup_cons, asText?_ofText, hword, hhalf, htemperature, htokens]

namespace Settings

variable {s : Settings}

/-! ## Whole settings -/

/-- What the types of settings hold: counts of 64 bits, templates in the order of their sections,
and a temperature that is a number. -/
structure Fits (s : Settings) : Prop where
  minWords : s.triage.minWords < wordBound
  minLines : s.triage.minLines < wordBound
  keywordThreshold : s.triage.keywordThreshold < wordBound
  maxSteps : ∀ n, s.maxSteps = some n → n < wordBound
  writers : Text.IsTable s.prompts.writers
  temperature : s.endpoint.temperature.isNan = false

def overrides (s : Settings) : Overrides where
  triage := some ⟨some s.triage.namePatterns, some s.triage.minWords, some s.triage.minLines,
    some s.triage.phrases, some s.triage.keywords, some s.triage.keywordThreshold⟩
  fallback := some s.fallback
  taxonomy := some s.taxonomy
  prompts := some s.prompts
  output := some s.output
  maxSteps := s.maxSteps
  endpoint := some s.endpoint

def withTemperature (s : Settings) (t : Number.Binary Number.single) : Settings :=
  { s with endpoint := { s.endpoint with temperature := t } }

theorem apply_overrides (s : Settings) : s.overrides.apply (ofPreset s.preset) = s := by
  obtain ⟨preset, triage, fallback, taxonomy, prompts, output, maxSteps, endpoint⟩ := s
  cases maxSteps <;> rfl

/-- The field of the largest number of moves, which is written only if it was set. -/
inductive Limit : Option Nat → List (String × Node) → Prop where
  | unset : Limit none []
  | set (n : Nat) : Limit (some n) [("max_steps", .ofNat n)]

def overridesNode (s : Settings) (limit : List (String × Node)) : Node :=
  .record ([("filter", s.triage.toNode),
    ("selector", .record [("fallback_sections", .ofTexts s.fallback)]),
    ("taxonomy", s.taxonomy.toNode), ("prompts", s.prompts.toNode), ("output", s.output.toNode)]
    ++ limit ++ [("llm", s.endpoint.toNode)])

theorem exists_limit (s : Settings) : ∃ limit, Limit s.maxSteps limit ∧ s.toNode =
    .record [("version", .ofNat version), ("preset", .ofText s.preset.name),
      ("overrides", s.overridesNode limit)] := by
  unfold toNode
  cases s.maxSteps with
  | none => exact ⟨[], .unset, rfl⟩
  | some n => exact ⟨_, .set n, rfl⟩

theorem Overrides.ofNode?_overridesNode (h : s.Fits) {limit : List (String × Node)}
    (hlimit : Limit s.maxSteps limit) : ∃ t, Reread s.endpoint.temperature t ∧
      Overrides.ofNode? (s.overridesNode limit) = some (s.withTemperature t).overrides := by
  obtain ⟨t, ht, hendpoint⟩ := Assistant.Endpoint.ofNode?_toNode h.temperature
  have htriage : s.triage.toNode.asOption? Triage.Changes.ofNode? = some s.overrides.triage :=
    asOption?_record
      (Triage.Changes.ofNode?_toNode h.minWords h.minLines h.keywordThreshold)
  have hfallback : (record [("fallback_sections", ofTexts s.fallback)]).asOption? fallback? =
      some (some s.fallback) := asOption?_record (fallback?_record s.fallback)
  have htaxonomy : s.taxonomy.toNode.asOption? Taxonomy.ofNode? = some (some s.taxonomy) :=
    asOption?_sequence (Taxonomy.ofNode?_toNode s.taxonomy)
  have hprompts : s.prompts.toNode.asOption? Prompts.ofNode? = some (some s.prompts) :=
    asOption?_record (Prompts.ofNode?_toNode h.writers)
  have houtput : s.output.toNode.asOption? Output.ofNode? = some (some s.output) :=
    asOption?_record (Output.ofNode?_toNode s.output)
  have hllm : s.endpoint.toNode.asOption? Assistant.Endpoint.ofNode? =
      some (s.withTemperature t).overrides.endpoint := asOption?_record hendpoint
  refine ⟨t, ht, ?_⟩
  have hsteps := h.maxSteps
  unfold Overrides.ofNode? overridesNode overrides withTemperature
  generalize s.maxSteps = steps at hlimit hsteps
  cases hlimit with
  | unset =>
      refine closedFields?_record (by simp) (by simp) fun f hgives => ?_
      simp [hgives.optional, List.lookup_cons, htriage, hfallback, htaxonomy, hprompts, houtput,
        hllm, overrides, withTemperature]
  | set n =>
      refine closedFields?_record (by simp) (by simp) fun f hgives => ?_
      simp [hgives.optional, List.lookup_cons, htriage, hfallback, htaxonomy, hprompts, houtput,
        hllm, overrides, withTemperature, asOption?_asNat? (hsteps n rfl)]

theorem Sheet.ofNode?_toNode (h : s.Fits) : ∃ t, Reread s.endpoint.temperature t ∧
    Sheet.ofNode? s.toNode =
      some ⟨some version, some s.preset.name, some (s.withTemperature t).overrides⟩ := by
  obtain ⟨limit, hlimit, hnode⟩ := s.exists_limit
  obtain ⟨t, ht, hoverrides⟩ := Overrides.ofNode?_overridesNode h hlimit
  have hversion : version < halfWordBound := by decide
  have hread : (s.overridesNode limit).asOption? Overrides.ofNode? =
      some (some (s.withTemperature t).overrides) := asOption?_record hoverrides
  refine ⟨t, ht, ?_⟩
  rw [hnode]
  unfold Sheet.ofNode?
  refine closedFields?_record (by simp) (by simp) fun f hgives => ?_
  simp [hgives.optional, List.lookup_cons, asOption?_asNat? hversion, asOption?_ofText, hread]

theorem presetNamed_name (p : Preset) : presetNamed p.name = .ok p := by
  cases p <;> decide

/-- Settings that pass their check are read as they are, with the temperature that is read. -/
theorem exists_ofYaml (hcheck : s.check = .ok ()) (hfits : s.Fits)
    (hread : Node.ofText? s.toYaml = some s.toNode) :
    ∃ t, Reread s.endpoint.temperature t ∧ ofYaml s.toYaml = .ok (s.withTemperature t) := by
  obtain ⟨t, ht, hsheet⟩ := Sheet.ofNode?_toNode hfits
  have hsettings : Sheet.settings
      ⟨some version, some s.preset.name, some (s.withTemperature t).overrides⟩ =
        .ok (s.withTemperature t) := by
    simp only [Sheet.settings, checkVersion, if_true, presetNamed_name, Option.getD_some]
    exact congrArg Except.ok (s.withTemperature t).apply_overrides
  have hcheck' : (s.withTemperature t).check = .ok () := hcheck
  refine ⟨t, ht, ?_⟩
  rw [ofYaml, hread]
  dsimp only
  rw [ofNode, hsheet]
  dsimp only
  rw [hsettings]
  change (do (s.withTemperature t).check; pure (s.withTemperature t)) = _
  rw [hcheck']
  rfl

/-- Settings that pass their check come back when they are written and read, but for a temperature
whose decimal is read as a double half way to a neighbour: that comes back as the neighbour. -/
theorem ofYaml_toYaml (hcheck : s.check = .ok ()) (hfits : s.Fits)
    (hread : Node.ofText? s.toYaml = some s.toNode) :
    (∃ t, Reread s.endpoint.temperature t ∧ ofYaml s.toYaml = .ok (s.withTemperature t)) ∧
      (ofYaml s.toYaml = .ok s ↔ ¬ Number.Astray s.endpoint.temperature.pattern
        (reread s.endpoint.temperature.pattern)) := by
  obtain ⟨t, ht, hresult⟩ := exists_ofYaml hcheck hfits hread
  refine ⟨⟨t, ht, hresult⟩, ?_⟩
  rw [hresult, ← ht.same]
  constructor
  · intro h
    exact congrArg (fun s => s.endpoint.temperature) (Except.ok.inj h)
  · rintro rfl
    rfl

/-! ## Small settings -/

def sketch (pattern : Nat) : Settings where
  triage := ⟨[], 1, 0, [], ["parses"], 1⟩
  fallback := ["Overview"]
  taxonomy := ⟨[⟨"Guide", ["Overview"]⟩]⟩
  prompts := ⟨"keep", "pick", "draw", "write", []⟩
  output := ⟨"output", {}, "book.md", none⟩
  endpoint := { baseUrl := "local", model := "none", keyVariable := "KEY",
                temperature := ⟨false, pattern⟩ }

theorem check_sketch (pattern : Nat) : (sketch pattern).check = .ok () := by
  have hname : Text.blank "book.md" = false := by decide
  refine check_eq_ok_iff.mpr ⟨nofun, rfl, rfl, ?_, ?_, hname⟩
  · intro n hn
    obtain rfl := List.mem_singleton.mp hn
    exact List.mem_cons_self
  · exact fun n hn => absurd hn List.not_mem_nil

theorem fits_sketch {pattern : Nat} (h : pattern ≤ Number.single.infinite) :
    (sketch pattern).Fits := by
  have hbound : 1 < wordBound := by decide
  exact ⟨hbound, Nat.lt_trans Nat.one_pos hbound, hbound, nofun, .nil,
    decide_eq_false (Nat.not_lt.mpr h)⟩

/-- Both documents are evaluated at once, so that the texts they share are taken apart once. -/
theorem ofText?_sketch : ∀ pattern ∈ [0x3f000000, 0x15ae43fd],
    Node.ofText? (sketch pattern).toYaml = some (sketch pattern).toNode := by
  simp only [toYaml, Node.print, Node.ofText?, tokens?, spots?, String.toList_ofList]
  decide +kernel

/-- With an even pattern the settings come back. -/
theorem ofYaml_toYaml_half : (sketch 0x3f000000).check = .ok () ∧ (sketch 0x3f000000).Fits ∧
    Node.ofText? (sketch 0x3f000000).toYaml = some (sketch 0x3f000000).toNode ∧
      ofYaml (sketch 0x3f000000).toYaml = .ok (sketch 0x3f000000) := by
  have hcheck := check_sketch 0x3f000000
  have hfits : (sketch 0x3f000000).Fits := fits_sketch (by decide)
  have hread := ofText?_sketch 0x3f000000 (by simp)
  refine ⟨hcheck, hfits, hread, ?_⟩
  exact (ofYaml_toYaml hcheck hfits hread).2.mpr fun h => absurd h.odd (by decide)

/-- The decimal 7.038531e-26 is the shortest of a single with an odd pattern, and the double that
is nearest to it lies half way to the single above. -/
theorem reread_adrift : reread 0x15ae43fd = Number.single.midpoint 0x15ae43fd := by
  have hnearest : Number.nearest Number.double (written 0x15ae43fd).digits
      (written 0x15ae43fd).exponent = 0x3ab5c87fb0000000 := by decide +kernel
  have hdouble : Number.double.Cell 0x3ab5c87fb0000000 938 6131425250115584 :=
    ⟨by decide, by decide, .inr (by decide)⟩
  have hsingle : Number.single.Cell 0x15ae43fd 42 11420669 :=
    ⟨by decide, by decide, .inr (by decide)⟩
  rw [reread, hnearest, hdouble.value_eq, hsingle.midpoint_eq]
  norm_num [Number.double, Number.single]

/-- A temperature that comes back as its neighbour. -/
theorem toYaml_drifts : (sketch 0x15ae43fd).check = .ok () ∧ (sketch 0x15ae43fd).Fits ∧
    Node.ofText? (sketch 0x15ae43fd).toYaml = some (sketch 0x15ae43fd).toNode ∧
      ofYaml (sketch 0x15ae43fd).toYaml = .ok (sketch 0x15ae43fe) ∧
        ofYaml (sketch 0x15ae43fd).toYaml ≠ .ok (sketch 0x15ae43fd) := by
  have hcheck := check_sketch 0x15ae43fd
  have hfits : (sketch 0x15ae43fd).Fits := fits_sketch (by decide)
  have hread := ofText?_sketch 0x15ae43fd (by simp)
  obtain ⟨⟨negative, pattern⟩, ht, hresult⟩ := exists_ofYaml hcheck hfits hread
  obtain rfl : negative = false := ht.sign
  obtain rfl : pattern = 0x15ae43fe := ht.above (by decide) reread_adrift
  have hne : sketch 0x15ae43fe ≠ sketch 0x15ae43fd := by decide
  refine ⟨hcheck, hfits, hread, hresult, ?_⟩
  rw [hresult]
  exact fun h => hne (Except.ok.inj h)

end Settings

end Scriptorium
