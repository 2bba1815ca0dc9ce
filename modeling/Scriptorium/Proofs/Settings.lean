import Scriptorium.Proofs.Lists
import Scriptorium.Proofs.Taxonomy
import Scriptorium.Run.Session

/-! # Settings that pass their check

What a check that succeeds says of the settings, part by part, and what it says of the plan that
is made from them. Every section that a placement picks for such settings is in the taxonomy, and
it is picked once.
-/

namespace Scriptorium

namespace Settings

theorem checkSections_eq_ok_iff {t : Taxonomy} {error : String → Error} {names : List String} :
    checkSections t error names = .ok () ↔ ∀ n ∈ names, n ∈ t.sectionIds := by
  unfold checkSections
  cases hfind : names.find? (!t.contains ·) with
  | none =>
      rw [List.find?_eq_none] at hfind
      simpa [Taxonomy.contains_iff] using hfind
  | some n =>
      have hn : n ∉ t.sectionIds := by
        have hout := List.find?_some hfind
        rw [← Taxonomy.contains_iff]
        simpa using hout
      have hmem := List.mem_of_find?_eq_some hfind
      simp only [reduceCtorEq, false_iff]
      exact fun h => hn (h n hmem)

/-- A check succeeds if and only if each of its parts does. -/
theorem check_eq_ok_iff {s : Settings} :
    s.check = .ok () ↔ s.maxSteps ≠ some 0 ∧ checkTaxonomy s.taxonomy = .ok () ∧
      checkTriage s.triage = .ok () ∧ (∀ n ∈ s.fallback, n ∈ s.taxonomy.sectionIds) ∧
      (∀ n ∈ s.prompts.writers.map (·.1), n ∈ s.taxonomy.sectionIds) ∧
      Text.blank s.output.documentName = false := by
  unfold check
  by_cases hcap : s.maxSteps = some 0
  · simp [hcap, bind, Except.bind]
  · rw [if_neg hcap]
    simp only [seq_eq_ok_iff, checkSections_eq_ok_iff]
    by_cases hname : Text.blank s.output.documentName = true <;>
      simp [hcap, hname, pure, Except.pure]

end Settings

namespace Placement

theorem mem_sift {t : Taxonomy} {id : String} {names : List String} (seen : List String)
    (h : id ∈ (sift t seen names).1) : id ∈ t.sectionIds := by
  induction names generalizing seen with
  | nil => simp [sift] at h
  | cons raw names ih =>
      unfold sift at h
      by_cases hin : t.contains (Text.trim raw) = true
      · by_cases hseen : Text.trim raw ∈ seen
        · simp only [hin, hseen] at h
          exact ih seen (by simpa using h)
        · simp only [hin, hseen] at h
          rcases List.mem_cons.mp (by simpa using h) with heq | hrest
          · rw [heq]
            exact Taxonomy.contains_iff.mp hin
          · exact ih _ hrest
      · simp only [hin] at h
        exact ih seen (by simpa using h)

/-- Whatever the assistant answers, only sections of the taxonomy are picked. -/
theorem mem_ofReply {t : Taxonomy} {fallbackSections : List String} {id : String}
    (hfallback : ∀ n ∈ fallbackSections, n ∈ t.sectionIds) (reply : Except Assistant.Failure String)
    (h : id ∈ (ofReply t fallbackSections reply).sections) : id ∈ t.sectionIds := by
  have hkeep : id ∈ (fallback fallbackSections).sections → id ∈ t.sectionIds := fun hid =>
    hfallback id (List.mem_eraseDups.mp hid)
  unfold ofReply at h
  cases reply with
  | error e => exact hkeep h
  | ok text =>
      dsimp only at h
      cases hnames : Assistant.decode sections? text with
      | error e => exact hkeep (by rwa [hnames] at h)
      | ok names =>
          rw [hnames] at h
          exact mem_sift [] h

/-- A list that is sifted is left without repetitions, also beside what was seen before. -/
theorem nodup_sift {t : Taxonomy} (seen names : List String) :
    (sift t seen names).1.Nodup ∧ ∀ id ∈ (sift t seen names).1, id ∉ seen := by
  induction names generalizing seen with
  | nil => simp [sift]
  | cons raw names ih =>
      unfold sift
      by_cases hin : t.contains (Text.trim raw) = true
      · by_cases hseen : Text.trim raw ∈ seen
        · simpa [hin, hseen] using ih seen
        · obtain ⟨hnodup, hfresh⟩ := ih (Text.trim raw :: seen)
          have hnew : Text.trim raw ∉ (sift t (Text.trim raw :: seen) names).1 :=
            fun hmem => hfresh _ hmem List.mem_cons_self
          simp only [hin, hseen]
          refine ⟨List.nodup_cons.mpr ⟨hnew, hnodup⟩, fun id hid => ?_⟩
          rcases List.mem_cons.mp hid with rfl | hid
          · exact hseen
          · exact fun hmem => hfresh id hid (List.mem_cons_of_mem _ hmem)
      · simpa [hin] using ih seen

/-- No section is picked twice. -/
theorem nodup_ofReply (t : Taxonomy) (fallbackSections : List String)
    (reply : Except Assistant.Failure String) :
    (ofReply t fallbackSections reply).sections.Nodup := by
  have hfallback : (fallback fallbackSections).sections.Nodup := nodup_eraseDups _
  unfold ofReply
  cases reply with
  | error e => exact hfallback
  | ok text =>
      dsimp only
      cases Assistant.decode sections? text with
      | error e => exact hfallback
      | ok names => exact (nodup_sift [] names).1

end Placement

namespace Run.Plan

/-- A plan is made exactly of settings that pass their check, with their triage rules read. -/
theorem ofSettings_eq_ok_iff {s : Settings} {graph : Option CallGraph}
    {answers : Assistant.Answering} {p : Plan} :
    ofSettings s graph answers = .ok p ↔ s.check = .ok () ∧
      ∃ sieve, Triage.Sieve.ofRules s.triage = .ok sieve ∧ p = ⟨s, sieve, graph, answers⟩ := by
  unfold ofSettings
  rw [seq_eq_ok_iff]
  cases hsieve : Triage.Sieve.ofRules s.triage with
  | error e => simp
  | ok sieve => simp [pure, Except.pure, eq_comm]

theorem fields_of_ofSettings {s : Settings} {graph : Option CallGraph}
    {answers : Assistant.Answering} {p : Plan} (h : ofSettings s graph answers = .ok p) :
    p.settings = s ∧ p.answers = answers := by
  obtain ⟨-, sieve, -, rfl⟩ := ofSettings_eq_ok_iff.mp h
  exact ⟨rfl, rfl⟩

/-- A plan is about each of its sections once. -/
theorem nodup_of_ofSettings {s : Settings} {graph : Option CallGraph}
    {answers : Assistant.Answering} {p : Plan} (h : ofSettings s graph answers = .ok p) :
    s.taxonomy.sectionIds.Nodup := by
  obtain ⟨hcheck, -⟩ := ofSettings_eq_ok_iff.mp h
  obtain ⟨-, htaxonomy, -⟩ := Settings.check_eq_ok_iff.mp hcheck
  unfold Settings.checkTaxonomy at htaxonomy
  cases hcheck : s.taxonomy.check with
  | error e =>
      rw [hcheck] at htaxonomy
      cases htaxonomy
  | ok _ => exact (Taxonomy.check_eq_ok_iff.mp hcheck).nodup

end Run.Plan

/-! ## A small plan -/

def Settings.small : Settings where
  triage := ⟨[], 1, 0, [], ["parses"], 1⟩
  fallback := ["Overview"]
  taxonomy := ⟨[⟨"Guide", ["Overview", "Usage"]⟩]⟩

def Catalog.small : Catalog where
  components := [⟨"Lexer", "It parses words.", none⟩, ⟨"Index", "", none⟩,
    ⟨"Reader", "It parses lines.", none⟩]
  distinct := by decide

def Run.Clock.still (t : Archive.Timestamp) : Run.Clock := ⟨fun _ => t, fun _ => 0⟩

def Assistant.scribe (r : Request) : Except Failure String :=
  match r.task with
  | .writer => .ok (r.value "existing" ++ r.value "name" ++ ".")
  | _ => .error .empty

def Assistant.chronicler (r : Request) : Except Failure String :=
  match r.task with
  | .writer => .ok (r.value "existing" ++ "\n\n" ++ r.value "name")
  | _ => .error .empty

def Assistant.wrapper (r : Request) : Except Failure String :=
  match r.task with
  | .writer => .ok "```markdown\n```json\n```\n```"
  | _ => .error .empty

namespace Run.Plan

def small (answers : Assistant.Answering) (cap : Option Nat) : Plan where
  settings := { Settings.small with maxSteps := cap }
  sieve := ⟨Settings.small.triage, []⟩
  answers := answers

theorem ofSettings_small (answers : Assistant.Answering) (cap : Option Nat) (h : cap ≠ some 0) :
    ofSettings { Settings.small with maxSteps := cap } none answers = .ok (small answers cap) := by
  have hname : Text.blank Settings.small.output.documentName = false := by decide
  have hcheck : { Settings.small with maxSteps := cap }.check = .ok () := by
    refine Settings.check_eq_ok_iff.mpr ⟨h, rfl, rfl, ?_, ?_, hname⟩
    · intro n hn
      obtain rfl := List.mem_singleton.mp hn
      exact List.mem_cons_self
    · exact fun n hn => absurd hn List.not_mem_nil
  exact ofSettings_eq_ok_iff.mpr ⟨hcheck, _, rfl, rfl⟩

end Run.Plan

end Scriptorium
