import Scriptorium.Proofs.Assistant.Reply
import Scriptorium.Proofs.Json.Record
import Scriptorium.Proofs.Json.RoundTrip
import Scriptorium.Proofs.Settings

/-! # Placement by reply

A reply lists names if its first object has one list of texts under the key for them. Its names are
sifted into the sections of the taxonomy, each once and in the order of their first mention, and the
names that are no sections; without such a list the fallback is taken. Names are compared without
the blanks around them, so a section whose own name has blanks at an end is never picked by name.
-/

namespace Scriptorium

/-! ## Texts that are an object -/

namespace Json

/-- An object text is its own first object, since no fence begins with a brace. -/
theorem firstObject?_of_isObject {s : List Char} (h : IsObject s) :
    firstObject? (String.ofList s) = some (String.ofList s) := by
  have hsame : Text.unfenceChars s = s := by
    refine (Text.unfenceChars_cases s).resolve_right ?_
    rintro ⟨body, hwrapped⟩
    obtain ⟨lead, first, fin, text, tail, hs, hlead, ⟨more, rfl⟩, -⟩ := hwrapped.exists_parts
    have hhead := h.1
    cases lead with
    | nil =>
        rw [hs] at hhead
        exact absurd hhead (by simp [Text.fenceMark])
    | cons c lead =>
        rw [hs] at hhead
        obtain rfl : c = '\x7b' := by simpa using hhead
        exact absurd (hlead _ List.mem_cons_self) (by decide)
  have hslice := objectSlice?_append h []
  rw [List.append_nil] at hslice
  rw [firstObject?, String.toList_ofList, hsame, hslice, Option.map_some]

theorem firstObject?_pretty {ms : List (String × Json)} (hfits : Fits depthLimit (.obj ms)) :
    firstObject? (pretty (.obj ms)) = some (pretty (.obj ms)) := by
  refine firstObject?_of_isObject ⟨?_, ms, readFront_pretty hfits⟩
  cases ms <;> rfl

end Json

/-! ## Names in replies -/

namespace Placement

variable {t : Taxonomy} {fallbackSections names : List String} {o : Assistant.Outcome} {id : String}

/-- The first object of a reply lists the names as texts under their key, which it has once. -/
inductive Lists : Assistant.Outcome → List String → Prop where
  | reply {text slice : String} {ms : List (String × Json)} {names : List String}
      (hslice : Json.firstObject? text = some slice) (hobject : Json.parse? slice = some (.obj ms))
      (hnames : ms.filter (·.1 = "relevant_sections") =
        [("relevant_sections", .arr (names.map .str))]) :
      Lists (.reply text) names

theorem sections?_eq_some_iff {ms : List (String × Json)} :
    sections? (.obj ms) = some names ↔
      ms.filter (·.1 = "relevant_sections") = [("relevant_sections", .arr (names.map .str))] := by
  rw [sections?, Json.slots_single]
  cases hkey : ms.filter (·.1 = "relevant_sections") with
  | nil => simp [Json.Slot.required]
  | cons m rest =>
      have hm : m.1 = "relevant_sections" := by
        have hmem : m ∈ ms.filter (·.1 = "relevant_sections") := by
          rw [hkey]
          exact List.mem_cons_self
        simpa using (List.mem_filter.mp hmem).2
      cases rest with
      | nil => simp [Json.Slot.required, Json.asList?_asString?_eq_some_iff, Prod.ext_iff, hm]
      | cons n rest => simp

theorem decode_eq_ok_iff {text : String} :
    Assistant.decode sections? text = .ok names ↔ Lists (.reply text) names := by
  constructor
  · intro h
    cases hslice : Json.firstObject? text with
    | none =>
        rw [Assistant.decode_of_no_object hslice] at h
        cases h
    | some slice =>
        obtain ⟨ms, hobject, hdecode⟩ := Assistant.decode_of_object hslice
        rw [hdecode] at h
        cases hread : sections? (.obj ms) with
        | none =>
            rw [hread] at h
            cases h
        | some found =>
            rw [hread] at h
            obtain rfl := Except.ok.inj h
            exact .reply hslice hobject (sections?_eq_some_iff.mp hread)
  · rintro ⟨hslice, hobject, hnames⟩
    obtain ⟨ms, hparse, hdecode⟩ := Assistant.decode_of_object hslice
    obtain rfl := Json.obj.inj (Option.some.inj (hobject.symm.trans hparse))
    rw [hdecode, sections?_eq_some_iff.mpr hnames]

/-- The names of a reply are sections in the order of their first mention, but for those seen
before, and names that are no sections. -/
theorem sift_eq (t : Taxonomy) (seen names : List String) :
    sift t seen names =
      ((((names.map Text.trim).filter (· ∈ t.sectionIds)).filter (· ∉ seen)).eraseDups,
        names.filter (Text.trim · ∉ t.sectionIds)) := by
  induction names generalizing seen with
  | nil => rfl
  | cons raw names ih =>
      unfold sift
      by_cases hin : Text.trim raw ∈ t.sectionIds
      · have hcontains := Taxonomy.contains_iff.mpr hin
        by_cases hseen : Text.trim raw ∈ seen
        · simp [hcontains, hin, hseen, ih]
        · -- Whatever is equal to the section kept here is left out behind it.
          have hrest : ((names.map Text.trim).filter (· ∈ t.sectionIds)).filter
                (· ∉ Text.trim raw :: seen) =
              (((names.map Text.trim).filter (· ∈ t.sectionIds)).filter (· ∉ seen)).filter
                (fun id => !id == Text.trim raw) := by
            rw [List.filter_filter (p := fun id => !id == Text.trim raw)]
            refine List.filter_congr fun id _ => ?_
            simp [beq_eq_decide]
          simp only [hcontains, hseen, Bool.not_true, Bool.false_eq_true, if_false, ih, hrest]
          simp [hin, hseen, List.eraseDups_cons]
      · have hcontains : t.contains (Text.trim raw) = false := by
          exact Bool.eq_false_iff.mpr (mt Taxonomy.contains_iff.mp hin)
        simp [hcontains, hin, ih]

theorem ofReply_of_lists (h : Lists o names) (t : Taxonomy) (fallbackSections : List String) :
    ofReply t fallbackSections o.settled =
      ⟨((names.map Text.trim).filter (· ∈ t.sectionIds)).eraseDups,
        names.filter (Text.trim · ∉ t.sectionIds), false⟩ := by
  cases o with
  | failure f => cases h
  | panic message => cases h
  | reply text =>
      simp only [Assistant.Outcome.settled, ofReply, decode_eq_ok_iff.mpr h, sift_eq]
      simp

/-- An outcome that lists no names: the call failed or broke off, or its reply is blank, has no
object in it, or has one of another form. -/
inductive Unlisted : Assistant.Outcome → Prop where
  | failed (f : Assistant.Failure) : Unlisted (.failure f)
  | brokeOff (message : String) : Unlisted (.panic message)
  | blank {text : String} (h : Text.blank text = true) : Unlisted (.reply text)
  | noObject {text : String} (h : Json.firstObject? text = none) : Unlisted (.reply text)
  | otherForm {text slice : String} {ms : List (String × Json)}
      (hslice : Json.firstObject? text = some slice) (hobject : Json.parse? slice = some (.obj ms))
      (h : ∀ names : List String, ms.filter (·.1 = "relevant_sections") ≠
        [("relevant_sections", .arr (names.map .str))]) : Unlisted (.reply text)

theorem Unlisted.not_lists (h : Unlisted o) : ¬ Lists o names := by
  rintro ⟨hslice, hobject, hnames⟩
  cases h with
  | blank h => cases (Assistant.firstObject?_of_blank h).symm.trans hslice
  | noObject h => cases h.symm.trans hslice
  | otherForm hslice' hobject' h =>
      obtain rfl := Option.some.inj (hslice'.symm.trans hslice)
      obtain rfl := Json.obj.inj (Option.some.inj (hobject'.symm.trans hobject))
      exact h _ hnames

theorem lists_or_unlisted (o : Assistant.Outcome) : (∃ names, Lists o names) ∨ Unlisted o := by
  cases o with
  | failure f => exact .inr (.failed f)
  | panic message => exact .inr (.brokeOff message)
  | reply text =>
      cases hslice : Json.firstObject? text with
      | none => exact .inr (.noObject hslice)
      | some slice =>
          have hread : ∃ ms, Json.parse? slice = some (.obj ms) ∧
              Assistant.decode sections? text = _ := Assistant.decode_of_object hslice
          obtain ⟨ms, hobject, -⟩ := hread
          by_cases h : ∃ names : List String, ms.filter (·.1 = "relevant_sections") =
              [("relevant_sections", .arr (names.map .str))]
          · obtain ⟨names, hnames⟩ := h
            exact .inl ⟨names, .reply hslice hobject hnames⟩
          · exact .inr (.otherForm hslice hobject fun names hnames => h ⟨names, hnames⟩)

theorem ofReply_of_unlisted (h : Unlisted o) (t : Taxonomy) (fallbackSections : List String) :
    ofReply t fallbackSections o.settled = ⟨fallbackSections.eraseDups, [], true⟩ := by
  cases o with
  | failure f => rfl
  | panic message => rfl
  | reply text =>
      cases hdecode : Assistant.decode sections? text with
      | error f =>
          simp only [Assistant.Outcome.settled, ofReply, hdecode]
          rfl
      | ok names => exact absurd (decode_eq_ok_iff.mp hdecode) h.not_lists

/-! ## What is picked -/

/-- Sections are picked once each. Where names are listed, the sections among them are picked,
without the blanks around them and in the order of their first mention, and the other names are
dropped as they are written; so each name is either picked or dropped. Where none are listed the
fallback sections are picked, and nothing is dropped. With settings that pass their check all that
is picked is in the taxonomy. -/
theorem ofReply_sorts_names (t : Taxonomy) (fallbackSections : List String)
    (o : Assistant.Outcome) :
    let picked := ofReply t fallbackSections o.settled
    picked.sections.Nodup ∧
    (∀ names, Lists o names →
      picked.usedFallback = false ∧
      picked.sections = ((names.map Text.trim).filter (· ∈ t.sectionIds)).eraseDups ∧
      picked.dropped = names.filter (Text.trim · ∉ t.sectionIds) ∧
      ∀ n ∈ names, (Text.trim n ∈ picked.sections ↔ n ∉ picked.dropped)) ∧
    (Unlisted o → picked.usedFallback = true ∧ picked.sections = fallbackSections.eraseDups ∧
      picked.dropped = []) ∧
    ((∃ names, Lists o names) ∨ Unlisted o) ∧
    ∀ s : Settings, s.check = .ok () → s.taxonomy = t → s.fallback = fallbackSections →
      ∀ id ∈ picked.sections, id ∈ t.sectionIds := by
  intro picked
  refine ⟨nodup_ofReply t fallbackSections o.settled, fun names h => ?_, fun h => ?_,
    lists_or_unlisted o, ?_⟩
  · have hpicked : picked = _ := ofReply_of_lists h t fallbackSections
    rw [hpicked]
    refine ⟨rfl, rfl, rfl, fun n hn => ?_⟩
    have hname : Text.trim n ∈ names.map Text.trim := List.mem_map_of_mem hn
    simp only [List.mem_eraseDups, List.mem_filter, decide_eq_true_eq, hname, hn, true_and,
      not_not]
  · have hpicked : picked = _ := ofReply_of_unlisted h t fallbackSections
    rw [hpicked]
    exact ⟨rfl, rfl, rfl⟩
  · rintro s hcheck rfl rfl id hid
    obtain ⟨-, -, -, hfallback, -⟩ := Settings.check_eq_ok_iff.mp hcheck
    exact mem_ofReply hfallback o.settled hid

theorem ofReply_sorts_names_small :
    let o : Assistant.Outcome := .reply
      "Here: \x7b\"relevant_sections\": [\"Usage\", \"Made Up \", \" Overview\", \"Usage\"]\x7d"
    let picked := ofReply Settings.small.taxonomy ["Overview"] o.settled
    let other := ofReply Settings.small.taxonomy ["Overview", "Overview"] (.ok " \n")
    Lists o ["Usage", "Made Up ", " Overview", "Usage"] ∧
      picked.sections = ["Usage", "Overview"] ∧ picked.dropped = ["Made Up "] ∧
      Unlisted (.reply " \n") ∧ other.sections = ["Overview"] ∧
      "Overview" ∈ Settings.small.taxonomy.sectionIds := by
  intro o picked other
  have hlists : Lists o ["Usage", "Made Up ", " Overview", "Usage"] :=
    decode_eq_ok_iff.mp (by decide +kernel)
  have hblank : Unlisted (.reply " \n") := .blank (by decide)
  obtain ⟨-, hlisted, -⟩ := ofReply_sorts_names Settings.small.taxonomy ["Overview"] o
  obtain ⟨-, -, hunlisted, -⟩ :=
    ofReply_sorts_names Settings.small.taxonomy ["Overview", "Overview"] (.reply " \n")
  obtain ⟨-, hsections, hdropped, -⟩ := hlisted _ hlists
  obtain ⟨-, hfallback, -⟩ := hunlisted hblank
  refine ⟨hlists, hsections.trans ?_, hdropped.trans ?_, hblank, hfallback.trans ?_, ?_⟩
  · decide
  · decide
  · decide
  · obtain ⟨-, -, -, -, hmembers⟩ :=
      ofReply_sorts_names Settings.small.taxonomy ["Overview"] (.reply " \n")
    refine hmembers Settings.small ?_ rfl rfl "Overview" ?_
    · exact (Run.Plan.ofSettings_eq_ok_iff.mp
        (Run.Plan.ofSettings_small (fun _ _ => .reply "") none (by decide))).1
    · decide

def naming (name : String) : Json := .obj [("relevant_sections", .arr [.str name])]

theorem lists_naming (name : String) : Lists (.reply (naming name).pretty) [name] := by
  have hfits : Json.Fits Json.depthLimit (naming name) :=
    ⟨by decide, ⟨by decide, trivial, trivial⟩, trivial⟩
  exact .reply (Json.firstObject?_pretty hfits) (Json.parse?_pretty hfits) rfl

/-- Where a section is named exactly, it is picked if its name has no blank at either end, and only
then. Its name is dropped if what is left of it without these blanks is no section. Some reply has
the section picked by name exactly if its name has no blank at either end. -/
theorem named_section_picked_iff (fallbackSections : List String) (hid : id ∈ t.sectionIds) :
    (∀ o names, Lists o names → id ∈ names →
      (id ∈ (ofReply t fallbackSections o.settled).sections ↔ Text.trim id = id)) ∧
    (∀ o names, Lists o names →
      (id ∈ (ofReply t fallbackSections o.settled).dropped ↔
        id ∈ names ∧ Text.trim id ∉ t.sectionIds)) ∧
    ((∃ o names, Lists o names ∧ id ∈ (ofReply t fallbackSections o.settled).sections) ↔
      Text.trim id = id) := by
  have htrimmed : ∀ o names, Lists o names →
      id ∈ (ofReply t fallbackSections o.settled).sections → Text.trim id = id := by
    intro o names h hpicked
    rw [ofReply_of_lists h, List.mem_eraseDups, List.mem_filter] at hpicked
    obtain ⟨n, -, rfl⟩ := List.mem_map.mp hpicked.1
    exact Text.trim_trim n
  have hpicks : ∀ o names, Lists o names → id ∈ names → Text.trim id = id →
      id ∈ (ofReply t fallbackSections o.settled).sections := by
    intro o names h hname htrim
    rw [ofReply_of_lists h, List.mem_eraseDups, List.mem_filter]
    exact ⟨List.mem_map.mpr ⟨id, hname, htrim⟩, by simpa using hid⟩
  refine ⟨fun o names h hname => ⟨htrimmed o names h, hpicks o names h hname⟩,
    fun o names h => ?_, ?_⟩
  · rw [ofReply_of_lists h, List.mem_filter, decide_eq_true_eq]
  · constructor
    · rintro ⟨o, names, h, hpicked⟩
      exact htrimmed o names h hpicked
    · intro htrim
      exact ⟨_, _, lists_naming id, hpicks _ _ (lists_naming id) List.mem_cons_self htrim⟩

theorem named_section_picked_iff_small :
    let t : Taxonomy := ⟨[⟨"Guide", ["Overview", "Usage "]⟩]⟩
    let o : Assistant.Outcome := .reply (naming "Overview").pretty
    "Overview" ∈ t.sectionIds ∧ Lists o ["Overview"] ∧
      "Overview" ∈ (ofReply t [] o.settled).sections ∧ "Usage " ∈ t.sectionIds ∧
      ¬ ∃ o names, Lists o names ∧ "Usage " ∈ (ofReply t [] o.settled).sections := by
  intro t o
  have hlists := lists_naming "Overview"
  have hoverview : "Overview" ∈ t.sectionIds := by decide
  have husage : "Usage " ∈ t.sectionIds := by decide
  obtain ⟨hpicked, -⟩ := named_section_picked_iff [] hoverview
  obtain ⟨-, -, hpossible⟩ := named_section_picked_iff [] husage
  refine ⟨hoverview, hlists, (hpicked o _ hlists List.mem_cons_self).mpr (by decide), husage,
    fun h => ?_⟩
  exact absurd (hpossible.mp h) (by decide)

/-- A section whose name begins with a blank is dropped where it is named. -/
theorem padded_section_dropped :
    let t : Taxonomy := ⟨[⟨"Guide", [" Overview"]⟩]⟩
    let o : Assistant.Outcome := .reply "\x7b\"relevant_sections\": [\" Overview\"]\x7d"
    t.check = .ok () ∧ " Overview" ∈ t.sectionIds ∧ Lists o [" Overview"] ∧
      ofReply t [" Overview"] o.settled = ⟨[], [" Overview"], false⟩ := by
  intro t o
  exact ⟨rfl, by decide, decode_eq_ok_iff.mp (by decide +kernel), by decide +kernel⟩

end Placement

end Scriptorium
