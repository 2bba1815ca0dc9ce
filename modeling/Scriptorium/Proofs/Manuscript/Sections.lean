import Scriptorium.Proofs.Compiling
import Scriptorium.Proofs.Taxonomy

/-! # Sections that stay

A manuscript over a taxonomy that was accepted has the sections of the taxonomy, each once. Texts are
replaced in these sections only, and whatever is replaced, in whatever order, the sections are the
same.
-/

namespace Scriptorium

namespace Manuscript

theorem sections_ofTexts (ids : List String) (texts : String → String) :
    (ofTexts ids texts).sections = ids := by
  simp [ofTexts, sections, Function.comp_def]

/-- Replacing a text changes that text and nothing else; where there is no such section it fails. -/
theorem replace?_spec (ids : List String) (texts : String → String) (id text : String) :
    (id ∈ ids → ∃ m, (ofTexts ids texts).replace? id text = some m ∧ m.sections = ids ∧
      ∀ k, m.get? k = if k = id then some text else (ofTexts ids texts).get? k) ∧
    (id ∉ ids → (ofTexts ids texts).replace? id text = none) := by
  refine ⟨fun hid => ⟨_, replace?_ofTexts texts text hid, sections_ofTexts _ _, fun k => ?_⟩,
    replace?_of_not_mem texts text⟩
  rw [get?_ofTexts, get?_ofTexts, Function.update_apply]
  by_cases hk : k = id
  · rw [if_pos hk, if_pos hk, if_pos (hk ▸ hid)]
  · rw [if_neg hk, if_neg hk]

/-- Over a taxonomy that repeats no section, replacements only ever set texts of its sections. -/
theorem replaceEach_of_nodup {t : Taxonomy} (h : t.sectionIds.Nodup)
    (edits : List (String × String)) :
    (ofTaxonomy t).replaceEach edits = ofTexts t.sectionIds (lastText edits) := by
  rw [replaceEach_ofTaxonomy, eraseDups_of_nodup h]

end Manuscript

namespace Taxonomy

/-- The check accepts exactly the sound taxonomies. In one that it accepts no section is repeated,
sections are counted one by one, a section has a group if and only if there is such a section, and
that is the only group that lists it. A manuscript over it has the sections of the taxonomy, and has
them after any replacements: one of a section that is there gives that section its text, and one of
any other section fails and leaves everything as it is. -/
theorem accepted_iff_sound_and_sections_stay (t : Taxonomy) :
    (t.check = .ok () ↔ t.Sound) ∧
    (t.check = .ok () →
      t.sectionIds.Nodup ∧ t.sectionCount = t.sectionIds.length ∧
      (∀ s, t.contains s = true ↔ s ∈ t.sectionIds) ∧
      (∀ s, t.contains s = true ↔ (t.groupOf? s).isSome = true) ∧
      (∀ s ∈ t.sectionIds, ∃ front g back, t.groups = front ++ g :: back ∧ s ∈ g.sections ∧
        t.groupOf? s = some g.name ∧ ∀ other ∈ front ++ back, s ∉ other.sections) ∧
      (Manuscript.ofTaxonomy t).sections = t.sectionIds ∧
      ∀ edits, let m := (Manuscript.ofTaxonomy t).replaceEach edits
        m.sections = t.sectionIds ∧ (∀ s, m.contains s = t.contains s) ∧
        ∀ s text,
          (s ∈ t.sectionIds → ∃ m', m.replace? s text = some m' ∧ m'.sections = t.sectionIds ∧
            ∀ k, m'.get? k = if k = s then some text else m.get? k) ∧
          (s ∉ t.sectionIds → m.replace? s text = none ∧ m.replaceEach [(s, text)] = m)) := by
  refine ⟨check_eq_ok_iff, fun hcheck => ?_⟩
  have hnodup : t.sectionIds.Nodup := (check_eq_ok_iff.mp hcheck).nodup
  refine ⟨hnodup, t.sectionCount_eq, fun s => contains_iff, fun s => ?_,
    fun s hs => groupOf?_of_mem hnodup hs, ?_, fun edits => ?_⟩
  · rw [isSome_groupOf?]
  · rw [Manuscript.ofTaxonomy_eq, eraseDups_of_nodup hnodup, Manuscript.sections_ofTexts]
  · dsimp only
    rw [Manuscript.replaceEach_of_nodup hnodup]
    refine ⟨Manuscript.sections_ofTexts _ _, fun s => ?_, fun s text => ?_⟩
    · rw [Manuscript.contains_ofTexts, Bool.eq_iff_iff, contains_iff, decide_eq_true_iff]
    · obtain ⟨hthere, hmissing⟩ :=
        Manuscript.replace?_spec t.sectionIds (Manuscript.lastText edits) s text
      refine ⟨hthere, fun hs => ⟨hmissing hs, ?_⟩⟩
      rw [Manuscript.replaceEach, List.foldl_cons, List.foldl_nil, hmissing hs, Option.getD_none]

/-- Two groups of one name, and replacements of which one is of a section that is not there. -/
theorem accepted_iff_sound_and_sections_stay_small :
    let t : Taxonomy := ⟨[⟨"Guide", ["Usage", "Overview"]⟩, ⟨"Guide", ["Testing"]⟩]⟩
    let edits := [("Testing", "Run it."), ("Security", "None."), ("Usage", "Call it.")]
    t.check = .ok () ∧ t.Sound ∧ t.sectionCount = 3 ∧ t.groupOf? "Testing" = some "Guide" ∧
      ((Manuscript.ofTaxonomy t).replaceEach edits).sections = ["Usage", "Overview", "Testing"] ∧
      ((Manuscript.ofTaxonomy t).replaceEach edits).replace? "Security" "None." = none := by
  intro t edits
  obtain ⟨hsound, hstays⟩ := accepted_iff_sound_and_sections_stay t
  have hcheck : t.check = .ok () := rfl
  obtain ⟨-, hcount, -, -, -, -, hreplaced⟩ := hstays hcheck
  obtain ⟨hsections, -, hreplace⟩ := hreplaced edits
  exact ⟨hcheck, hsound.mp hcheck, hcount, by decide, hsections,
    ((hreplace "Security" "None.").2 (by decide)).1⟩

end Taxonomy

end Scriptorium
