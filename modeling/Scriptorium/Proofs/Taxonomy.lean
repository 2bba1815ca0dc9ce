import Mathlib.Data.List.Nodup
import Mathlib.Tactic.Tauto
import Scriptorium.Taxonomy

/-! # Sound taxonomies

The check goes through the sections with those that it has seen. It accepts exactly the lists of
groups in which no name is blank, no group is empty and no section is listed twice, in one group or in
two. In such a list every section has one group, and that is the one it is said to have.
-/

namespace Scriptorium.Taxonomy

variable {t : Taxonomy} {id : String}

/-! ## What is accepted -/

/-- Sections are accepted after others if none is blank, repeated or one of those before. -/
theorem checkSections_eq_ok_iff {group : String} {seen l all : List String} :
    checkSections group seen l = .ok all ↔ (∀ s ∈ l, Text.blank s = false) ∧ l.Nodup ∧
      (∀ s ∈ l, s ∉ seen) ∧ all = l.reverse ++ seen := by
  induction l generalizing seen with
  | nil =>
      rw [checkSections, Except.ok.injEq, eq_comm]
      simp
  | cons a l ih =>
      unfold checkSections
      by_cases hblank : Text.blank a = true
      · simp [hblank]
      · by_cases hseen : a ∈ seen
        · simp [hblank, hseen]
        · have hfresh : (∀ s ∈ l, s ∉ a :: seen) ↔ a ∉ l ∧ ∀ s ∈ l, s ∉ seen := by
            simp only [List.mem_cons, not_or, forall_and]
            exact and_congr_left fun _ => ⟨fun h ha => h a ha rfl, fun h s hs heq => h (heq ▸ hs)⟩
          rw [if_neg hblank, if_neg hseen, ih, hfresh]
          simp only [List.forall_mem_cons, List.nodup_cons, List.reverse_cons, List.append_assoc,
            List.singleton_append, hblank, hseen]
          tauto

theorem checkGroups_cons_eq_ok_iff {seen : List String} {g : Group} {groups : List Group} :
    checkGroups seen (g :: groups) = .ok () ↔ Text.blank g.name = false ∧ g.sections ≠ [] ∧
      ∃ all, checkSections g.name seen g.sections = .ok all ∧ checkGroups all groups = .ok () := by
  rw [checkGroups]
  by_cases hblank : Text.blank g.name = true
  · simp [hblank]
  · by_cases hempty : g.sections.isEmpty = true
    · simp [hblank, List.isEmpty_iff.mp hempty]
    · have hname : Text.blank g.name = false := Bool.eq_false_iff.mpr hblank
      have hfilled : g.sections ≠ [] := mt List.isEmpty_iff.mpr hempty
      rw [if_neg hblank, if_neg hempty]
      cases checkSections g.name seen g.sections with
      | error e => simp [bind, Except.bind]
      | ok all => simp [bind, Except.bind, hname, hfilled]

/-- Groups are accepted after sections if each has a name and sections, and none of their sections is
blank, repeated or one of those before. -/
theorem checkGroups_eq_ok_iff {seen : List String} {groups : List Group} :
    checkGroups seen groups = .ok () ↔
      (∀ g ∈ groups, Text.blank g.name = false ∧ g.sections ≠ [] ∧
        ∀ s ∈ g.sections, Text.blank s = false) ∧
      (groups.flatMap (·.sections)).Nodup ∧ ∀ s ∈ groups.flatMap (·.sections), s ∉ seen := by
  induction groups generalizing seen with
  | nil => simp [checkGroups]
  | cons g groups ih =>
      have happart (l rest : List String) :
          (∀ a ∈ l, ∀ b ∈ rest, a ≠ b) ↔ ∀ s ∈ rest, s ∉ l :=
        ⟨fun h s hs hin => h s hin s hs rfl, fun h a ha b hb hab => h b hb (hab ▸ ha)⟩
      have hafter (rest : List String) : (∀ s ∈ rest, s ∉ g.sections.reverse ++ seen) ↔
          (∀ s ∈ rest, s ∉ g.sections) ∧ ∀ s ∈ rest, s ∉ seen := by
        simp only [List.mem_append, List.mem_reverse, not_or, forall_and]
      simp only [checkGroups_cons_eq_ok_iff, checkSections_eq_ok_iff, ih, and_assoc,
        exists_and_left, exists_eq_left, hafter, List.flatMap_cons, List.nodup_append, happart,
        List.forall_mem_cons, List.forall_mem_append]
      tauto

/-- At least one group, each with a name and sections, and no section blank or listed twice. -/
structure Sound (t : Taxonomy) : Prop where
  groups : t.groups ≠ []
  named : ∀ g ∈ t.groups, Text.blank g.name = false
  filled : ∀ g ∈ t.groups, g.sections ≠ []
  nonblank : ∀ g ∈ t.groups, ∀ s ∈ g.sections, Text.blank s = false
  within : ∀ g ∈ t.groups, g.sections.Nodup
  across : t.groups.Pairwise fun g h => ∀ s ∈ g.sections, s ∉ h.sections

theorem nodup_sectionIds_iff : t.sectionIds.Nodup ↔ (∀ g ∈ t.groups, g.sections.Nodup) ∧
    t.groups.Pairwise fun g h => ∀ s ∈ g.sections, s ∉ h.sections := List.nodup_flatMap

theorem Sound.nodup (h : t.Sound) : t.sectionIds.Nodup :=
  nodup_sectionIds_iff.mpr ⟨h.within, h.across⟩

/-- The check accepts exactly the sound taxonomies. -/
theorem check_eq_ok_iff : t.check = .ok () ↔ t.Sound := by
  unfold check
  by_cases hempty : t.groups.isEmpty = true
  · rw [if_pos hempty]
    exact ⟨fun h => (nomatch h), fun h => absurd (List.isEmpty_iff.mp hempty) h.groups⟩
  · rw [if_neg hempty, checkGroups_eq_ok_iff]
    constructor
    · rintro ⟨hgroups, hnodup, -⟩
      obtain ⟨hwithin, hacross⟩ := nodup_sectionIds_iff.mp hnodup
      exact {
        groups := mt List.isEmpty_iff.mpr hempty
        named := fun g hg => (hgroups g hg).1
        filled := fun g hg => (hgroups g hg).2.1
        nonblank := fun g hg => (hgroups g hg).2.2
        within := hwithin
        across := hacross }
    · intro h
      exact ⟨fun g hg => ⟨h.named g hg, h.filled g hg, h.nonblank g hg⟩, h.nodup,
        fun _ _ => List.not_mem_nil⟩

/-- A section of one group that is listed in the next. -/
example : check ⟨[⟨"Guide", ["Usage"]⟩, ⟨"Operations", ["Testing", "Usage"]⟩]⟩ =
    .error (.repeatedSection "Usage") := by
  rfl

/-! ## Sections and their groups -/

theorem contains_iff : t.contains id = true ↔ id ∈ t.sectionIds := by
  simp [contains]

theorem sectionCount_eq (t : Taxonomy) : t.sectionCount = t.sectionIds.length := by
  have hcount (groups : List Group) (n : Nat) :
      groups.foldl (fun n g => n + g.sections.length) n =
        n + (groups.flatMap (·.sections)).length := by
    induction groups generalizing n with
    | nil => rfl
    | cons g groups ih =>
        rw [List.foldl_cons, ih, List.flatMap_cons, List.length_append, Nat.add_assoc]
  rw [sectionCount, hcount, Nat.zero_add, sectionIds]

theorem isSome_groupOf? (t : Taxonomy) (id : String) : (t.groupOf? id).isSome = t.contains id := by
  rw [Bool.eq_iff_iff, contains_iff]
  simp [groupOf?, sectionIds]

/-- In a taxonomy that repeats no section, one group lists a section, and it is the one found. -/
theorem groupOf?_of_mem (h : t.sectionIds.Nodup) (hid : id ∈ t.sectionIds) :
    ∃ front g back, t.groups = front ++ g :: back ∧ id ∈ g.sections ∧
      t.groupOf? id = some g.name ∧ ∀ other ∈ front ++ back, id ∉ other.sections := by
  cases hfind : t.groups.find? (·.sections.contains id) with
  | none =>
      have hsome := isSome_groupOf? t id
      rw [groupOf?, hfind, contains_iff.mpr hid] at hsome
      cases hsome
  | some g =>
      obtain ⟨hg, front, back, hgroups, hfront⟩ := List.find?_eq_some_iff_append.mp hfind
      have hlisted : id ∈ g.sections := by simpa using hg
      have hacross := (nodup_sectionIds_iff.mp h).2
      rw [hgroups, List.pairwise_append, List.pairwise_cons] at hacross
      refine ⟨front, g, back, hgroups, hlisted, by rw [groupOf?, hfind]; rfl, fun other ho => ?_⟩
      rcases List.mem_append.mp ho with ho | ho
      · simpa using hfront other ho
      · exact hacross.2.1.1 other ho id hlisted

end Scriptorium.Taxonomy
