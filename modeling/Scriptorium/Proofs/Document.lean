import Scriptorium.Proofs.Manuscript
import Scriptorium.Proofs.Text.Content

/-! # Documents as functions of texts

Compiling succeeds exactly when the manuscript has all sections of the taxonomy, and the document is
then a function of their texts. It has an entry for each section that is shown with some text, it is
empty when there is none, and it has the content lines of every section.
-/

namespace Scriptorium

namespace Document

/-! ## Compiling -/

/-- The sections that are shown with some text, with that text. -/
def listed (texts : String → String) (ids : List String) : List (String × String) :=
  (ids.map fun id => (id, shown (texts id))).filter fun (_, text) => text ≠ ""

def heading : Option String → String
  | some s => if Text.blank s then "" else "# " ++ Text.trim s ++ "\n\n"
  | none => ""

def body (t : Taxonomy) (texts : String → String) : String :=
  String.join (t.groups.map fun g => groupText g (listed texts g.sections))

def render (t : Taxonomy) (title : Option String) (texts : String → String) : String :=
  if body t texts = "" then "" else heading title ++ Text.trimEnd (body t texts) ++ "\n"

end Document

def Manuscript.textOf (m : Manuscript) (id : String) : String := (m.get? id).getD ""

theorem Manuscript.textOf_of_get? {m : Manuscript} {id text : String} (h : m.get? id = some text) :
    m.textOf id = text := by
  rw [textOf, h, Option.getD_some]

theorem Manuscript.textOf_ofTexts {ids : List String} {id : String} (texts : String → String)
    (h : id ∈ ids) : (ofTexts ids texts).textOf id = texts id := by
  apply textOf_of_get?
  rw [get?_ofTexts, if_pos h]

namespace Document

variable {t : Taxonomy} {m : Manuscript} {texts : String → String} {id : String}

theorem entries_eq_ok_iff {g : Group} {es : List (String × String)} :
    entries m g = .ok es ↔
      (∀ id ∈ g.sections, m.contains id = true) ∧ es = listed m.textOf g.sections := by
  unfold entries listed
  rw [bind_eq_ok_iff]
  have hall : ∀ id b, (match m.get? id with
      | some text => Except.ok (id, shown text)
      | none => .error (⟨id, g.name⟩ : MissingSection)) = .ok b ↔
        m.contains id = true ∧ b = (id, shown (m.textOf id)) := by
    intro id b
    rw [Manuscript.contains, Manuscript.textOf]
    cases m.get? id with
    | none => simp
    | some text => simp [eq_comm]
  constructor
  · rintro ⟨all, hmap, heq⟩
    obtain ⟨hin, rfl⟩ := (mapM_eq_ok_iff hall).mp hmap
    exact ⟨hin, (Except.ok.inj heq).symm⟩
  · rintro ⟨hin, rfl⟩
    exact ⟨_, (mapM_eq_ok_iff hall).mpr ⟨hin, rfl⟩, rfl⟩

/-- Compiling succeeds exactly when no section is missing, and the texts decide the document. -/
theorem compile_eq_ok_iff {title : Option String} {doc : String} :
    compile t title m = .ok doc ↔
      (∀ id ∈ t.sectionIds, m.contains id = true) ∧ doc = render t title m.textOf := by
  unfold compile
  rw [bind_eq_ok_iff]
  have hall : ∀ g b, (do return groupText g (← entries m g) : Except MissingSection String) =
      .ok b ↔ (∀ id ∈ g.sections, m.contains id = true) ∧
        b = groupText g (listed m.textOf g.sections) := by
    intro g b
    rw [bind_eq_ok_iff]
    constructor
    · rintro ⟨es, hes, heq⟩
      obtain ⟨hin, rfl⟩ := entries_eq_ok_iff.mp hes
      exact ⟨hin, (Except.ok.inj heq).symm⟩
    · rintro ⟨hin, rfl⟩
      exact ⟨_, entries_eq_ok_iff.mpr ⟨hin, rfl⟩, rfl⟩
  have hids : (∀ id ∈ t.sectionIds, m.contains id = true) ↔
      ∀ g ∈ t.groups, ∀ id ∈ g.sections, m.contains id = true := by
    simp only [Taxonomy.sectionIds, List.mem_flatMap]
    exact ⟨fun h g hg id hid => h id ⟨g, hg, hid⟩, fun h id ⟨g, hg, hid⟩ => h g hg id hid⟩
  rw [hids]
  have hrender : ∀ out, (if body t m.textOf = "" then return ""
      else return heading title ++ Text.trimEnd (body t m.textOf) ++ "\n" :
        Except MissingSection String) = .ok out ↔ out = render t title m.textOf := by
    intro out
    unfold render
    split <;> simp [pure, Except.pure, eq_comm]
  constructor
  · rintro ⟨parts, hparts, hdoc⟩
    obtain ⟨hin, rfl⟩ := (mapM_eq_ok_iff hall).mp hparts
    exact ⟨hin, (hrender doc).mp hdoc⟩
  · rintro ⟨hin, hdoc⟩
    exact ⟨_, (mapM_eq_ok_iff hall).mpr ⟨hin, rfl⟩, (hrender doc).mpr hdoc⟩

/-! ## Entries -/

/-- The entries of all groups can be had when no section is missing, and the texts decide them. -/
theorem mapM_entries (h : ∀ id ∈ t.sectionIds, m.contains id = true) :
    t.groups.mapM (entries m) = .ok (t.groups.map fun g => listed m.textOf g.sections) := by
  refine (mapM_eq_ok_iff fun g es => entries_eq_ok_iff).mpr ⟨fun g hg id hid => ?_, rfl⟩
  exact h id (List.mem_flatMap.mpr ⟨g, hg, hid⟩)

/-- The entries of all groups are for the sections that are shown with some text, in order. -/
theorem names_listed (t : Taxonomy) (texts : String → String) :
    (t.groups.map fun g => listed texts g.sections).flatten.map (·.1) =
      t.sectionIds.filter fun id => shown (texts id) ≠ "" := by
  have hgroup : ∀ ids : List String, (listed texts ids).map (·.1) =
      ids.filter fun id => shown (texts id) ≠ "" := by
    intro ids
    induction ids with
    | nil => rfl
    | cons id ids ih =>
        by_cases hid : shown (texts id) = ""
        · simpa [listed, hid] using ih
        · simpa [listed, hid] using ih
  rw [Taxonomy.sectionIds]
  generalize t.groups = groups
  induction groups with
  | nil => rfl
  | cons g groups ih =>
      rw [List.map_cons, List.flatten_cons, List.map_append, hgroup, ih, List.flatMap_cons,
        List.filter_append]

theorem groupText_eq_empty_iff {g : Group} {es : List (String × String)} :
    groupText g es = "" ↔ es = [] := by
  unfold groupText
  split
  next h => simpa using h
  next h =>
    have hne : es ≠ [] := by simpa using h
    simp [String.append_eq_empty_iff, hne]

theorem join_eq_empty_iff {l : List String} : String.join l = "" ↔ ∀ s ∈ l, s = "" := by
  induction l with
  | nil => simp
  | cons s l ih => simp [String.append_eq_empty_iff, ih]

/-- A document is empty exactly when no section is shown with some text. -/
theorem render_eq_empty_iff {title : Option String} :
    render t title texts = "" ↔ ∀ id ∈ t.sectionIds, shown (texts id) = "" := by
  have hbody : body t texts = "" ↔ ∀ id ∈ t.sectionIds, shown (texts id) = "" := by
    unfold body
    rw [join_eq_empty_iff, List.forall_mem_map]
    simp only [groupText_eq_empty_iff, listed, List.filter_eq_nil_iff, List.forall_mem_map,
      Taxonomy.sectionIds, List.mem_flatMap]
    constructor
    · rintro h id ⟨g, hg, hid⟩
      simpa using h g hg id hid
    · intro h g hg id hid
      simpa using h id ⟨g, hg, hid⟩
  rw [← hbody, render]
  split
  next h => simp [h]
  next h => simp [String.append_eq_empty_iff, h]

/-! ## Content -/

open Text

theorem contentLines_shown (text : String) : contentLines (shown text) = contentLines text := by
  rw [shown, contentLines_trim, contentLines_unfence]

/-- What is shown of a text with content is not empty. -/
theorem shown_ne_empty {text : String} (h : contentLines text ≠ []) : shown text ≠ "" := by
  intro hempty
  rw [← contentLines_shown, hempty] at h
  exact h rfl

theorem shown_of_blank {text : String} (h : blank text = true) : shown text = "" := by
  have hstripped : stripBlanks text.toList = [] :=
    stripBlanks_of_blank (by simpa [blank] using h)
  have hsame : unfence text = text := by
    rw [unfence, unfenceChars, hstripped, splitLines, String.ofList_toList]
  rw [shown, hsame, trim_of_blank h]

def Hollow (text : String) : Prop := blank text = false ∧ shown text = ""

instance : DecidablePred Hollow := fun _ => inferInstanceAs (Decidable (_ ∧ _))

theorem shown_ne_empty_iff {text : String} :
    shown text ≠ "" ↔ blank text = false ∧ ¬ Hollow text := by
  unfold Hollow
  cases hblank : blank text with
  | true => simp [shown_of_blank hblank]
  | false => simp

/-- A group has the content lines of its heading and of its entries. -/
theorem contentLines_groupText (g : Group) (es : List (String × String)) :
    EndsLine (groupText g es) ∧
      ∀ e ∈ es, contentLines e.2 <:+: contentLines (groupText g es) := by
  unfold groupText
  split
  next h =>
    have hnil : es = [] := by simpa using h
    subst hnil
    exact ⟨endsLine_empty, by simp⟩
  · have hentry : ∀ s ∈ es.map fun (id, text) => "### " ++ id ++ "\n\n" ++ text ++ "\n\n",
        EndsLine s := by
      intro s hs
      obtain ⟨e, -, rfl⟩ := List.mem_map.mp hs
      exact endsLine_append_blankLine _
    obtain ⟨hjoin, hends⟩ := contentLines_join hentry
    have hhead := endsLine_append_blankLine ("## " ++ g.name)
    refine ⟨hhead.append hends, fun e he => ?_⟩
    have hself : contentLines e.2 <:+:
        contentLines ("### " ++ e.1 ++ "\n\n" ++ e.2 ++ "\n\n") := by
      rw [contentLines_append_blankLine, endsLine_append_blankLine]
      exact (List.suffix_append _ _).isInfix
    have hin := List.infix_flatMap_of_mem
      (List.mem_map_of_mem (f := fun x : String × String =>
        "### " ++ x.1 ++ "\n\n" ++ x.2 ++ "\n\n") he) contentLines
    rw [hhead, hjoin]
    exact (hself.trans hin).trans (List.suffix_append _ _).isInfix

theorem endsLine_heading (title : Option String) : EndsLine (heading title) := by
  cases title with
  | none => exact endsLine_empty
  | some s =>
      simp only [heading]
      by_cases h : Text.blank s = true
      · rw [if_pos h]
        exact endsLine_empty
      · rw [if_neg h]
        exact endsLine_append_blankLine _

/-- A document has the content lines of each of its sections, side by side and in their order. -/
theorem contentLines_render (title : Option String) (h : id ∈ t.sectionIds) :
    contentLines (texts id) <:+: contentLines (render t title texts) := by
  by_cases hshown : shown (texts id) = ""
  · rw [← contentLines_shown, hshown]
    exact List.nil_infix
  · have hbody : body t texts ≠ "" := by
      intro hempty
      have hrender : render t title texts = "" := by rw [render, if_pos hempty]
      exact hshown (render_eq_empty_iff.mp hrender id h)
    obtain ⟨g, hg, hid⟩ := List.mem_flatMap.mp h
    have hgroups : ∀ s ∈ t.groups.map fun g => groupText g (listed texts g.sections),
        EndsLine s := by
      intro s hs
      obtain ⟨g, -, rfl⟩ := List.mem_map.mp hs
      exact (contentLines_groupText g _).1
    obtain ⟨hjoin, -⟩ := contentLines_join hgroups
    have hlisted : (id, shown (texts id)) ∈ listed texts g.sections :=
      List.mem_filter.mpr ⟨List.mem_map_of_mem hid, by simpa using hshown⟩
    have hgroup := (contentLines_groupText g _).2 _ hlisted
    have hin := List.infix_flatMap_of_mem (List.mem_map_of_mem
      (f := fun g => groupText g (listed texts g.sections)) hg) contentLines
    rw [contentLines_shown] at hgroup
    rw [render, if_neg hbody, contentLines_append_newline, endsLine_heading, contentLines_trimEnd,
      body, hjoin]
    exact (hgroup.trans hin).trans (List.suffix_append _ _).isInfix

end Document

end Scriptorium
