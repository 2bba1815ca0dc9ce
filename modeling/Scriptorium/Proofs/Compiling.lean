import Scriptorium.Proofs.Document
import Scriptorium.Proofs.Settings
import Scriptorium.Proofs.Text.Lines

/-! # Documents as blocks

A document is a list of blocks with a blank line between any two: its title, and for each group that
has text the heading of the group, then the heading and the text of each such section. Which blocks
there are depends on the last texts of the sections alone. A manuscript over another taxonomy gives
the same document, or the first section that it lacks is told.
-/

namespace Scriptorium

namespace Manuscript

/-- The manuscript after replacements in order; one of a section that it does not have does nothing. -/
def replaceEach (m : Manuscript) (edits : List (String × String)) : Manuscript :=
  edits.foldl (fun m e => (m.replace? e.1 e.2).getD m) m

theorem replaceEach_append (m : Manuscript) (edits : List (String × String))
    (e : String × String) : m.replaceEach (edits ++ [e]) =
      ((m.replaceEach edits).replace? e.1 e.2).getD (m.replaceEach edits) := by
  rw [replaceEach, List.foldl_append]
  rfl

theorem replace?_of_not_mem {ids : List String} {id : String} (texts : String → String)
    (text : String) (h : id ∉ ids) : (ofTexts ids texts).replace? id text = none := by
  unfold replace?
  rw [contains_ofTexts, if_neg (by simpa using h)]

theorem ofTexts_congr {ids : List String} {texts others : String → String}
    (h : ∀ id ∈ ids, texts id = others id) : ofTexts ids texts = ofTexts ids others := by
  refine congrArg Manuscript.mk (List.map_congr_left fun id hid => ?_)
  rw [h id hid]

/-- A manuscript that texts were replaced in has the last text of each of its sections. -/
theorem replaceEach_ofTaxonomy (t : Taxonomy) (edits : List (String × String)) :
    (ofTaxonomy t).replaceEach edits = ofTexts t.sectionIds.eraseDups (lastText edits) := by
  induction edits using List.reverseRecOn with
  | nil => exact ofTaxonomy_eq t
  | append_singleton edits e ih =>
      rw [replaceEach_append, ih, lastText_concat]
      by_cases he : e.1 ∈ t.sectionIds.eraseDups
      · rw [replace?_ofTexts _ _ he, Option.getD_some]
      · rw [replace?_of_not_mem _ _ he, Option.getD_none]
        refine ofTexts_congr fun id hid => ?_
        rw [Function.update_of_ne (ne_of_mem_of_not_mem hid he)]

end Manuscript

namespace Document

open Manuscript (lastText)
open Text (EndsSolid)

variable {t : Taxonomy} {texts : String → String}

/-! ## Blocks -/

def hasText (text : String) : Bool := !Text.blank (Text.unfence text)

def sectionBlocks (texts : String → String) (id : String) : List String :=
  ["### " ++ id, Text.trim (Text.unfence (texts id))]

/-- The blocks of a group: none when no section has text, else its heading and those of each section
that has. -/
def groupBlocks (texts : String → String) (g : Group) : List String :=
  match g.sections.filter fun id => hasText (texts id) with
  | [] => []
  | ids => ("## " ++ g.name) :: ids.flatMap (sectionBlocks texts)

def titleBlocks : Option String → List String
  | some s => if Text.blank s then [] else ["# " ++ Text.trim s]
  | none => []

/-- The blocks of a document, without any when no section has text. -/
def blocks (t : Taxonomy) (title : Option String) (texts : String → String) : List String :=
  match t.groups.flatMap (groupBlocks texts) with
  | [] => []
  | bs => titleBlocks title ++ bs

/-- Blocks with a blank line between any two and one line feed at the end; no blocks are the empty
document. -/
def laidOut (bs : List String) : String :=
  if bs = [] then "" else "\n\n".intercalate bs ++ "\n"

/-! ## Blocks as they are joined -/

theorem shown_eq_empty_iff {text : String} : shown text = "" ↔ hasText text = false := by
  rw [shown, hasText, Bool.not_eq_false']
  constructor
  · intro h
    have hnil : Text.stripBlanks (Text.unfence text).toList = [] := by
      simpa [Text.trim] using h
    exact Text.blank_of_stripBlanks hnil
  · exact Text.trim_of_blank

theorem listed_eq (texts : String → String) (ids : List String) :
    listed texts ids =
      (ids.filter fun id => hasText (texts id)).map fun id => (id, shown (texts id)) := by
  rw [listed, List.filter_map]
  refine congrArg _ (List.filter_congr fun id _ => ?_)
  have h : shown (texts id) = "" ↔ hasText (texts id) = false := shown_eq_empty_iff
  cases hhas : hasText (texts id) with
  | true => simpa [hhas] using h
  | false => simpa [hhas] using h

def spaced (bs : List String) : String := String.join (bs.map (· ++ "\n\n"))

theorem spaced_append (bs cs : List String) : spaced (bs ++ cs) = spaced bs ++ spaced cs := by
  simp [spaced]

theorem spaced_flatMap {α : Type} (f : α → List String) (l : List α) :
    spaced (l.flatMap f) = String.join (l.map fun a => spaced (f a)) := by
  induction l with
  | nil => rfl
  | cons a l ih => rw [List.flatMap_cons, spaced_append, ih, List.map_cons, String.join_cons]

theorem spaced_eq_empty_iff {bs : List String} : spaced bs = "" ↔ bs = [] := by
  cases bs with
  | nil => simp [spaced]
  | cons b bs => simp [spaced, String.append_eq_empty_iff]

theorem spaced_eq_intercalate {bs : List String} (h : bs ≠ []) :
    spaced bs = "\n\n".intercalate bs ++ "\n\n" := Text.join_append_eq "\n\n" h

theorem spaced_groupBlocks (texts : String → String) (g : Group) :
    spaced (groupBlocks texts g) = groupText g (listed texts g.sections) := by
  rw [listed_eq, groupBlocks]
  cases hids : g.sections.filter fun id => hasText (texts id) with
  | nil => rfl
  | cons id ids =>
      have hentries : spaced ((id :: ids).flatMap (sectionBlocks texts)) =
          String.join (((id :: ids).map fun id => (id, shown (texts id))).map
            fun e => "### " ++ e.1 ++ "\n\n" ++ e.2 ++ "\n\n") := by
        rw [spaced_flatMap, List.map_map]
        refine congrArg _ (List.map_congr_left fun k _ => ?_)
        simp [spaced, sectionBlocks, shown, String.append_assoc]
      have hhead : spaced (("## " ++ g.name) :: (id :: ids).flatMap (sectionBlocks texts)) =
          "## " ++ g.name ++ "\n\n" ++ spaced ((id :: ids).flatMap (sectionBlocks texts)) := by
        simp [spaced]
      rw [hhead, hentries, groupText]
      simp

theorem spaced_titleBlocks (title : Option String) : spaced (titleBlocks title) = heading title := by
  cases title with
  | none => rfl
  | some s =>
      rw [titleBlocks, heading]
      split
      · rfl
      · simp [spaced]

theorem body_eq_spaced (t : Taxonomy) (texts : String → String) :
    body t texts = spaced (t.groups.flatMap (groupBlocks texts)) := by
  rw [body, spaced_flatMap]
  refine congrArg _ (List.map_congr_left fun g _ => ?_)
  rw [spaced_groupBlocks]

/-! ## The document of blocks -/

def SolidAtEnd (bs : List String) : Prop := ∀ b, bs.getLast? = some b → EndsSolid b

theorem SolidAtEnd.append {bs cs : List String} (hbs : SolidAtEnd bs) (hcs : SolidAtEnd cs) :
    SolidAtEnd (bs ++ cs) := by
  intro b hb
  rw [List.getLast?_append] at hb
  cases hlast : cs.getLast? with
  | none =>
      rw [hlast] at hb
      exact hbs b hb
  | some c =>
      rw [hlast] at hb
      exact hcs b (hlast.trans hb)

theorem SolidAtEnd.flatMap {α : Type} {f : α → List String} {l : List α}
    (h : ∀ a ∈ l, SolidAtEnd (f a)) : SolidAtEnd (l.flatMap f) := by
  induction l with
  | nil => intro b hb; cases hb
  | cons a l ih =>
      rw [List.flatMap_cons]
      exact (h a List.mem_cons_self).append (ih fun x hx => h x (List.mem_cons_of_mem a hx))

theorem solidAtEnd_groupBlocks (texts : String → String) (g : Group) :
    SolidAtEnd (groupBlocks texts g) := by
  rw [groupBlocks]
  cases hids : g.sections.filter fun id => hasText (texts id) with
  | nil => intro b hb; cases hb
  | cons id ids =>
      have hsections : SolidAtEnd ((id :: ids).flatMap (sectionBlocks texts)) := by
        refine .flatMap fun k hk b hb => ?_
        obtain rfl : Text.trim (Text.unfence (texts k)) = b := by simpa [sectionBlocks] using hb
        rw [← hids] at hk
        exact Text.endsSolid_trim (by simpa [hasText] using (List.mem_filter.mp hk).2)
      intro b hb
      rw [List.flatMap_cons] at hsections
      exact hsections b (by simpa [sectionBlocks] using hb)

theorem endsSolid_intercalate {bs : List String} (hne : bs ≠ []) (h : SolidAtEnd bs) :
    EndsSolid ("\n\n".intercalate bs) := by
  obtain ⟨front, last, rfl⟩ := List.eq_nil_or_concat'  bs |>.resolve_left hne
  have hlast : EndsSolid last := h last (by simp)
  by_cases hfront : front = []
  · simpa [hfront] using hlast
  · rw [String.intercalate_append_of_ne_nil hfront (by simp), String.intercalate_singleton]
    exact hlast.append _

/-- A document is its blocks with blank lines between them. -/
theorem render_eq_laidOut (t : Taxonomy) (title : Option String) (texts : String → String) :
    render t title texts = laidOut (blocks t title texts) := by
  rw [render, body_eq_spaced, blocks]
  cases hgroups : t.groups.flatMap (groupBlocks texts) with
  | nil => rfl
  | cons b bs =>
      have hne : b :: bs ≠ [] := List.cons_ne_nil b bs
      have hsolid : SolidAtEnd (b :: bs) :=
        hgroups ▸ .flatMap fun g _ => solidAtEnd_groupBlocks texts g
      rw [if_neg (mt spaced_eq_empty_iff.mp hne), spaced_eq_intercalate hne,
        (endsSolid_intercalate hne hsolid).trimEnd, laidOut, if_neg (by simp), ← spaced_titleBlocks]
      by_cases htitle : titleBlocks title = []
      · simp [htitle, spaced]
      · rw [spaced_eq_intercalate htitle, String.intercalate_append_of_ne_nil htitle hne]

theorem blocks_congr {others : String → String} (title : Option String)
    (h : ∀ id ∈ t.sectionIds, texts id = others id) : blocks t title texts = blocks t title others := by
  have hgroup : ∀ g ∈ t.groups, groupBlocks texts g = groupBlocks others g := by
    intro g hg
    have hsame : ∀ id ∈ g.sections, texts id = others id :=
      fun id hid => h id (List.mem_flatMap.mpr ⟨g, hg, hid⟩)
    have hkept : (g.sections.filter fun id => hasText (texts id)) =
        g.sections.filter fun id => hasText (others id) :=
      List.filter_congr fun id hid => by rw [hsame id hid]
    rw [groupBlocks, groupBlocks, hkept]
    cases hids : g.sections.filter fun id => hasText (others id) with
    | nil => rfl
    | cons id ids =>
        refine congrArg _ (List.flatMap_congr fun k hk => ?_)
        rw [← hids] at hk
        rw [sectionBlocks, sectionBlocks, hsame k (List.mem_of_mem_filter hk)]
  rw [blocks, blocks, List.flatMap_congr hgroup]

theorem laidOut_blocks_eq_empty_iff {title : Option String} :
    laidOut (blocks t title texts) = "" ↔
      ∀ id ∈ t.sectionIds, Text.blank (Text.unfence (texts id)) = true := by
  rw [← render_eq_laidOut, render_eq_empty_iff]
  simp only [shown_eq_empty_iff, hasText, Bool.not_eq_false']

theorem endsSolid_of_laidOut {title : Option String} (h : laidOut (blocks t title texts) ≠ "") :
    ∃ body, EndsSolid body ∧ laidOut (blocks t title texts) = body ++ "\n" := by
  rw [laidOut] at h ⊢
  split at h
  · exact absurd rfl h
  next hne =>
    have hsolid : SolidAtEnd (t.groups.flatMap (groupBlocks texts)) :=
      .flatMap fun g _ => solidAtEnd_groupBlocks texts g
    refine ⟨_, endsSolid_intercalate hne ?_, if_neg hne⟩
    rw [blocks]
    cases hgroups : t.groups.flatMap (groupBlocks texts) with
    | nil => intro b hb; cases hb
    | cons b bs =>
        rw [hgroups] at hsolid
        intro c hc
        exact hsolid c (by simpa [List.getLast?_append] using hc)

/-! ## Sections that are missing -/

def neededBy (g : Group) : List MissingSection := g.sections.map fun id => ⟨id, g.name⟩

def needed (t : Taxonomy) : List MissingSection := t.groups.flatMap neededBy

theorem entries_eq (m : Manuscript) (g : Group) :
    entries m g = ((neededBy g).find? fun e => !m.contains e.id).elim
      (.ok (listed m.textOf g.sections)) .error := by
  rw [entries, mapM_eq_elim (Option.guard (fun e => !m.contains e.id) ∘ fun id => ⟨id, g.name⟩)
    (fun id => (id, shown (m.textOf id))) (fun id => ?_), ← List.findSome?_map,
    List.findSome?_guard, neededBy]
  · cases (g.sections.map fun id => (⟨id, g.name⟩ : MissingSection)).find? fun e =>
      !m.contains e.id <;> rfl
  · rw [Manuscript.textOf]
    cases hid : m.get? id <;> simp [Option.guard, Manuscript.contains, hid]

/-- Compiling fails exactly when a section is missing, and tells the first one. -/
theorem compile_eq_error_iff {title : Option String} {m : Manuscript} {e : MissingSection} :
    compile t title m = .error e ↔ (needed t).find? (fun e => !m.contains e.id) = some e := by
  unfold compile
  rw [needed, List.find?_flatMap, mapM_eq_elim
    (fun g => (neededBy g).find? fun e => !m.contains e.id)
    (fun g => groupText g (listed m.textOf g.sections)) (fun g => ?_)]
  · cases t.groups.findSome? fun g => (neededBy g).find? fun e => !m.contains e.id with
    | some e => simp [bind, Except.bind]
    | none =>
        simp only [Option.elim_none, bind, Except.bind, pure, Except.pure]
        split <;> simp
  · rw [entries_eq]
    cases (neededBy g).find? fun e => !m.contains e.id <;> rfl

/-! ## Manuscripts that texts were replaced in -/

theorem compile_replaced (t : Taxonomy) (title : Option String) (edits : List (String × String)) :
    compile t title ((Manuscript.ofTaxonomy t).replaceEach edits) =
      .ok (laidOut (blocks t title (lastText edits))) := by
  have hids : ∀ id ∈ t.sectionIds, id ∈ t.sectionIds.eraseDups :=
    fun id hid => List.mem_eraseDups.mpr hid
  rw [Manuscript.replaceEach_ofTaxonomy]
  refine compile_eq_ok_iff.mpr ⟨fun id hid => ?_, ?_⟩
  · rw [Manuscript.contains_ofTexts, decide_eq_true (hids id hid)]
  · rw [render_eq_laidOut]
    refine congrArg laidOut (blocks_congr title fun id hid => ?_)
    rw [Manuscript.textOf_ofTexts _ (hids id hid)]

/-- A manuscript with replaced texts compiles to the blocks of its last texts: to the empty document
when nothing is left of any text without its fence, and otherwise to one that ends in one line feed.
Other replacements with the same last texts give the same document. For a manuscript over another
taxonomy compiling fails exactly when that lacks a section, and tells the first one. -/
theorem compile_replaceEach (t : Taxonomy) (title : Option String)
    (edits : List (String × String)) :
    let doc := laidOut (blocks t title (lastText edits))
    compile t title ((Manuscript.ofTaxonomy t).replaceEach edits) = .ok doc ∧
      (doc = "" ↔ ∀ id ∈ t.sectionIds, Text.blank (Text.unfence (lastText edits id)) = true) ∧
      (doc ≠ "" → ∃ body, EndsSolid body ∧ doc = body ++ "\n") ∧
      (∀ others, (∀ id ∈ t.sectionIds, lastText others id = lastText edits id) →
        compile t title ((Manuscript.ofTaxonomy t).replaceEach others) = .ok doc) ∧
      ∀ (u : Taxonomy) (others : List (String × String)) (e : MissingSection),
        compile t title ((Manuscript.ofTaxonomy u).replaceEach others) = .error e ↔
          (needed t).find? (fun e => !u.contains e.id) = some e := by
  refine ⟨compile_replaced t title edits, laidOut_blocks_eq_empty_iff, endsSolid_of_laidOut,
    fun others hsame => ?_, fun u others e => ?_⟩
  · rw [compile_replaced, blocks_congr title hsame]
  · have hcontains : ∀ id, ((Manuscript.ofTaxonomy u).replaceEach others).contains id =
        u.contains id := by
      intro id
      rw [Manuscript.replaceEach_ofTaxonomy, Manuscript.contains_ofTexts, Taxonomy.contains]
      simp
    rw [compile_eq_error_iff]
    simp only [hcontains]

end Document

end Scriptorium
