import Mathlib.Data.List.Induction
import Mathlib.Logic.Function.Basic
import Scriptorium.Run.Fanout
import Scriptorium.Document
import Scriptorium.Proofs.Lists

/-! # Manuscripts as texts by section

A manuscript is read as the function that gives each of its sections a text. Replacing a text is
an update of that function at one section, and replacing drafts one after the other updates it at
all their sections, the last draft of a section counting. A manuscript over the sections of a
taxonomy can always be compiled.
-/

namespace Scriptorium

namespace Manuscript

def ofTexts (ids : List String) (texts : String → String) : Manuscript :=
  ⟨ids.map fun id => (id, texts id)⟩

theorem ofTaxonomy_eq (t : Taxonomy) :
    ofTaxonomy t = ofTexts t.sectionIds.eraseDups (fun _ => "") := rfl

theorem get?_ofTexts (ids : List String) (texts : String → String) (id : String) :
    (ofTexts ids texts).get? id = if id ∈ ids then some (texts id) else none := by
  unfold ofTexts get?
  induction ids with
  | nil => rfl
  | cons a ids ih =>
      by_cases h : id = a
      · subst h
        simp
      · have hb : (id == a) = false := by simpa using h
        rw [List.map_cons, List.lookup_cons, hb]
        simpa [h] using ih

theorem contains_ofTexts (ids : List String) (texts : String → String) (id : String) :
    (ofTexts ids texts).contains id = decide (id ∈ ids) := by
  unfold contains
  rw [get?_ofTexts]
  by_cases h : id ∈ ids <;> simp [h]

theorem populated_ofTexts (ids : List String) (texts : String → String) :
    (ofTexts ids texts).populated = (ids.filter fun id => !Text.blank (texts id)).length := by
  rw [populated, ofTexts, List.countP_map, List.countP_eq_length_filter]
  rfl

theorem replace?_ofTexts {ids : List String} {id : String} (texts : String → String)
    (text : String) (h : id ∈ ids) :
    (ofTexts ids texts).replace? id text = some (ofTexts ids (Function.update texts id text)) := by
  unfold replace?
  rw [contains_ofTexts, if_pos (by simpa using h)]
  simp [ofTexts, Function.update_apply]

def lastText (edits : List (String × String)) (id : String) : String :=
  ((edits.filter (·.1 = id)).getLast?.map (·.2)).getD ""

/-- Further replacements with known texts give their sections these. -/
theorem lastText_append {new : List (String × String)} {texts : String → String}
    (hnew : ∀ e ∈ new, e.2 = texts e.1) (edits : List (String × String)) (id : String) :
    lastText (edits ++ new) id = if id ∈ new.map (·.1) then texts id else lastText edits id := by
  unfold lastText
  rw [List.filter_append, List.getLast?_append]
  cases hlast : (new.filter (·.1 = id)).getLast? with
  | none =>
      have hnot : id ∉ new.map (·.1) := by
        intro hmem
        obtain ⟨e, he, hid⟩ := List.mem_map.mp hmem
        rw [List.getLast?_eq_none_iff, List.filter_eq_nil_iff] at hlast
        exact hlast e he (by simpa using hid)
      rw [if_neg hnot, Option.none_or]
  | some e =>
      obtain ⟨he, hid⟩ := List.mem_filter.mp (List.mem_of_getLast? hlast)
      have hid : e.1 = id := of_decide_eq_true hid
      have hmem : id ∈ new.map (·.1) := List.mem_map.mpr ⟨e, he, hid⟩
      rw [if_pos hmem, Option.some_or, Option.map_some, Option.getD_some, hnew e he, hid]

theorem lastText_concat (edits : List (String × String)) (e : String × String) :
    lastText (edits ++ [e]) = Function.update (lastText edits) e.1 e.2 := by
  funext id
  have hnew : ∀ f ∈ [e], f.2 = Function.const String e.2 f.1 := by simp
  rw [Function.update_apply, lastText_append hnew]
  simp

end Manuscript

theorem Drafting.ofReply_target (target existing : String) (c : Component)
    (reply : Except Assistant.Failure String) :
    (ofReply target existing c reply).target = target := by
  unfold ofReply
  cases reply.bind Assistant.plain <;> rfl

theorem Drafting.ofOutcome_target (target existing : String) (c : Component)
    (o : Assistant.Outcome) : (ofOutcome target existing c o).target = target := by
  cases o with
  | panic message => rfl
  | reply text => simp only [ofOutcome, ofReply_target]
  | failure f => simp only [ofOutcome, ofReply_target]

namespace Run.Fanout

/-- A fan-out drafts its own sections only. -/
theorem mem_drafts {f : Fanout} {outcomes : List Assistant.Outcome} {d : Drafting.Draft}
    (h : d ∈ f.drafts outcomes) : d.target ∈ f.sections.map (·.1) := by
  obtain ⟨⟨⟨target, existing⟩, o⟩, hmem, rfl⟩ := List.mem_map.mp h
  rw [Drafting.ofOutcome_target]
  exact List.mem_map.mpr ⟨(target, existing), (List.of_mem_zip hmem).1, rfl⟩

def written (texts : String → String) (drafts : List Drafting.Draft) : String → String :=
  drafts.foldl (fun g d => Function.update g d.target d.text) texts

theorem replaceAll_ofTexts {ids : List String} {drafts : List Drafting.Draft}
    (texts : String → String) (h : ∀ d ∈ drafts, d.target ∈ ids) :
    replaceAll (.ofTexts ids texts) drafts = .ok (.ofTexts ids (written texts drafts)) := by
  induction drafts generalizing texts with
  | nil => rfl
  | cons d drafts ih =>
      have hd : d.target ∈ ids := h d List.mem_cons_self
      simp only [replaceAll, Manuscript.replace?_ofTexts texts d.text hd]
      exact ih _ fun e he => h e (List.mem_cons_of_mem d he)

/-- A section ends with its own draft, whatever the drafts of other sections are. -/
theorem written_map {draft : String → Drafting.Draft} (hdraft : ∀ t, (draft t).target = t)
    (texts : String → String) (targets : List String) (id : String) :
    written texts (targets.map draft) id =
      if id ∈ targets then (draft id).text else texts id := by
  induction targets generalizing texts with
  | nil => simp [written]
  | cons t targets ih =>
      have hstep : written texts ((t :: targets).map draft) id =
          written (Function.update texts t (draft t).text) (targets.map draft) id := by
        simp [written, hdraft]
      rw [hstep, ih, Function.update_apply]
      by_cases ht : id = t
      · subst ht
        simp
      · simp [ht]

theorem written_append (texts : String → String) (drafts later : List Drafting.Draft) :
    written texts (drafts ++ later) = written (written texts drafts) later :=
  List.foldl_append

/-- What holds of all texts before and of every draft holds of all texts after. -/
theorem written_induction {q : String → String → Prop} {texts : String → String}
    {drafts : List Drafting.Draft} (htexts : ∀ id, q id (texts id))
    (hdrafts : ∀ d ∈ drafts, q d.target d.text) (id : String) : q id (written texts drafts id) := by
  induction drafts generalizing texts with
  | nil => exact htexts id
  | cons d drafts ih =>
      refine ih (fun k => ?_) fun e he => hdrafts e (List.mem_cons_of_mem d he)
      dsimp only
      rw [Function.update_apply]
      by_cases hk : k = d.target
      · rw [if_pos hk, hk]
        exact hdrafts d List.mem_cons_self
      · rw [if_neg hk]
        exact htexts k

/-- A section has the text of its last draft. -/
theorem written_of_getLast? (texts : String → String) {drafts : List Drafting.Draft} {id : String}
    {d : Drafting.Draft} (h : (drafts.filter (·.target = id)).getLast? = some d) :
    written texts drafts id = d.text := by
  induction drafts using List.reverseRecOn with
  | nil => cases h
  | append_singleton drafts e ih =>
      rw [written_append]
      by_cases he : e.target = id
      · have hlast : (drafts ++ [e]).filter (·.target = id) =
            drafts.filter (·.target = id) ++ [e] := by simp [he]
        rw [hlast, List.getLast?_concat] at h
        obtain rfl := Option.some.inj h
        simp [written, he]
      · have hlast : (drafts ++ [e]).filter (·.target = id) = drafts.filter (·.target = id) := by
          simp [he]
        rw [hlast] at h
        simpa [written, Ne.symm he] using ih h

/-- A section keeps its text or has that of its last draft. -/
theorem written_cases (texts : String → String) (drafts : List Drafting.Draft) (id : String) :
    ((∀ d ∈ drafts, d.target ≠ id) ∧ written texts drafts id = texts id) ∨
      ∃ d ∈ drafts, d.target = id ∧ written texts drafts id = d.text := by
  cases hlast : (drafts.filter (·.target = id)).getLast? with
  | none =>
      have hnone : ∀ d ∈ drafts, d.target ≠ id := by
        simpa [List.getLast?_eq_none_iff, List.filter_eq_nil_iff] using hlast
      refine .inl ⟨hnone, ?_⟩
      refine written_induction (q := fun k text => k = id → text = texts id)
        (fun k hk => congrArg texts hk) (fun d hd hk => absurd hk (hnone d hd)) id rfl
  | some d =>
      obtain ⟨hd, htarget⟩ := List.mem_filter.mp (List.mem_of_getLast? hlast)
      exact .inr ⟨d, hd, by simpa using htarget, written_of_getLast? texts hlast⟩

/-- Where no two drafts are for one section, each section ends with its own draft. -/
theorem written_of_mem (texts : String → String) {drafts : List Drafting.Draft}
    (hnodup : (drafts.map (·.target)).Nodup) {d : Drafting.Draft} (hd : d ∈ drafts) :
    written texts drafts d.target = d.text := by
  rcases written_cases texts drafts d.target with ⟨hnone, -⟩ | ⟨e, he, htarget, htext⟩
  · exact absurd rfl (hnone d hd)
  · rw [htext, List.inj_on_of_nodup_map hnodup he hd htarget]

theorem written_of_not_mem (texts : String → String) {drafts : List Drafting.Draft} {id : String}
    (h : id ∉ drafts.map (·.target)) : written texts drafts id = texts id := by
  rcases written_cases texts drafts id with ⟨-, htext⟩ | ⟨d, hd, htarget, -⟩
  · exact htext
  · exact absurd (List.mem_map.mpr ⟨d, hd, htarget⟩) h

theorem textsOf_ofTexts {ids targets : List String} (texts : String → String)
    (h : ∀ t ∈ targets, t ∈ ids) :
    textsOf (.ofTexts ids texts) targets = .ok (targets.map fun t => (t, texts t)) := by
  unfold textsOf
  induction targets with
  | nil => rfl
  | cons t targets ih =>
      have ht : t ∈ ids := h t List.mem_cons_self
      rw [List.mapM_cons, Manuscript.get?_ofTexts, if_pos ht,
        ih fun u hu => h u (List.mem_cons_of_mem t hu)]
      rfl

theorem start_ofTexts {w : Worklist} {ids : List String} {texts : String → String}
    (graph : Option CallGraph) (c : Component) (hm : w.manuscript = .ofTexts ids texts)
    (ht : ∀ t ∈ w.targets, t ∈ ids) :
    start w graph c = .ok ⟨c, w.targets.map fun t => (t, texts t),
      .ofModel w.model ((graph.map fun g => g.neighbors c.name).getD {})⟩ := by
  unfold start
  rw [hm, textsOf_ofTexts texts ht]
  rfl

end Run.Fanout

namespace Document

theorem entries_isOk {m : Manuscript} {g : Group} (h : ∀ id ∈ g.sections, m.contains id) :
    ∃ es, entries m g = .ok es := by
  refine bind_isOk (mapM_isOk fun id hid => ?_) fun all => ⟨_, rfl⟩
  obtain ⟨text, htext⟩ := Option.isSome_iff_exists.mp (h id hid)
  exact ⟨(id, shown text), by rw [htext]⟩

/-- A manuscript that has all sections of a taxonomy can be compiled. -/
theorem compile_isOk {t : Taxonomy} {m : Manuscript} (title : Option String)
    (h : ∀ id ∈ t.sectionIds, m.contains id) : ∃ text, compile t title m = .ok text := by
  refine bind_isOk (mapM_isOk fun g hg => ?_) fun texts => ?_
  · have hes := entries_isOk (m := m) (g := g) fun id hid =>
      h id (List.mem_flatMap.mpr ⟨g, hg, hid⟩)
    exact bind_isOk hes fun es => ⟨_, rfl⟩
  · dsimp only
    split <;> exact ⟨_, rfl⟩

end Document

end Scriptorium
