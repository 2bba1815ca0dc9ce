import Scriptorium.Architecture.Model
import Scriptorium.Proofs.Text.Table

/-! # What a model holds

Every change of a model is the merge of an offer, which may be a record, some links and a fragment.
So one step is told once, for merges. From an empty model, whatever is offered in whatever order,
each link is listed once, in the order of first offers, and the keys are the listed links; each name
has the last significant record offered for it; and fragments are kept as they came.
-/

namespace Scriptorium

namespace Architecture

inductive Edit where
  | upsert (r : Record)
  | relate (l : Link)
  | keepFragment (f : String)
  | merge (e : Extraction)

namespace Edit

/-- What a change offers to a model, which may decline it. -/
def offer : Edit → Extraction
  | upsert r => { component := some r }
  | relate l => { links := [l] }
  | keepFragment f => { fragment := some f }
  | merge e => e

def apply (m : Model) : Edit → Model
  | upsert r => (m.upsert r).1
  | relate l => (m.relate l).1
  | keepFragment f => (m.keepFragment f).1
  | merge e => (m.merge e).1

/-- What a change answers; the answer of a single change is a part of that of a merge. -/
def answer (m : Model) : Edit → MergeResult
  | upsert r => { componentStored := (m.upsert r).2 }
  | relate l => { linksAdded := (m.relate l).2.toNat }
  | keepFragment f => { fragmentKept := (m.keepFragment f).2 }
  | merge e => (m.merge e).2

end Edit

namespace Model

def build (edits : List Edit) : Model := edits.foldl Edit.apply {}

def Keyed (m : Model) : Prop := m.keys.Nodup ∧ ∀ l, l ∈ m.keys ↔ l ∈ m.links

/-- What a model holds when these were the offers, in order. -/
structure Holds (m : Model) (offers : List Extraction) : Prop where
  links : m.links = (offers.flatMap (·.links)).eraseDups
  keyed : m.Keyed
  records : ∀ name, m.get? name = ((offers.filterMap (·.component)).filter fun r =>
    r.significant && r.name == name).getLast?
  table : Text.IsTable m.records ∧ ∀ p ∈ m.records, p.2.name = p.1 ∧ p.2.significant = true
  fragments : m.fragments = (offers.filterMap (·.fragment)).filter (!Text.blank ·)

/-- An answer tells what a model became when it was made an offer. -/
structure Told (m n : Model) (e : Extraction) (answer : MergeResult) : Prop where
  stored : answer.componentStored = e.component.any (·.significant)
  records : ∀ name, n.get? name =
    if answer.componentStored = true ∧ e.component.any (·.name == name) then e.component
    else m.get? name
  declined : answer.componentStored = false → n.records = m.records
  links : m.links <+: n.links ∧ n.links.length = m.links.length + answer.linksAdded
  fragments : n.fragments = m.fragments ++ if answer.fragmentKept then e.fragment.toList else []
  kept : n.fragments.length = m.fragments.length + answer.fragmentKept.toNat

variable {m : Model}

/-! ## One step -/

/-- What became of a model when it was offered links, of which some were added. -/
structure Related (m n : Model) (links : List Link) (added : Nat) : Prop where
  records : n.records = m.records
  fragments : n.fragments = m.fragments
  keyed : n.Keyed
  known : ∀ l, l ∈ n.keys ↔ l ∈ m.keys ∨ l ∈ links
  listed : ∀ seen, m.links = seen.eraseDups → n.links = (seen ++ links).eraseDups
  grown : m.links <+: n.links ∧ n.links.length = m.links.length + added

theorem relate_related (h : m.Keyed) (l : Link) :
    Related m (m.relate l).1 [l] (m.relate l).2.toNat := by
  obtain ⟨hnodup, hkeys⟩ := h
  have hseen {seen : List Link} (hm : m.links = seen.eraseDups) : l ∈ m.keys ↔ l ∈ seen := by
    rw [hkeys, hm, List.mem_eraseDups]
  unfold relate
  by_cases hl : l ∈ m.keys
  · rw [if_pos hl]
    refine ⟨rfl, rfl, ⟨hnodup, hkeys⟩, fun k => ?_, fun seen hm => ?_, List.prefix_rfl, rfl⟩
    · rw [List.mem_singleton]
      exact ⟨.inl, fun hk => hk.elim id fun heq => heq ▸ hl⟩
    · simp [hm, List.eraseDups_append, List.removeAll, (hseen hm).mp hl]
  · rw [if_neg hl, List.insert_of_not_mem hl]
    refine ⟨rfl, rfl, ⟨List.nodup_cons.mpr ⟨hl, hnodup⟩, fun k => ?_⟩, fun k => ?_,
      fun seen hm => ?_, List.prefix_append _ _, by simp⟩
    · simp [hkeys, or_comm]
    · simp [or_comm]
    · have hnew : l ∉ seen := fun h => hl ((hseen hm).mpr h)
      simp [hm, List.eraseDups_append, List.removeAll, hnew, List.eraseDups_cons]

theorem Related.cons {n o : Model} {l : Link} {links : List Link} {first added : Nat}
    (hmn : Related m n [l] first) (hno : Related n o links added) :
    Related m o (l :: links) (first + added) where
  records := hno.records.trans hmn.records
  fragments := hno.fragments.trans hmn.fragments
  keyed := hno.keyed
  known k := by simp [hno.known, hmn.known, or_assoc]
  listed seen hseen := by
    have hone := hmn.listed seen hseen
    rw [hno.listed (seen ++ [l]) hone, List.append_assoc, List.singleton_append]
  grown := by
    obtain ⟨hfront, hlength⟩ := hmn.grown
    obtain ⟨hfront', hlength'⟩ := hno.grown
    exact ⟨hfront.trans hfront', by omega⟩

theorem relateAll_related (h : m.Keyed) (links : List Link) :
    Related m (m.relateAll links).1 links (m.relateAll links).2 := by
  induction links generalizing m with
  | nil => exact ⟨rfl, rfl, h, by simp [relateAll], by simp [relateAll], List.prefix_rfl, rfl⟩
  | cons l links ih =>
      have hfirst := relate_related h l
      have hadded : (if (m.relate l).2 then 1 else 0) = (m.relate l).2.toNat := by
        cases (m.relate l).2 <;> rfl
      unfold relateAll
      simp only [hadded]
      exact hfirst.cons (ih hfirst.keyed)

def withRecord (m : Model) : Option Record → Model
  | some r => (m.upsert r).1
  | none => m

theorem withRecord_of_significant {r : Record} (hr : r.significant = true) :
    m.withRecord (some r) = { m with records := Text.tableSet r.name r m.records } := by
  simp [withRecord, upsert, hr]

theorem withRecord_of_insignificant {c : Option Record} (hc : c.any (·.significant) = false) :
    m.withRecord c = m := by
  cases c with
  | none => rfl
  | some r => simp_all [withRecord, upsert]

theorem withRecord_eq (m : Model) (c : Option Record) :
    m.withRecord c = { m with records := (m.withRecord c).records } := by
  by_cases hc : c.any (·.significant) = true
  · obtain ⟨r, rfl, hr⟩ := (Option.any_eq_true _ _).mp hc
    rw [withRecord_of_significant hr]
  · rw [withRecord_of_insignificant (by simpa using hc)]

theorem upsert_eq (m : Model) (r : Record) :
    m.upsert r = (m.withRecord (some r), r.significant) := by
  by_cases hr : r.significant = true <;> simp [withRecord, upsert, hr]

theorem keepFragment_eq (m : Model) (f : String) :
    m.keepFragment f =
      ({ m with fragments := m.fragments ++ [f].filter (!Text.blank ·) }, !Text.blank f) := by
  by_cases hf : Text.blank f = true <;> simp [keepFragment, hf]

/-- A merge does its three parts one after the other. -/
theorem merge_eq (m : Model) (e : Extraction) :
    m.merge e =
      ({ ((m.withRecord e.component).relateAll e.links).1 with
          fragments := ((m.withRecord e.component).relateAll e.links).1.fragments ++
            e.fragment.toList.filter (!Text.blank ·) },
        ⟨e.component.any (·.significant), ((m.withRecord e.component).relateAll e.links).2,
          e.fragment.any (!Text.blank ·)⟩) := by
  obtain ⟨component, links, fragment⟩ := e
  have hnone : m.withRecord none = m := rfl
  cases component <;> cases fragment <;>
    simp [merge, hnone, upsert_eq, keepFragment_eq]

theorem get?_withRecord (m : Model) (c : Option Record) (name : String) :
    (m.withRecord c).get? name =
      if c.any (fun r => r.significant && r.name == name) then c else m.get? name := by
  cases c with
  | none => rfl
  | some r =>
      by_cases hr : r.significant = true
      · rw [withRecord_of_significant hr, get?, get?]
        by_cases hname : r.name = name
        · simp [hr, hname, Text.lookup_tableSet_self]
        · simp [hname, Text.lookup_tableSet_of_ne _ _ (Ne.symm hname)]
      · simp [withRecord_of_insignificant, hr]

theorem withRecord_self {n : Model} {c : Option Record}
    (h : n.records = (m.withRecord c).records) : n.withRecord c = n := by
  by_cases hc : c.any (·.significant) = true
  · obtain ⟨r, rfl, hr⟩ := (Option.any_eq_true _ _).mp hc
    rw [withRecord_of_significant hr] at h ⊢
    have hset : Text.tableSet r.name r n.records = n.records := by
      rw [h]
      exact Text.tableSet_tableSet r r m.records
    rw [hset]
  · exact withRecord_of_insignificant (by simpa using hc)

theorem relateAll_of_known {links : List Link} (h : ∀ l ∈ links, l ∈ m.keys) :
    m.relateAll links = (m, 0) := by
  induction links with
  | nil => rfl
  | cons l links ih =>
      have hl : m.relate l = (m, false) := if_pos (h l List.mem_cons_self)
      simp [relateAll, hl, ih fun k hk => h k (List.mem_cons_of_mem l hk)]

theorem Keyed.withRecord (h : m.Keyed) (c : Option Record) : (m.withRecord c).Keyed := by
  rw [withRecord_eq]
  exact h

theorem merge_related (h : m.Keyed) (e : Extraction) :
    Related (m.withRecord e.component) ((m.withRecord e.component).relateAll e.links).1 e.links
      (m.merge e).2.linksAdded := by
  rw [merge_eq]
  exact relateAll_related (h.withRecord e.component) e.links

theorem merge_told (h : m.Keyed) (e : Extraction) : Told m (m.merge e).1 e (m.merge e).2 := by
  have hrelated := merge_related h e
  have hlinks : (m.withRecord e.component).links = m.links := by rw [withRecord_eq]
  have hfragments : (m.merge e).1.fragments =
      m.fragments ++ e.fragment.toList.filter (!Text.blank ·) := by
    have hrecord : (m.withRecord e.component).fragments = m.fragments := by rw [withRecord_eq]
    rw [merge_eq]
    dsimp only
    rw [hrelated.fragments, hrecord]
  have hkept : (m.merge e).2.fragmentKept = e.fragment.any (!Text.blank ·) := by rw [merge_eq]
  refine ⟨by rw [merge_eq], fun name => ?_, fun hdeclined => ?_, ?_, ?_, ?_⟩
  · have hget : (m.merge e).1.get? name = (m.withRecord e.component).get? name := by
      rw [merge_eq]
      exact congrArg (List.lookup name) hrelated.records
    rw [hget, get?_withRecord, merge_eq]
    cases e.component with
    | none => simp
    | some r => by_cases hr : r.significant = true <;> simp [hr]
  · rw [merge_eq] at hdeclined ⊢
    exact hrelated.records.trans (congrArg _ (withRecord_of_insignificant hdeclined))
  · rw [← hlinks]
    rw [merge_eq] at hrelated ⊢
    exact hrelated.grown
  · rw [hfragments, hkept]
    cases e.fragment with
    | none => simp
    | some f => by_cases hf : Text.blank f = true <;> simp [hf]
  · rw [hfragments, hkept]
    cases e.fragment with
    | none => simp
    | some f => by_cases hf : Text.blank f = true <;> simp [hf]

variable {offers : List Extraction}

theorem Holds.merge (h : Holds m offers) (e : Extraction) :
    Holds (m.merge e).1 (offers ++ [e]) := by
  have htold := merge_told h.keyed e
  have hrelated := merge_related h.keyed e
  have hlinks : (m.withRecord e.component).links = m.links := by rw [withRecord_eq]
  refine ⟨?_, ?_, fun name => ?_, ?_, ?_⟩
  · have hlisted := hrelated.listed (offers.flatMap (·.links)) (hlinks.trans h.links)
    rw [merge_eq, List.flatMap_append, List.flatMap_singleton]
    exact hlisted
  · rw [merge_eq]
    exact hrelated.keyed
  · rw [htold.records, htold.stored, h.records, List.filterMap_append, List.filter_append,
      List.getLast?_append]
    cases hc : e.component with
    | none => simp [hc]
    | some r =>
        by_cases hr : r.significant = true <;> by_cases hname : r.name = name <;>
          simp [hc, hr, hname]
  · have hrecords : (m.merge e).1.records = (m.withRecord e.component).records := by
      rw [merge_eq]
      exact hrelated.records
    obtain ⟨htable, hnamed⟩ := h.table
    rw [hrecords]
    cases e.component with
    | none => exact ⟨htable, hnamed⟩
    | some r =>
        by_cases hr : r.significant = true
        · rw [withRecord_of_significant hr]
          refine ⟨htable.tableSet r, fun p hp => ?_⟩
          rcases Text.mem_tableSet r m.records hp with rfl | hp
          · exact ⟨rfl, hr⟩
          · exact hnamed p hp
        · rw [withRecord_of_insignificant (by simpa using hr)]
          exact ⟨htable, hnamed⟩
  · rw [htold.fragments, h.fragments, merge_eq, List.filterMap_append, List.filter_append]
    cases hf : e.fragment with
    | none => simp [hf]
    | some f => by_cases hblank : Text.blank f = true <;> simp [hf, hblank]

/-- Offering the same again adds no link and changes nothing but the fragments. -/
theorem merge_merge (h : m.Keyed) (e : Extraction) :
    ((m.merge e).1.merge e).2.linksAdded = 0 ∧
      ((m.merge e).1.merge e).1 =
        { (m.merge e).1 with fragments := ((m.merge e).1.merge e).1.fragments } := by
  have hrelated := merge_related h e
  generalize hn : (m.merge e).1 = n
  have hkeys : n.keys = ((m.withRecord e.component).relateAll e.links).1.keys := by
    rw [← hn, merge_eq]
  have hrecords : n.records = (m.withRecord e.component).records := by
    rw [← hn, merge_eq]
    exact hrelated.records
  have hknown : ∀ l ∈ e.links, l ∈ n.keys := by
    intro l hl
    rw [hkeys]
    exact (hrelated.known l).mpr (.inr hl)
  rw [merge_eq n, withRecord_self hrecords, relateAll_of_known hknown]
  exact ⟨rfl, rfl⟩

/-! ## All changes -/

theorem offer_apply (m : Model) (e : Edit) :
    e.apply m = (m.merge e.offer).1 ∧ e.answer m = (m.merge e.offer).2 := by
  have hnone : m.withRecord none = m := rfl
  cases e with
  | merge e => exact ⟨rfl, rfl⟩
  | upsert r => simp [Edit.apply, Edit.answer, Edit.offer, merge_eq, upsert_eq, relateAll]
  | relate l =>
      have hadded : (if (m.relate l).2 = true then 1 else 0) = (m.relate l).2.toNat := by
        cases (m.relate l).2 <;> rfl
      simp [Edit.apply, Edit.answer, Edit.offer, merge_eq, hnone, relateAll, hadded]
  | keepFragment f =>
      simp [Edit.apply, Edit.answer, Edit.offer, merge_eq, hnone, keepFragment_eq, relateAll]

/-- A model holds what was offered while it was built. -/
theorem build_holds (edits : List Edit) : (build edits).Holds (edits.map Edit.offer) := by
  induction edits using List.reverseRecOn with
  | nil =>
      refine ⟨rfl, ⟨List.nodup_nil, fun l => Iff.rfl⟩, fun name => rfl, ⟨.nil, fun p hp => ?_⟩, rfl⟩
      cases hp
  | append_singleton edits e ih =>
      have hstep : build (edits ++ [e]) = ((build edits).merge e.offer).1 := by
        rw [build, List.foldl_append]
        exact (offer_apply (build edits) e).1
      rw [hstep, List.map_append]
      exact ih.merge e.offer

/-- Whatever is done to an empty model, it holds each offered link once, in the order of first
offers, with the keys as the set of links, the last significant record of each name, and the
fragments that are not blank. Each change answers what it did, an insignificant record does nothing,
and repeating a merge changes nothing but the fragments. -/
theorem build_holds_and_tells (edits : List Edit) :
    (build edits).Holds (edits.map Edit.offer) ∧
    (∀ e : Edit, Told (build edits) (e.apply (build edits)) e.offer (e.answer (build edits))) ∧
    (∀ r : Record, r.significant = false → (build edits).upsert r = (build edits, false)) ∧
    ∀ e : Extraction,
      let once := ((build edits).merge e).1
      (once.merge e).2.linksAdded = 0 ∧
        (once.merge e).1 = { once with fragments := (once.merge e).1.fragments } := by
  have hholds := build_holds edits
  refine ⟨hholds, fun e => ?_, fun r hr => ?_, fun e => merge_merge hholds.keyed e⟩
  · obtain ⟨happly, hanswer⟩ := offer_apply (build edits) e
    rw [happly, hanswer]
    exact merge_told hholds.keyed e.offer
  · rw [upsert_eq, withRecord_of_insignificant (by simpa using hr), hr]

end Model
end Architecture
end Scriptorium
