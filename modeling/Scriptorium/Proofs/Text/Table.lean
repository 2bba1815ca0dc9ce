import Mathlib.Data.List.Induction
import Mathlib.Data.List.Sort
import Mathlib.Data.String.Basic
import Scriptorium.Text.Ordered

/-! # Tables

Setting a name keeps a table in order, and a table that is set name by name comes out as it is. The
names of a list come out in order, each once.
-/

namespace Scriptorium.Text

variable {α : Type} {s : String} {l : List (String × α)}

theorem IsTable.tableSet (h : IsTable l) (a : α) : IsTable (tableSet s a l) := by
  induction l with
  | nil => exact List.pairwise_singleton _ _
  | cons p r ih =>
      obtain ⟨t, b⟩ := p
      obtain ⟨hfirst, hrest⟩ := List.pairwise_cons.mp h
      unfold Text.tableSet
      split
      · rename_i hlt
        refine List.pairwise_cons.mpr ⟨fun q hq => ?_, h⟩
        rcases List.mem_cons.mp hq with rfl | hq
        · exact hlt
        · exact hlt.trans (hfirst q hq)
      · rename_i hlt
        split
        · exact List.pairwise_cons.mpr ⟨hfirst, hrest⟩
        · rename_i hne
          refine List.pairwise_cons.mpr ⟨fun q hq => ?_, ih hrest⟩
          rcases mem_tableSet a r hq with rfl | hq
          · exact lt_of_le_of_ne (not_lt.mp hlt) (Ne.symm hne)
          · exact hfirst q hq

/-- A table gives each of its names one value. -/
theorem IsTable.lookup_of_mem (h : IsTable l) {a : α} (ha : (s, a) ∈ l) : l.lookup s = some a := by
  obtain ⟨front, back, rfl⟩ := List.append_of_mem ha
  refine List.lookup_eq_some_iff.mpr ⟨front, back, rfl, fun p hp => ?_⟩
  have hlt : p.1 < s := (List.pairwise_append.mp h).2.2 p hp (s, a) List.mem_cons_self
  simpa using hlt.ne'

/-- Setting the names of a table in order makes the table. -/
theorem IsTable.tableOf_eq (h : IsTable l) : tableOf l = l := by
  have hlast {t : String} {a : α} {front : List (String × α)} (hlt : ∀ p ∈ front, p.1 < t) :
      Text.tableSet t a front = front ++ [(t, a)] := by
    induction front with
    | nil => rfl
    | cons p r ih =>
        obtain ⟨u, b⟩ := p
        have hu : u < t := hlt (u, b) List.mem_cons_self
        have hrest := ih fun q hq => hlt q (List.mem_cons_of_mem _ hq)
        simp [Text.tableSet, hu.not_gt, hu.ne', hrest]
  induction l using List.reverseRecOn with
  | nil => rfl
  | append_singleton l p ih =>
      obtain ⟨hfront, -, hlt⟩ := List.pairwise_append.mp h
      have hfolded : l.foldl (fun acc q => Text.tableSet q.1 q.2 acc) [] = l := ih hfront
      rw [tableOf, List.foldl_append, hfolded]
      exact hlast fun q hq => hlt q hq p (List.mem_singleton_self p)

/-! ## Names -/

/-- Adding a name to names in order is setting it in a table that tells nothing of its names. -/
theorem insertName_eq (names : List String) :
    insertName s names = (tableSet s () (names.map (·, ()))).map (·.1) := by
  induction names with
  | nil => rfl
  | cons t r ih =>
      have hnames : (r.map (·, ())).map (·.1) = r := by simp [Function.comp_def]
      simp only [insertName, List.map_cons, Text.tableSet]
      split_ifs
      · rw [List.map_cons, List.map_cons, hnames]
      · rw [List.map_cons, hnames]
      · rw [List.map_cons, ih]

theorem pairwise_insertName {names : List String} (h : names.Pairwise (· < ·)) :
    (insertName s names).Pairwise (· < ·) := by
  have htable : IsTable (names.map (·, ())) := List.pairwise_map.mpr h
  rw [insertName_eq]
  exact List.pairwise_map.mpr (htable.tableSet ())

theorem pairwise_sortedNames (names : List String) : (sortedNames names).Pairwise (· < ·) := by
  induction names with
  | nil => exact List.Pairwise.nil
  | cons t r ih => exact pairwise_insertName ih

/-- Names in order are told by which names they are. -/
theorem sortedNames_congr {names others : List String} (h : ∀ t, t ∈ names ↔ t ∈ others) :
    sortedNames names = sortedNames others := by
  refine (pairwise_sortedNames names).eq_of_mem_iff (pairwise_sortedNames others) fun t => ?_
  rw [mem_sortedNames, mem_sortedNames, h]

end Scriptorium.Text
