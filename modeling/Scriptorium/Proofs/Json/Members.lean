import Mathlib.Data.List.Induction
import Scriptorium.Json.Record
import Scriptorium.Proofs.Lists

/-! # Members of objects

Of repeated keys the first place and the last value count. The keys of what is merged are the
distinct keys in the order of the text, and each has the value that its last member has.
-/

namespace Scriptorium.Json

section Keys

variable {α β : Type} {k x : String} {v : α} {ms acc : List (String × α)}

theorem setKey_of_not_mem (h : k ∉ acc.map (·.1)) : setKey k v acc = acc ++ [(k, v)] := by
  induction acc with
  | nil => rfl
  | cons m acc ih =>
      rw [List.map_cons, List.mem_cons, not_or] at h
      rw [setKey, if_neg (Ne.symm h.1), ih h.2, List.cons_append]

theorem map_fst_setKey_of_mem (h : k ∈ acc.map (·.1)) :
    (setKey k v acc).map (·.1) = acc.map (·.1) := by
  induction acc with
  | nil => cases h
  | cons m acc ih =>
      by_cases hm : m.1 = k
      · rw [setKey, if_pos hm, List.map_cons, List.map_cons, hm]
      · have hrest : k ∈ acc.map (·.1) := (List.mem_cons.mp h).resolve_left (Ne.symm hm)
        rw [setKey, if_neg hm, List.map_cons, List.map_cons, ih hrest]

theorem lookup_cons_eq (m : String × α) (ms : List (String × α)) (k : String) :
    (m :: ms).lookup k = if k = m.1 then some m.2 else ms.lookup k := by
  obtain ⟨key, v⟩ := m
  rw [List.lookup_cons]
  by_cases hk : k = key
  · simp [hk]
  · rw [beq_false_of_ne hk, if_neg hk]

theorem lookup_setKey (k : String) (v : α) (acc : List (String × α)) (x : String) :
    (setKey k v acc).lookup x = if x = k then some v else acc.lookup x := by
  induction acc with
  | nil => rw [setKey, lookup_cons_eq]
  | cons m acc ih =>
      by_cases hm : m.1 = k
      · rw [setKey, if_pos hm, lookup_cons_eq, lookup_cons_eq]
        by_cases hx : x = k <;> simp [hx, hm]
      · rw [setKey, if_neg hm, lookup_cons_eq, lookup_cons_eq, ih]
        by_cases hx : x = m.1 <;> simp [hx, hm]

theorem lastValues_concat (ms : List (String × α)) (m : String × α) :
    lastValues (ms ++ [m]) = setKey m.1 m.2 (lastValues ms) := by
  rw [lastValues, List.foldl_append]
  rfl

/-- The keys of what is merged are the distinct keys, in the order of their first members. -/
theorem map_fst_lastValues (ms : List (String × α)) :
    (lastValues ms).map (·.1) = (ms.map (·.1)).eraseDups := by
  induction ms using List.reverseRecOn with
  | nil => rfl
  | append_singleton ms m ih =>
      have hknown : m.1 ∈ (lastValues ms).map (·.1) ↔ m.1 ∈ ms.map (·.1) := by
        rw [ih, List.mem_eraseDups]
      rw [lastValues_concat, List.map_append, List.map_singleton, eraseDups_concat, ← ih]
      by_cases hm : m.1 ∈ ms.map (·.1)
      · rw [if_pos hm, map_fst_setKey_of_mem (hknown.mpr hm)]
      · rw [if_neg hm, setKey_of_not_mem (mt hknown.mp hm), List.map_append, List.map_singleton]

/-- The value of a key in what is merged is that of its last member. -/
theorem lookup_lastValues (ms : List (String × α)) (k : String) :
    (lastValues ms).lookup k = ms.reverse.lookup k := by
  induction ms using List.reverseRecOn with
  | nil => rfl
  | append_singleton ms m ih =>
      rw [lastValues_concat, lookup_setKey, ih, List.reverse_append]
      rw [List.reverse_singleton, List.singleton_append, lookup_cons_eq]

theorem lastValues_of_nodup (h : (ms.map (·.1)).Nodup) : lastValues ms = ms := by
  induction ms using List.reverseRecOn with
  | nil => rfl
  | append_singleton ms m ih =>
      rw [List.map_append, List.nodup_append] at h
      have hm : m.1 ∉ ms.map (·.1) := fun hmem => h.2.2 _ hmem _ (List.mem_singleton_self _) rfl
      rw [lastValues_concat, ih h.1, setKey_of_not_mem hm]

theorem lookup_map (f : α → β) (ms : List (String × α)) (k : String) :
    (ms.map fun m => (m.1, f m.2)).lookup k = (ms.lookup k).map f := by
  induction ms with
  | nil => rfl
  | cons m ms ih =>
      rw [List.map_cons, lookup_cons_eq, lookup_cons_eq, ih]
      split_ifs <;> rfl

theorem mem_iff_lookup (h : (ms.map (·.1)).Nodup) : (k, v) ∈ ms ↔ ms.lookup k = some v := by
  induction ms with
  | nil => simp
  | cons m ms ih =>
      rw [List.map_cons, List.nodup_cons] at h
      rw [List.mem_cons, ih h.2, lookup_cons_eq]
      by_cases hk : k = m.1
      · have hnone : ms.lookup k ≠ some v := by
          rw [ne_eq, ← ih h.2]
          exact fun hmem => h.1 (hk ▸ List.mem_map.mpr ⟨_, hmem, rfl⟩)
        rw [if_pos hk, or_iff_left hnone, Option.some.injEq, Prod.ext_iff]
        exact ⟨fun heq => heq.2.symm, fun heq => ⟨hk, heq.symm⟩⟩
      · rw [if_neg hk, or_iff_right fun heq => hk (congrArg Prod.fst heq)]

end Keys

/-! ## Values without repeated keys -/

variable {v : Json} {ms : List (String × Json)}

theorem canonicalMembers_eq (ms : List (String × Json)) :
    canonicalMembers ms = ms.map fun m => (m.1, m.2.canonical) := by
  induction ms with
  | nil => rfl
  | cons m ms ih => rw [canonicalMembers, ih, List.map_cons]

theorem canonical_obj (ms : List (String × Json)) :
    canonical (.obj ms) = .obj (lastValues (canonicalMembers ms)) := by
  rw [canonical]

theorem map_fst_canonical (ms : List (String × Json)) :
    (lastValues (canonicalMembers ms)).map (·.1) = (ms.map (·.1)).eraseDups := by
  rw [map_fst_lastValues, canonicalMembers_eq, List.map_map]
  rfl

theorem lookup_canonical (ms : List (String × Json)) (k : String) :
    (lastValues (canonicalMembers ms)).lookup k = (member? k (.obj ms)).map canonical := by
  rw [lookup_lastValues, canonicalMembers_eq, ← List.map_reverse, lookup_map]
  rfl

theorem canonical_eq_str_iff {s : String} : v.canonical = .str s ↔ v = .str s := by
  cases v <;> simp [canonical]

theorem canonical_eq_of_not_obj (h : ∀ ms, v ≠ .obj ms) (ms : List (String × Json)) :
    v.canonical ≠ .obj ms := by
  cases v with
  | obj ms' => exact absurd rfl (h ms')
  | _ => simp [canonical]

end Scriptorium.Json
