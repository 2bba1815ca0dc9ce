import Mathlib.Data.List.Nodup
import Mathlib.Data.List.Perm.Subperm
import Mathlib.Data.String.Basic
import Std.Data.String.ToNat
import Scriptorium.Architecture.NodeId

/-! # Identifiers that were given

Identifiers are only ever added: a name that has one keeps it, and a new one is neither the tag of a
layer nor in use, since of more numbered forms than identifiers in use one is free. So whatever names
have asked, and in whatever order, each has one identifier and no two share one.
-/

namespace Scriptorium.Architecture.NodeIds

variable {ids later : NodeIds} {name : String}

/-! ## Fresh identifiers -/

def numbered (base : String) (n : Nat) : String := base ++ "_" ++ toString n

theorem numbered_injective (base : String) : Function.Injective (numbered base) := by
  intro n m h
  have hchars := congrArg String.toList h
  simp only [numbered, String.toList_append, Nat.toString_eq_repr] at hchars
  exact Nat.repr_injective (String.toList_inj.mp (List.append_cancel_left hchars))

/-- A search ends in an identifier that is in use only if all that it has tried are. -/
theorem mem_of_freeFrom_mem {used : List String} {base : String} {fuel n : Nat}
    (h : freeFrom used base fuel n ∈ used) (k : Nat) (hk : k ≤ fuel) :
    numbered base (n + k) ∈ used := by
  induction fuel generalizing n k with
  | zero =>
      obtain rfl : k = 0 := Nat.le_zero.mp hk
      exact h
  | succ fuel ih =>
      unfold freeFrom at h
      by_cases hfirst : base ++ "_" ++ toString n ∈ used
      · cases k with
        | zero => exact hfirst
        | succ k =>
            rw [if_pos hfirst] at h
            have hnext := ih h k (by omega)
            rwa [Nat.add_right_comm] at hnext
      · rw [if_neg hfirst] at h
        exact absurd h hfirst

theorem freeFrom_not_mem (used : List String) (base : String) (n : Nat) :
    freeFrom used base used.length n ∉ used := by
  intro h
  have hall : (List.range (used.length + 1)).map (fun k => numbered base (n + k)) ⊆ used := by
    intro id hid
    obtain ⟨k, hk, rfl⟩ := List.mem_map.mp hid
    exact mem_of_freeFrom_mem h k (Nat.lt_succ_iff.mp (List.mem_range.mp hk))
  have hnodup : ((List.range (used.length + 1)).map fun k => numbered base (n + k)).Nodup :=
    List.nodup_range.map ((numbered_injective base).comp (add_right_injective n))
  have hlength := (hnodup.subperm hall).length_le
  simp only [List.length_map, List.length_range] at hlength
  omega

theorem fresh_not_mem (ids : NodeIds) (name : String) : ids.fresh name ∉ ids.taken := by
  unfold fresh
  dsimp only
  by_cases h : wish name ∈ ids.taken
  · rw [if_pos h]
    exact freeFrom_not_mem _ _ _
  · rwa [if_neg h]

/-! ## Names and their identifiers -/

def names (ids : NodeIds) : List String := ids.given.map (·.1)

def idOf (ids : NodeIds) (name : String) : String := (ids.given.lookup name).getD ""

/-- Every name has one identifier, and no identifier is used twice, be it for a layer or a name. -/
structure Proper (ids : NodeIds) : Prop where
  names : ids.names.Nodup
  taken : ids.taken.Nodup

def Before (ids later : NodeIds) : Prop := ids.given <+: later.given

theorem Before.refl (ids : NodeIds) : ids.Before ids := List.prefix_rfl

theorem Before.trans {last : NodeIds} (h : ids.Before later) (hlast : later.Before last) :
    ids.Before last := List.IsPrefix.trans h hlast

theorem lookup_isSome_iff : (ids.given.lookup name).isSome = true ↔ name ∈ ids.names := by
  rw [names]
  induction ids.given with
  | nil => simp
  | cons p given ih =>
      obtain ⟨other, id⟩ := p
      by_cases h : name = other
      · subst h
        simp
      · simp [List.lookup_cons, beq_false_of_ne h, ih, h]

theorem mem_given (h : name ∈ ids.names) : (name, ids.idOf name) ∈ ids.given := by
  obtain ⟨id, hid⟩ := Option.isSome_iff_exists.mp (lookup_isSome_iff.mpr h)
  rw [idOf, hid]
  obtain ⟨front, back, hgiven, -⟩ := List.lookup_eq_some_iff.mp hid
  rw [hgiven]
  simp

theorem Before.idOf (h : ids.Before later) (hname : name ∈ ids.names) :
    later.idOf name = ids.idOf name := by
  obtain ⟨more, hmore⟩ := h
  obtain ⟨id, hid⟩ := Option.isSome_iff_exists.mp (lookup_isSome_iff.mpr hname)
  rw [NodeIds.idOf, NodeIds.idOf, ← hmore, List.lookup_append, hid, Option.some_or]

theorem Proper.idOf_injOn (h : ids.Proper) {a b : String} (ha : a ∈ ids.names) (hb : b ∈ ids.names)
    (heq : ids.idOf a = ids.idOf b) : a = b := by
  have hvalues : (ids.given.map (·.2)).Nodup := (List.nodup_append.mp h.taken).2.1
  have hpair := List.inj_on_of_nodup_map hvalues (mem_given ha) (mem_given hb) heq
  exact congrArg Prod.fst hpair

theorem Proper.idOf_ne_tag (h : ids.Proper) (hname : name ∈ ids.names) (l : Layer) :
    ids.idOf name ≠ l.tag := by
  have hid : ids.idOf name ∈ ids.given.map (·.2) := List.mem_map.mpr ⟨_, mem_given hname, rfl⟩
  have hlayer : l.tag ∈ Layer.all.map Layer.tag := List.mem_map_of_mem (by cases l <;> decide)
  exact fun heq => (List.nodup_append.mp h.taken).2.2 _ hlayer _ hid heq.symm

/-! ## Asking -/

theorem get_of_mem (h : name ∈ ids.names) : ids.get name = (ids, ids.idOf name) := by
  obtain ⟨id, hid⟩ := Option.isSome_iff_exists.mp (lookup_isSome_iff.mpr h)
  rw [get, hid, idOf, hid]
  rfl

theorem get_of_not_mem (h : name ∉ ids.names) :
    ids.get name = (⟨ids.given ++ [(name, ids.fresh name)]⟩, ids.fresh name) := by
  have hnone : ids.given.lookup name = none := by
    rw [← Option.not_isSome_iff_eq_none, lookup_isSome_iff]
    exact h
  rw [get, hnone]

/-- What asking for a name does: the name has the answer as its identifier, and nothing else
changes. -/
theorem get_spec (h : ids.Proper) (name : String) :
    (ids.get name).1.Proper ∧ ids.Before (ids.get name).1 ∧
      (ids.get name).2 = (ids.get name).1.idOf name ∧
      ∀ n, n ∈ (ids.get name).1.names ↔ n ∈ ids.names ∨ n = name := by
  by_cases hname : name ∈ ids.names
  · rw [get_of_mem hname]
    refine ⟨h, .refl ids, rfl, fun n => ⟨.inl, ?_⟩⟩
    rintro (hn | rfl)
    · exact hn
    · exact hname
  · have hfresh := fresh_not_mem ids name
    have hnone : ids.given.lookup name = none := by
      rw [← Option.not_isSome_iff_eq_none, lookup_isSome_iff]
      exact hname
    rw [get_of_not_mem hname]
    refine ⟨⟨?_, ?_⟩, List.prefix_append _ _, ?_, fun n => by simp [names]⟩
    · rw [names, List.map_append, ← names]
      exact h.names.append (List.nodup_singleton _) (by simpa using hname)
    · rw [taken, List.map_append, ← List.append_assoc, ← taken]
      exact h.taken.append (List.nodup_singleton _) (by simpa using hfresh)
    · simp [idOf, List.lookup_append, hnone]

def getAll (ids : NodeIds) (asking : List String) : NodeIds :=
  asking.foldl (fun ids n => (ids.get n).1) ids

theorem getAll_cons (ids : NodeIds) (name : String) (asking : List String) :
    ids.getAll (name :: asking) = (ids.get name).1.getAll asking := rfl

theorem getAll_append (ids : NodeIds) (asking more : List String) :
    ids.getAll (asking ++ more) = (ids.getAll asking).getAll more := List.foldl_append

theorem getAll_spec (h : ids.Proper) (asking : List String) :
    (ids.getAll asking).Proper ∧ ids.Before (ids.getAll asking) ∧
      ∀ n, n ∈ (ids.getAll asking).names ↔ n ∈ ids.names ∨ n ∈ asking := by
  induction asking generalizing ids with
  | nil => exact ⟨h, .refl ids, by simp [getAll]⟩
  | cons name asking ih =>
      obtain ⟨hproper, hbefore, -, hnames⟩ := get_spec h name
      obtain ⟨hlast, hgrown, hall⟩ := ih hproper
      rw [getAll_cons]
      exact ⟨hlast, hbefore.trans hgrown, fun n => by rw [hall, hnames, List.mem_cons, or_assoc]⟩

theorem proper_empty : ({} : NodeIds).Proper := ⟨List.nodup_nil, by decide⟩

end Scriptorium.Architecture.NodeIds
