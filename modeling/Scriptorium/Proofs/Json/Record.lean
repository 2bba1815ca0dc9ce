import Scriptorium.Json.Record
import Scriptorium.Proofs.Lists

/-! # Reading fields

A record takes each field from the one member that has a key of the field: without such a member the
field is absent, and a second one is an error.
-/

namespace Scriptorium.Json

/-- Puts the values of members into a slot, which holds one. -/
def putAll (s : Slot) (ms : List (String × Json)) : Option Slot :=
  ms.foldlM (fun s m => match s with | .given _ => none | _ => some (.given m.2)) s

def slotOf : List (String × Json) → Option Slot
  | [] => some .absent
  | [m] => some (.given m.2)
  | _ => none

theorem putAll_absent (ms : List (String × Json)) : putAll .absent ms = slotOf ms := by
  match ms with
  | [] => rfl
  | [_] => rfl
  | _ :: _ :: _ => rfl

/-- The first of some fields takes its members, and the others are filled from the rest. -/
theorem foldlM_fillSlot_cons (names : List String) (s : Slot) (rest : List (List String × Slot))
    (ms : List (String × Json)) :
    ms.foldlM (fun acc m => fillSlot m.1 m.2 acc) ((names, s) :: rest) =
      (putAll s (ms.filter (·.1 ∈ names))).bind fun s =>
        ((ms.filter (·.1 ∉ names)).foldlM (fun acc m => fillSlot m.1 m.2 acc) rest).map
          ((names, s) :: ·) := by
  induction ms generalizing s rest with
  | nil => rfl
  | cons m ms ih =>
      rw [List.foldlM_cons, fillSlot.eq_def]
      by_cases hm : m.1 ∈ names
      · rw [List.filter_cons_of_pos (by simpa using hm),
          List.filter_cons_of_neg (by simpa using hm)]
        simp only [if_pos hm]
        cases s with
        | given v => rfl
        | absent | cutOff => exact ih (.given m.2) rest
      · rw [List.filter_cons_of_neg (by simpa using hm),
          List.filter_cons_of_pos (by simpa using hm)]
        simp only [if_neg hm, List.foldlM_cons]
        cases fillSlot m.1 m.2 rest with
        | none => cases putAll s (ms.filter (·.1 ∈ names)) <;> rfl
        | some filled => exact ih s filled

theorem slots_obj_nil (ms : List (String × Json)) : slots [] (.obj ms) = some [] := by
  unfold slots
  induction ms with
  | nil => rfl
  | cons m ms ih => exact ih

theorem slots_obj_cons (names : List String) (fields : List (List String))
    (ms : List (String × Json)) :
    slots (names :: fields) (.obj ms) = (slotOf (ms.filter (·.1 ∈ names))).bind fun s =>
      (slots fields (.obj (ms.filter (·.1 ∉ names)))).map (s :: ·) := by
  simp only [slots, List.map_cons, foldlM_fillSlot_cons, putAll_absent, Option.map_bind]
  refine Option.bind_congr fun s _ => ?_
  simp only [Function.comp, Option.map_map]
  rfl

theorem slots_single (k : String) (ms : List (String × Json)) :
    slots [[k]] (.obj ms) = match ms.filter (·.1 = k) with
      | [] => some [.absent]
      | [m] => some [.given m.2]
      | _ => none := by
  have hfilter : ms.filter (fun m => decide (m.1 ∈ [k])) = ms.filter (·.1 = k) := by simp
  rw [slots_obj_cons, slots_obj_nil, hfilter]
  generalize ms.filter (·.1 = k) = found
  match found with
  | [] => rfl
  | [_] => rfl
  | _ :: _ :: _ => rfl

theorem filter_filter_of_disjoint {names others : List String} (h : names.Disjoint others)
    (ms : List (String × Json)) :
    (ms.filter (·.1 ∉ names)).filter (·.1 ∈ others) = ms.filter (·.1 ∈ others) := by
  rw [List.filter_filter]
  refine List.filter_congr fun m _ => ?_
  by_cases hm : m.1 ∈ others
  · have hother : m.1 ∉ names := fun hin => h hin hm
    simp [hm, hother]
  · simp [hm]

/-- The fields of an object are read one by one, if no name belongs to two of them. -/
theorem slots_obj_eq_some_iff {fields : List (List String)} {ms : List (String × Json)}
    {ss : List Slot} (h : fields.Pairwise List.Disjoint) :
    slots fields (.obj ms) = some ss ↔
      List.Forall₂ (fun names s => slotOf (ms.filter (·.1 ∈ names)) = some s) fields ss := by
  -- A field is read from what earlier fields leave, where its own members are as they were.
  have hfixed (found : List String → List (String × Json))
      (hfound : ∀ names ∈ fields, ms.filter (·.1 ∈ names) = found names) :
      slots fields (.obj ms) = some ss ↔
        List.Forall₂ (fun names s => slotOf (found names) = some s) fields ss := by
    induction fields generalizing ms ss with
    | nil => simp [slots_obj_nil, eq_comm]
    | cons names fields ih =>
        obtain ⟨hnames, hfields⟩ := List.pairwise_cons.mp h
        have hleft (others : List String) (hin : others ∈ fields) :
            (ms.filter (·.1 ∉ names)).filter (·.1 ∈ others) = found others := by
          rw [filter_filter_of_disjoint (hnames others hin)]
          exact hfound others (List.mem_cons_of_mem _ hin)
        rw [slots_obj_cons, hfound names List.mem_cons_self, Option.bind_eq_some_iff,
          List.forall₂_cons_left_iff]
        simp only [Option.map_eq_some_iff, ih hfields hleft, eq_comm (a := ss)]
        exact exists_congr fun s => by simp
  exact hfixed _ fun _ _ => rfl

/-! ## Values of fields -/

def Slot.value? : Slot → Option Json
  | .given v => some v
  | _ => none

/-- The values of the fields of a record: of the members with their names in an object, and of the
items at their places in an array. -/
def fieldValues (fields : List (List String)) : Json → List (Option Json)
  | .obj ms => fields.map fun names => (ms.find? (·.1 ∈ names)).map (·.2)
  | .arr l => (List.range fields.length).map (l[·]?)
  | _ => []

theorem value?_of_slotOf {ms : List (String × Json)} {s : Slot} (h : slotOf ms = some s) :
    s.value? = ms.head?.map (·.2) := by
  match ms with
  | [] =>
      obtain rfl := Option.some.inj h
      rfl
  | [_] =>
      obtain rfl := Option.some.inj h
      rfl
  | _ :: _ :: _ => cases h

theorem values_of_slotsOfItems {fields : List (List String)} {l : List Json} {ss : List Slot}
    (h : slotsOfItems fields l = some ss) :
    ss.map Slot.value? = (List.range fields.length).map (l[·]?) := by
  induction fields generalizing l ss with
  | nil =>
      cases l with
      | nil =>
          obtain rfl := Option.some.inj h
          rfl
      | cons v l => cases h
  | cons names fields ih =>
      cases l <;>
      · obtain ⟨rest, hrest, rfl⟩ := Option.map_eq_some_iff.mp h
        rw [List.map_cons, ih hrest, List.length_cons, List.range_succ_eq_map, List.map_cons,
          List.map_map]
        rfl

/-- A record that is read has the slots that the values of its fields fill. -/
theorem values_of_slots {fields : List (List String)} {v : Json} {ss : List Slot}
    (hfields : fields.Pairwise List.Disjoint) (h : slots fields v = some ss) :
    ss.map Slot.value? = fieldValues fields v := by
  cases v with
  | obj ms =>
      have hread := (slots_obj_eq_some_iff hfields).mp h
      rw [fieldValues, ← List.forall₂_eq_eq_eq, List.forall₂_map_left_iff,
        List.forall₂_map_right_iff]
      refine hread.flip.imp fun s names hs => ?_
      rw [value?_of_slotOf hs, List.head?_filter]
  | arr l => exact values_of_slotsOfItems h
  | null | bool | num | str => cases h

theorem value?_of_required {s : Slot} {v : Json} (h : s.required some = some v) :
    s.value? = some v := by
  cases s with
  | given w => exact h
  | absent | cutOff => cases h

/-! ## Lists -/

def itemsOf : Option Json → List Json
  | some (.arr items) => items
  | _ => []

theorem forall₂_of_withDefault {α : Type} {read : Json → Option α} {s : Slot} {l : List α}
    (h : s.withDefault [] (asList? read) = some l) :
    List.Forall₂ (fun v a => read v = some a) (itemsOf s.value?) l := by
  cases s with
  | given v =>
      cases v with
      | arr items => exact mapM_eq_some_iff_forall₂.mp h
      | null | bool | num | str | obj => cases h
  | absent | cutOff =>
      obtain rfl : [] = l := Option.some.inj h
      exact .nil

theorem asString?_eq_some_iff {v : Json} {s : String} : asString? v = some s ↔ v = .str s := by
  cases v <;> simp [asString?]

theorem mapM_asString?_eq_some_iff {l : List Json} {texts : List String} :
    l.mapM asString? = some texts ↔ l = texts.map .str := by
  rw [mapM_eq_some_iff_forall₂, ← List.forall₂_eq_eq_eq, List.forall₂_map_right_iff]
  simp only [asString?_eq_some_iff]

theorem asList?_asString?_eq_some_iff {v : Json} {texts : List String} :
    asList? asString? v = some texts ↔ v = .arr (texts.map .str) := by
  cases v <;> simp [asList?, mapM_asString?_eq_some_iff]

end Scriptorium.Json
