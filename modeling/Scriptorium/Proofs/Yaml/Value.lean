import Scriptorium.Proofs.Yaml.Number

/-! # Values in YAML

What the nodes of texts, numbers, lists and records are read as. A text that would mean nothing is
never left plain, so it is read as a text also where a value may be missing.
-/

namespace Scriptorium.Yaml.Node

/-! ## Equality -/

mutual

def decEq : (n m : Node) → Decidable (n = m)
  | .scalar s, .scalar t => decidable_of_iff (s = t) (by simp)
  | .sequence l, .sequence k =>
    haveI := decEqItems l k
    decidable_of_iff (l = k) (by simp)
  | .mapping l, .mapping k =>
    haveI := decEqEntries l k
    decidable_of_iff (l = k) (by simp)
  | .loop, .loop => .isTrue rfl
  | .scalar _, .sequence _ | .scalar _, .mapping _ | .scalar _, .loop
  | .sequence _, .scalar _ | .sequence _, .mapping _ | .sequence _, .loop
  | .mapping _, .scalar _ | .mapping _, .sequence _ | .mapping _, .loop
  | .loop, .scalar _ | .loop, .sequence _ | .loop, .mapping _ => .isFalse (by simp)

def decEqItems : (l k : List Node) → Decidable (l = k)
  | [], [] => .isTrue rfl
  | n :: l, m :: k =>
    haveI := decEq n m
    haveI := decEqItems l k
    decidable_of_iff (n = m ∧ l = k) (by simp)
  | [], _ :: _ | _ :: _, [] => .isFalse (by simp)

def decEqEntries : (l k : List (Node × Node)) → Decidable (l = k)
  | [], [] => .isTrue rfl
  | (n, v) :: l, (m, w) :: k =>
    haveI := decEq n m
    haveI := decEq v w
    haveI := decEqEntries l k
    decidable_of_iff ((n = m ∧ v = w) ∧ l = k) (by simp)
  | [], _ :: _ | _ :: _, [] => .isFalse (by simp)

end

instance : DecidableEq Node := decEq

variable {α : Type} {read : Node → Option α}

/-! ## Texts and numbers -/

theorem asText?_ofText (s : String) : (ofText s).asText? = some s := rfl

theorem asNat?_ofNat {bound n : Nat} (h : n < bound) : (ofNat n).asNat? bound = some n := by
  have hread := naturalOf?_toString n
  simp only [ofNat, asNat?, Scalar.numeral?, Option.bind_eq_bind, Option.bind_some, hread]
  exact if_pos h

theorem style_of_fitting {cs : List Char} {style : Style}
    (h : (style.fitting cs).form = .plain) : style = .plain := by
  cases style with
  | plain => rfl
  | single => by_cases hfits : fitsSingle cs = true <;> simp [Style.fitting, hfits, Style.form] at h
  | double => simp [Style.fitting, Style.form] at h
  | literal =>
      by_cases hfits : fitsLiteral cs = true <;> simp [Style.fitting, hfits, Style.form] at h

/-- A text that is left plain does not look like something else. -/
theorem looksTyped_eq_false {s : String} (h : (Style.ofText s).form = .plain) :
    looksTyped s = false := by
  have hstyle := style_of_fitting h
  by_cases htyped : looksTyped s = true
  · rw [if_pos htyped] at hstyle
    split at hstyle
    · cases hstyle
    · split at hstyle <;> cases hstyle
  · exact Bool.eq_false_iff.mpr htyped

/-! ## Values that may be missing -/

theorem asOption?_ofText (s : String) : (ofText s).asOption? asText? = some (some s) := by
  unfold ofText asOption?
  dsimp only
  split
  · rfl
  next hform =>
    have hplain := looksTyped_eq_false (not_not.mp hform)
    simp only [looksTyped, Bool.or_eq_false_iff, beq_eq_false_iff_ne] at hplain
    obtain ⟨⟨⟨⟨⟨hne, hnull⟩, -⟩, -⟩, -⟩, -⟩ := hplain
    rw [if_neg (by simp [hne, hnull])]
    rfl

theorem asOption?_ofNat (n : Nat) : (ofNat n).asOption? read = (read (ofNat n)).map some := by
  have hread := naturalOf?_toString n
  have hne {s : String} (hs : naturalOf? s = none) : toString n ≠ s := by
    rintro rfl
    rw [hread] at hs
    cases hs
  have hempty : toString n ≠ "" := hne (by decide)
  have hnull : isNull (toString n) = false := by
    unfold isNull
    simp only [List.mem_cons, List.not_mem_nil, or_false, decide_eq_false_iff_not, not_or]
    exact ⟨hne (by decide), hne (by decide), hne (by decide), hne (by decide)⟩
  unfold ofNat
  generalize toString n = s at hempty hnull
  unfold asOption?
  simp [hempty, hnull]

theorem asOption?_asNat? {bound n : Nat} (h : n < bound) :
    (ofNat n).asOption? (asNat? bound) = some (some n) := by
  rw [asOption?_ofNat, asNat?_ofNat h]
  rfl

theorem asOption?_sequence {l : List Node} {a : α} (h : read (sequence l) = some a) :
    (sequence l).asOption? read = some (some a) := congrArg (Option.map some) h

theorem asOption?_record {fields : List (String × Node)} {a : α}
    (h : read (record fields) = some a) : (record fields).asOption? read = some (some a) :=
  congrArg (Option.map some) h

/-! ## Lists and tables -/

theorem asList?_map {f : α → Node} {l : List α} (h : ∀ a ∈ l, read (f a) = some a) :
    (sequence (l.map f)).asList? read = some l := by
  change (l.map f).mapM read = some l
  induction l with
  | nil => rfl
  | cons a l ih =>
      have ha := h a List.mem_cons_self
      have hl := ih fun b hb => h b (List.mem_cons_of_mem _ hb)
      rw [List.map_cons, List.mapM_cons, ha, hl]
      rfl

theorem asList?_ofTexts (l : List String) : (ofTexts l).asList? asText? = some l :=
  asList?_map fun s _ => asText?_ofText s

theorem asTable?_record {f : α → Node} {l : List (String × α)}
    (h : ∀ a ∈ l, read (f a.2) = some a.2) :
    (record (l.map fun e => (e.1, f e.2))).asTable? read = some l := by
  unfold record asTable? entries?
  rw [Option.bind_some, List.map_map]
  induction l with
  | nil => rfl
  | cons a l ih =>
      have ha := h a List.mem_cons_self
      have hl := ih fun b hb => h b (List.mem_cons_of_mem _ hb)
      rw [List.map_cons, List.mapM_cons, hl]
      simp [asText?_ofText, ha]

/-! ## Records -/

variable {known : List String} {fields : List (String × Node)}

/-- The fields of a record are taken in one by one. -/
theorem foldlM_add {f : Fields} (hnodup : (fields.map Prod.fst).Nodup)
    (hknown : ∀ e ∈ fields, e.1 ∈ f.known) (hfresh : ∀ e ∈ fields, f.given.lookup e.1 = none) :
    (fields.map fun e => (ofText e.1, e.2)).foldlM Fields.add f =
      some { f with given := fields.reverse ++ f.given } := by
  induction fields generalizing f with
  | nil => rfl
  | cons e fields ih =>
      obtain ⟨hnew, hrest⟩ := List.nodup_cons.mp hnodup
      have hadd : f.add (ofText e.1, e.2) = some { f with given := e :: f.given } := by
        unfold Fields.add
        rw [asText?_ofText]
        simp [hknown e List.mem_cons_self, hfresh e List.mem_cons_self]
      have hfresh' : ∀ d ∈ fields, (e :: f.given).lookup d.1 = none := by
        intro d hd
        have hne : ¬ d.1 = e.1 := fun heq => hnew (heq ▸ List.mem_map_of_mem hd)
        rw [List.lookup_cons, beq_eq_false_iff_ne.mpr hne]
        exact hfresh d (List.mem_cons_of_mem _ hd)
      have htail := ih (f := { f with given := e :: f.given }) hrest
        (fun d hd => hknown d (List.mem_cons_of_mem _ hd)) hfresh'
      rw [List.map_cons, List.foldlM_cons, hadd]
      simpa using htail

theorem lookup_reverse (hnodup : (fields.map Prod.fst).Nodup) (name : String) :
    fields.reverse.lookup name = fields.lookup name := by
  induction fields with
  | nil => rfl
  | cons e fields ih =>
      obtain ⟨hnew, hrest⟩ := List.nodup_cons.mp hnodup
      rw [List.reverse_cons, List.lookup_append, ih hrest, List.lookup_cons, List.lookup_cons,
        List.lookup_nil]
      cases hname : name == e.1 with
      | true =>
          have hnone : fields.lookup name = none := by
            rw [List.lookup_eq_none_iff]
            intro d hd
            rw [beq_iff_eq.mp hname]
            exact bne_iff_ne.mpr fun heq => hnew (heq ▸ List.mem_map_of_mem hd)
          rw [hnone]
          rfl
      | false => exact Option.or_none

/-- What a field of a record is read from. -/
structure Gives (f : Fields) (fields : List (String × Node)) : Prop where
  lookup : ∀ name, f.given.lookup name = fields.lookup name

section

variable {β : Type} {read' : Fields → Option β} {b : β}

/-- A record that is read without other fields. -/
theorem closedFields?_record (hnodup : (fields.map Prod.fst).Nodup)
    (hknown : ∀ e ∈ fields, e.1 ∈ known) (h : ∀ f, Gives f fields → read' f = some b) :
    ((record fields).closedFields? known).bind read' = some b := by
  have hfold := foldlM_add (f := { known := known, open_ := false }) hnodup hknown fun _ _ => rfl
  rw [List.append_nil] at hfold
  rw [show (record fields).closedFields? known = _ from hfold]
  exact h _ ⟨lookup_reverse hnodup⟩

/-- A record that is read with other fields or without them. -/
theorem openFields?_record (hnodup : (fields.map Prod.fst).Nodup)
    (hknown : ∀ e ∈ fields, e.1 ∈ known) (h : ∀ f, Gives f fields → read' f = some b) :
    ((record fields).openFields? known).bind read' = some b := by
  have hfold := foldlM_add (f := { known := known, open_ := true }) hnodup hknown fun _ _ => rfl
  rw [List.append_nil] at hfold
  rw [show (record fields).openFields? known = _ from hfold]
  exact h _ ⟨lookup_reverse hnodup⟩

end

section

variable {f : Fields}

theorem Gives.required (h : Gives f fields) (name : String) :
    f.required name read = (fields.lookup name).bind read := by
  rw [Fields.required, h.lookup]

theorem Gives.withDefault (h : Gives f fields) (name : String) (default : α) :
    f.withDefault name default read = ((fields.lookup name).map read).getD (some default) := by
  rw [Fields.withDefault, h.lookup]
  cases fields.lookup name <;> rfl

theorem Gives.optional (h : Gives f fields) (name : String) :
    f.optional name read = ((fields.lookup name).map (asOption? read)).getD (some none) :=
  h.withDefault name none

end

end Scriptorium.Yaml.Node
