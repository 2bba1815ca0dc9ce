/-!
# Names in order

Texts are ordered by code points.  A table is a list of pairs whose names increase strictly, so
each name occurs once; a set of names is an increasing list.
-/

namespace Scriptorium.Text

/-- Adds a name to an increasing list, unless it is there. -/
def insertName (s : String) : List String → List String
  | [] => [s]
  | t :: r => if s < t then s :: t :: r else if s = t then t :: r else t :: insertName s r

/-- The names of a list in order, each once. -/
def sortedNames (l : List String) : List String := l.foldr insertName []

/-- Sets the value of a name in a table. -/
def tableSet {α : Type} (s : String) (a : α) : List (String × α) → List (String × α)
  | [] => [(s, a)]
  | (t, b) :: r =>
    if s < t then (s, a) :: (t, b) :: r
    else if s = t then (t, a) :: r
    else (t, b) :: tableSet s a r

/-- The table of a list of pairs; the last value of a name counts. -/
def tableOf {α : Type} (l : List (String × α)) : List (String × α) :=
  l.foldl (fun acc p => tableSet p.1 p.2 acc) []

/-- The names of a table increase strictly. -/
def IsTable {α : Type} (l : List (String × α)) : Prop := l.Pairwise fun p q => p.1 < q.1

instance {α : Type} (l : List (String × α)) : Decidable (IsTable l) :=
  inferInstanceAs (Decidable (l.Pairwise fun p q => p.1 < q.1))

theorem mem_insertName {s t : String} {l : List String} :
    t ∈ insertName s l ↔ t = s ∨ t ∈ l := by
  induction l with
  | nil => simp [insertName]
  | cons u r ih =>
    unfold insertName
    split
    · simp
    · split
      · rename_i h; subst h; simp
      · simp only [List.mem_cons, ih]; exact or_left_comm

theorem mem_sortedNames {t : String} {l : List String} : t ∈ sortedNames l ↔ t ∈ l := by
  induction l with
  | nil => simp [sortedNames]
  | cons u r ih => simpa [sortedNames, mem_insertName] using or_congr Iff.rfl ih

section Table

variable {α : Type} {s t : String} (a b : α) (l : List (String × α))

theorem lookup_tableSet_self : (tableSet s a l).lookup s = some a := by
  induction l with
  | nil => simp [tableSet]
  | cons p r ih =>
    obtain ⟨u, c⟩ := p
    unfold tableSet
    split
    · simp
    · split
      · rename_i h; subst h; simp
      · rename_i h; simpa [List.lookup_cons, beq_false_of_ne h] using ih

theorem lookup_tableSet_of_ne (h : t ≠ s) : (tableSet s a l).lookup t = l.lookup t := by
  induction l with
  | nil => simp [tableSet, List.lookup_cons, beq_false_of_ne h]
  | cons p r ih =>
    obtain ⟨u, c⟩ := p
    unfold tableSet
    split
    · rw [List.lookup_cons, beq_false_of_ne h]
    · split
      · rename_i hu; subst hu; simp [List.lookup_cons, beq_false_of_ne h]
      · simp only [List.lookup_cons, ih]

/-- Setting a name twice is setting it to the second value. -/
theorem tableSet_tableSet : tableSet s b (tableSet s a l) = tableSet s b l := by
  induction l with
  | nil => simp [tableSet]
  | cons p r ih =>
    obtain ⟨u, c⟩ := p
    by_cases hlt : s < u
    · simp [tableSet, hlt]
    · by_cases heq : s = u
      · subst heq
        simp [tableSet]
      · simp [tableSet, hlt, heq, ih]

theorem mem_tableSet {p : String × α} (h : p ∈ tableSet s a l) : p = (s, a) ∨ p ∈ l := by
  induction l with
  | nil => exact .inl (List.mem_singleton.mp h)
  | cons q r ih =>
    obtain ⟨u, c⟩ := q
    unfold tableSet at h
    split at h
    · exact List.mem_cons.mp h
    · split at h
      · rename_i hu; subst hu
        exact (List.mem_cons.mp h).imp_right (List.mem_cons_of_mem _)
      · rcases List.mem_cons.mp h with rfl | h
        · exact .inr List.mem_cons_self
        · exact (ih h).imp_right (List.mem_cons_of_mem _)

end Table

end Scriptorium.Text
