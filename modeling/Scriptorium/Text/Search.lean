/-!
# Substrings

Where one list of characters begins or lies inside another, and replacing every occurrence of one
character.
-/

namespace Scriptorium.Text

def startsWith : List Char → List Char → Bool
  | [], _ => true
  | _ :: _, [] => false
  | a :: as, b :: bs => a == b && startsWith as bs

def occursIn (needle : List Char) : List Char → Bool
  | [] => needle.isEmpty
  | c :: r => startsWith needle (c :: r) || occursIn needle r

def contains (hay needle : String) : Bool := occursIn needle.toList hay.toList

/-- Every occurrence of a character replaced by a text. -/
def replaceChar (c : Char) (by_ : String) (s : String) : String :=
  String.ofList (s.toList.flatMap fun d => if d = c then by_.toList else [d])

theorem startsWith_iff (a b : List Char) : startsWith a b = true ↔ ∃ r, b = a ++ r := by
  induction a generalizing b with
  | nil => simp [startsWith]
  | cons x a ih => cases b with
    | nil => simp [startsWith]
    | cons y b =>
      simp only [startsWith, Bool.and_eq_true, beq_iff_eq, ih, List.cons_append, List.cons.injEq]
      exact ⟨fun ⟨h, r, e⟩ => ⟨r, h.symm, e⟩, fun ⟨r, h, e⟩ => ⟨h.symm, r, e⟩⟩

theorem occursIn_iff (a b : List Char) : occursIn a b = true ↔ ∃ p r, b = p ++ a ++ r := by
  induction b with
  | nil =>
    simp only [occursIn, List.isEmpty_iff]
    constructor
    · rintro rfl; exact ⟨[], [], rfl⟩
    · rintro ⟨p, r, h⟩
      have := congrArg List.length h
      simp only [List.length_nil, List.length_append] at this
      exact List.length_eq_zero_iff.1 (by omega)
  | cons c b ih =>
    simp only [occursIn, Bool.or_eq_true, startsWith_iff, ih]
    constructor
    · rintro (⟨r, h⟩ | ⟨p, r, h⟩)
      · exact ⟨[], r, by simpa using h⟩
      · exact ⟨c :: p, r, by simp [h]⟩
    · rintro ⟨p, r, h⟩
      cases p with
      | nil => exact .inl ⟨r, by simpa using h⟩
      | cons d p => exact .inr ⟨p, r, by simp at h; simp [h.2]⟩

end Scriptorium.Text
