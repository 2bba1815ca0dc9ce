import Mathlib.Data.List.TakeWhile
import Scriptorium.Json.Object
import Scriptorium.Proofs.Json.Front

/-! # The first object in a text

An object text begins with its brace and is read to its end as one object. The search through a text
finds the first place where such a text begins, and finds nothing exactly if there is no such place.
What follows an object has no part in it.
-/

namespace Scriptorium.Json

variable {cs s t x y r before after : List Char}

/-! ## Object texts -/

/-- A text that is one object from its brace to its end. -/
def IsObject (s : List Char) : Prop :=
  s.head? = some '\x7b' ∧ ∃ ms, readFront s = some (.obj ms, [])

theorem not_isNumber_obj (ms : List (String × Json)) : ¬ IsNumber (.obj ms) := by
  rintro ⟨n, hn⟩
  cases hn

theorem IsObject.readFront_append (h : IsObject s) :
    ∃ ms, ∀ x, readFront (s ++ x) = some (.obj ms, x) := by
  obtain ⟨-, ms, hread⟩ := h
  exact ⟨ms, fun x => Json.readFront_append hread (fun hn => absurd hn (not_isNumber_obj ms)) x⟩

theorem IsObject.eq_cons (h : IsObject s) : ∃ u, s = '\x7b' :: u := List.head?_eq_some_iff.mp h.1

theorem IsObject.getLast? (h : IsObject s) : s.getLast? = some '\x7d' := by
  obtain ⟨-, ms, hread⟩ := h
  obtain ⟨t, hsplit, hclosed, -⟩ := readFront_local hread
  rw [hsplit, List.append_nil]
  exact hclosed ms rfl

/-- An object ends at one place only. -/
theorem IsObject.unique (hs : IsObject s) (ht : IsObject t) (h : s ++ x = t ++ y) : s = t := by
  obtain ⟨ms, hreads⟩ := hs.readFront_append
  obtain ⟨ns, hreadt⟩ := ht.readFront_append
  have hsame := (hreads x).symm.trans (h ▸ hreadt y)
  obtain ⟨-, rfl⟩ := Prod.mk.inj (Option.some.inj hsame)
  exact List.append_cancel_right h

/-- What is read as an object off the front is an object text. -/
theorem isObject_of_readFront {ms : List (String × Json)}
    (h : readFront ('\x7b' :: cs) = some (.obj ms, r)) :
    ∃ s, '\x7b' :: cs = s ++ r ∧ IsObject s := by
  obtain ⟨s, hsplit, -, htake⟩ := readFront_local h
  have hwhole := htake [] fun hn => absurd hn (not_isNumber_obj ms)
  rw [List.append_nil] at hwhole
  refine ⟨s, hsplit, ?_, ms, hwhole⟩
  cases s with
  | nil => cases hwhole
  | cons c s => rw [← (List.cons.inj hsplit).1, List.head?_cons]

/-- A text that is read as an object is an object text between blanks. -/
theorem exists_object_of_parse? {j : String} {ms : List (String × Json)}
    (h : parse? j = some (.obj ms)) :
    ∃ lead s trail, j.toList = lead ++ s ++ trail ∧ IsObject s ∧
      (∀ c ∈ lead, isSpace c = true) ∧ ∀ c ∈ trail, isSpace c = true := by
  unfold parse? at h
  cases hread : readFront j.toList with
  | none =>
      rw [hread] at h
      cases h
  | some p =>
      obtain ⟨v, trail⟩ := p
      simp only [hread] at h
      split at h
      · rename_i hblank
        obtain rfl := Option.some.inj h
        obtain ⟨u, hu⟩ := skipSpace_of_obj hread
        have hfront := readFront_skipSpace hread
        rw [hu] at hfront
        obtain ⟨s, hsplit, hs⟩ := isObject_of_readFront hfront
        refine ⟨j.toList.takeWhile isSpace, s, trail, ?_, hs, fun c => List.mem_takeWhile_imp,
          List.dropWhile_eq_nil_iff.mp (List.isEmpty_iff.mp hblank)⟩
        rw [List.append_assoc, ← hsplit, ← hu, skipSpace, List.takeWhile_append_dropWhile]
      · cases h

theorem IsObject.parse?_eq (h : IsObject s) : ∃ ms, parse? (String.ofList s) = some (.obj ms) := by
  obtain ⟨-, ms, hread⟩ := h
  refine ⟨ms, ?_⟩
  rw [parse?, String.toList_ofList, hread]
  rfl

/-! ## The search -/

def StartsObject (cs : List Char) : Prop := ∃ s x, cs = s ++ x ∧ IsObject s

theorem objectSlice?_append (h : IsObject s) (x : List Char) : objectSlice? (s ++ x) = some s := by
  obtain ⟨ms, hread⟩ := h.readFront_append
  obtain ⟨u, rfl⟩ := h.eq_cons
  have hfront := hread x
  rw [List.cons_append] at hfront ⊢
  rw [objectSlice?, if_pos rfl, hfront]
  simp only [Option.some.injEq]
  rw [← List.cons_append, List.length_append, Nat.add_sub_cancel, List.take_left]

theorem objectSlice?_cons {c : Char} (h : ¬ StartsObject (c :: cs)) :
    objectSlice? (c :: cs) = objectSlice? cs := by
  rw [objectSlice?]
  split
  · rename_i hc
    subst hc
    split
    · rename_i ms rest hread
      obtain ⟨s, hsplit, hs⟩ := isObject_of_readFront hread
      exact absurd ⟨s, rest, hsplit, hs⟩ h
    · rfl
  · rfl

/-- `s` is an object text between `before` and `after`, and none begins earlier. -/
structure IsFirst (before s after : List Char) : Prop where
  object : IsObject s
  none_earlier : ∀ b c, before = b ++ c → c ≠ [] → ¬ StartsObject (c ++ (s ++ after))

theorem objectSlice?_eq_none_iff :
    objectSlice? cs = none ↔ ∀ b c, cs = b ++ c → ¬ StartsObject c := by
  induction cs with
  | nil =>
      refine iff_of_true rfl fun b c hsplit => ?_
      obtain ⟨-, rfl⟩ := List.append_eq_nil_iff.mp hsplit.symm
      rintro ⟨s, x, hsx, hs⟩
      obtain ⟨rfl, -⟩ := List.append_eq_nil_iff.mp hsx.symm
      cases hs.1
  | cons d cs ih =>
      by_cases h : StartsObject (d :: cs)
      · obtain ⟨s, x, hsx, hs⟩ := id h
        rw [hsx, objectSlice?_append hs]
        exact iff_of_false nofun fun hnone => hnone [] _ rfl ⟨s, x, rfl, hs⟩
      · rw [objectSlice?_cons h, ih]
        constructor
        · intro hnone b c hsplit
          cases b with
          | nil =>
              obtain rfl : d :: cs = c := hsplit
              exact h
          | cons e b => exact hnone b c (List.cons.inj hsplit).2
        · exact fun hnone b c hsplit => hnone (d :: b) c (by rw [hsplit, List.cons_append])

theorem objectSlice?_eq_some_iff :
    objectSlice? cs = some s ↔
      ∃ before after, cs = before ++ (s ++ after) ∧ IsFirst before s after := by
  induction cs with
  | nil =>
      refine iff_of_false nofun ?_
      rintro ⟨before, after, hsplit, hs, -⟩
      obtain ⟨-, hempty⟩ := List.append_eq_nil_iff.mp hsplit.symm
      obtain ⟨rfl, -⟩ := List.append_eq_nil_iff.mp hempty
      cases hs.1
  | cons d cs ih =>
      by_cases h : StartsObject (d :: cs)
      · obtain ⟨t, x, hsx, ht⟩ := id h
        rw [hsx, objectSlice?_append ht, Option.some.injEq]
        constructor
        · rintro rfl
          refine ⟨[], x, rfl, ht, fun b c hbc hc => ?_⟩
          exact absurd (List.append_eq_nil_iff.mp hbc.symm).2 hc
        · rintro ⟨before, after, hsplit, hs, hnone⟩
          cases before with
          | nil => exact ht.unique hs hsplit
          | cons e before =>
              have hnot := hnone [] (e :: before) rfl (List.cons_ne_nil e before)
              rw [← hsplit, ← hsx] at hnot
              exact absurd h hnot
      · rw [objectSlice?_cons h, ih]
        constructor
        · rintro ⟨before, after, rfl, hs, hnone⟩
          refine ⟨d :: before, after, rfl, hs, fun b c hbc hc => ?_⟩
          cases b with
          | nil =>
              obtain rfl : d :: before = c := hbc
              exact h
          | cons e b => exact hnone b c (List.cons.inj hbc).2 hc
        · rintro ⟨before, after, hsplit, hs, hnone⟩
          cases before with
          | nil => exact absurd ⟨s, after, hsplit, hs⟩ h
          | cons e before =>
              refine ⟨before, after, (List.cons.inj hsplit).2, hs, fun b c hbc hc => ?_⟩
              exact hnone (e :: b) c (by rw [hbc, List.cons_append]) hc

/-- What is found is read as an object on its own. -/
theorem parse?_of_objectSlice? (h : objectSlice? cs = some s) :
    ∃ ms, parse? (String.ofList s) = some (.obj ms) := by
  obtain ⟨before, after, -, hfirst⟩ := objectSlice?_eq_some_iff.mp h
  exact hfirst.object.parse?_eq

/-- The first object in a text is the one at its first brace, if there is one there. -/
theorem objectSlice?_behind (hbrace : '\x7b' ∉ before) (h : IsObject s) (after : List Char) :
    objectSlice? (before ++ (s ++ after)) = some s := by
  refine objectSlice?_eq_some_iff.mpr ⟨before, after, rfl, h, ?_⟩
  rintro b c rfl hc ⟨t, x, hsplit, ht⟩
  obtain ⟨u, rfl⟩ := ht.eq_cons
  cases c with
  | nil => exact hc rfl
  | cons d c =>
      obtain ⟨rfl, -⟩ := List.cons.inj hsplit
      exact hbrace (by simp)

/-! ## What follows an object -/

/-- With other text behind the first object, it is the first again, unless that text completes an
object that begins before it and holds it. -/
theorem IsFirst.other (h : IsFirst before s after) (other : List Char) :
    IsFirst before s other ∨ ∃ b c w, before = b ++ c ∧ c ≠ [] ∧ w ≠ [] ∧ w <+: other ∧
      objectSlice? (before ++ (s ++ other)) = some (c ++ (s ++ w)) := by
  have hstarts : StartsObject (s ++ other) := ⟨s, other, rfl, h.object⟩
  cases hslice : objectSlice? (before ++ (s ++ other)) with
  | none => exact absurd hstarts (objectSlice?_eq_none_iff.mp hslice before _ rfl)
  | some t =>
      obtain ⟨front, back, hsplit, ht⟩ := objectSlice?_eq_some_iff.mp hslice
      have hfront (hsame : before = front) : IsFirst before s other :=
        ⟨h.object, fun b c hbc hc => by
          subst hsame
          rw [List.append_cancel_left hsplit]
          exact ht.none_earlier b c hbc hc⟩
      obtain ⟨c, rfl, hc⟩ | ⟨c, rfl, hc⟩ := List.append_eq_append_iff.mp hsplit
      · cases c with
        | nil => exact .inl (hfront (List.append_nil _).symm)
        | cons d c =>
            have hnot := ht.none_earlier before (d :: c) rfl (List.cons_ne_nil d c)
            exact absurd hstarts (hc ▸ hnot)
      · by_cases hne : c = []
        · exact .inl (hfront (by rw [hne, List.append_nil]))
        · -- An object that begins earlier has to go on behind `s`, or it would have been first.
          have hnot := h.none_earlier front c rfl hne
          rw [← List.append_assoc] at hc
          obtain ⟨w, hw, -⟩ | ⟨w, rfl, hw⟩ := List.append_eq_append_iff.mp hc
          · refine absurd ⟨t, w ++ after, ?_, ht.object⟩ hnot
            rw [← List.append_assoc, hw, List.append_assoc]
          · refine .inr ⟨front, c, w, rfl, hne, ?_, ⟨back, hw.symm⟩, by rw [List.append_assoc]⟩
            rintro rfl
            rw [List.append_nil] at ht
            exact hnot ⟨c ++ s, after, by rw [List.append_assoc], ht.object⟩

end Scriptorium.Json
