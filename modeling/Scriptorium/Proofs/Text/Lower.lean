import Mathlib.Data.List.TakeWhile
import Scriptorium.Text.Case
import Scriptorium.Text.Search

/-! # Lower case of parts

The lower case of a part of a text depends on what is around it only through the capital sigmas in
it, whose form is final or not by the letters that are reached from them. A part is firm when its
own characters settle that for each of them. The lower case of every text with a firm part in it has
the lower case of that part; a part that is not firm is lost in the lower case of some such text.
-/

namespace Scriptorium.Text

variable {w a b x x' y y' before after : List Char} {z : Char}

/-! ## Contexts -/

def isFinal (before after : List Char) : Bool := reachesCased before && !reachesCased after

/-- Whether a character of a list ends the search for a letter. -/
def settles (cs : List Char) : Bool := cs.any (!isCaseIgnorable ·)

theorem settles_reverse (cs : List Char) : settles cs.reverse = settles cs := List.any_reverse

theorem reachesCased_append_of_settles (h : settles a = true) (x : List Char) :
    reachesCased (a ++ x) = reachesCased a := by
  have hne : a.dropWhile isCaseIgnorable ≠ [] := by
    simpa [settles, List.dropWhile_eq_nil_iff] using h
  obtain ⟨c, r, hrest⟩ := List.exists_cons_of_ne_nil hne
  rw [reachesCased, reachesCased, List.dropWhile_append, hrest]
  rfl

theorem reachesCased_append_of_not_settles (h : settles a = false) (x : List Char) :
    reachesCased (a ++ x) = reachesCased x := by
  have hall : ∀ c ∈ a, isCaseIgnorable c = true := by simpa [settles] using h
  rw [reachesCased, List.dropWhile_append_of_pos hall, reachesCased]

theorem reachesCased_of_not_settles (h : settles a = false) : reachesCased a = false := by
  rw [← List.append_nil a, reachesCased_append_of_not_settles h]
  rfl

/-- What reaches no letter itself makes no difference behind another list. -/
theorem reachesCased_append_of_apart (hx : reachesCased x = false) (a : List Char) :
    reachesCased (a ++ x) = reachesCased a := by
  cases h : settles a with
  | true => exact reachesCased_append_of_settles h x
  | false =>
      rw [reachesCased_append_of_not_settles h, hx, reachesCased_of_not_settles h]

/-- What stands around a capital sigma in a part settles its form: a letter is reached behind it,
or none is before it, or the search ends within the part on both sides. -/
def Steady (a b : List Char) : Prop :=
  reachesCased b = true ∨ settles a = true ∧ (reachesCased a.reverse = false ∨ settles b = true)

instance (a b : List Char) : Decidable (Steady a b) := inferInstanceAs (Decidable (_ ∨ _ ∧ (_ ∨ _)))

theorem settles_of_reachesCased (h : reachesCased a = true) : settles a = true := by
  by_contra hnot
  rw [reachesCased_of_not_settles (by simpa using hnot)] at h
  cases h

theorem Steady.isFinal_eq (h : Steady a b) (before after : List Char) :
    isFinal (a.reverse ++ before) (b ++ after) = isFinal a.reverse b := by
  have hfront : settles a = true → reachesCased (a.reverse ++ before) = reachesCased a.reverse :=
    fun ha => reachesCased_append_of_settles (by rwa [settles_reverse]) before
  unfold isFinal
  rcases h with hb | ⟨ha, hnone | hb⟩
  · rw [reachesCased_append_of_settles (settles_of_reachesCased hb), hb]
    simp
  · rw [hfront ha, hnone]
    rfl
  · rw [hfront ha, reachesCased_append_of_settles hb]

/-! ## Lower case within a text -/

def lowerBetween (before after : List Char) : List Char → List Char
  | [] => []
  | c :: r =>
    (if c = 'Σ' then [if isFinal before (r ++ after) then 'ς' else 'σ'] else lowerChar c) ++
      lowerBetween (c :: before) after r

theorem lowerFrom_append (before w after : List Char) :
    lowerFrom before (w ++ after) =
      lowerBetween before after w ++ lowerFrom (w.reverse ++ before) after := by
  induction w generalizing before with
  | nil => rfl
  | cons c r ih =>
      rw [List.cons_append, lowerFrom, ih, lowerBetween, List.append_assoc, List.reverse_cons,
        List.append_assoc]
      rfl

theorem lowerFrom_eq (before w : List Char) : lowerFrom before w = lowerBetween before [] w := by
  have h := lowerFrom_append before w []
  rwa [List.append_nil, lowerFrom, List.append_nil] at h

theorem lowerBetween_append (before after a b : List Char) :
    lowerBetween before after (a ++ b) =
      lowerBetween before (b ++ after) a ++ lowerBetween (a.reverse ++ before) after b := by
  induction a generalizing before with
  | nil => rfl
  | cons c r ih =>
      rw [List.cons_append, lowerBetween, lowerBetween, ih, List.append_assoc, List.append_assoc,
        List.reverse_cons, List.append_assoc]
      rfl

theorem length_lowerBetween (x x' y y' w : List Char) :
    (lowerBetween x x' w).length = (lowerBetween y y' w).length := by
  induction w generalizing x y with
  | nil => rfl
  | cons c r ih =>
      rw [lowerBetween, lowerBetween, List.length_append, List.length_append,
        ih (c :: x) (c :: y)]
      by_cases hc : c = 'Σ' <;> simp [hc]

/-- Surroundings in which each capital sigma takes the same form give the same lower case. -/
theorem lowerBetween_congr (h : ∀ a b, w = a ++ 'Σ' :: b →
      isFinal (a.reverse ++ x) (b ++ x') = isFinal (a.reverse ++ y) (b ++ y')) :
    lowerBetween x x' w = lowerBetween y y' w := by
  induction w generalizing x y with
  | nil => rfl
  | cons c r ih =>
      have hrest : lowerBetween (c :: x) x' r = lowerBetween (c :: y) y' r := by
        refine ih fun a b hr => ?_
        have hlonger := h (c :: a) b (by rw [hr]; rfl)
        simpa using hlonger
      rw [lowerBetween, lowerBetween, hrest]
      by_cases hc : c = 'Σ'
      · have hform : isFinal x (r ++ x') = isFinal y (r ++ y') := h [] r (by rw [hc]; rfl)
        rw [if_pos hc, if_pos hc, hform]
      · rw [if_neg hc, if_neg hc]

/-- Where one capital sigma takes another form, the lower case is another one. -/
theorem lowerBetween_ne
    (h : isFinal (a.reverse ++ x) (b ++ x') ≠ isFinal (a.reverse ++ y) (b ++ y')) :
    lowerBetween x x' (a ++ 'Σ' :: b) ≠ lowerBetween y y' (a ++ 'Σ' :: b) := by
  intro hsame
  rw [lowerBetween_append, lowerBetween_append] at hsame
  have hrest := (List.append_inj hsame (length_lowerBetween _ _ _ _ a)).2
  rw [lowerBetween, lowerBetween, if_pos rfl, if_pos rfl] at hrest
  have hhead := (List.cons.inj hrest).1
  revert h hhead
  generalize isFinal (a.reverse ++ x) (b ++ x') = p
  generalize isFinal (a.reverse ++ y) (b ++ y') = q
  cases p <;> cases q <;> decide

/-! ## Firm parts -/

/-- A part in which the form of each capital sigma is settled. -/
def Firm (w : List Char) : Prop := ∀ a b, w = a ++ 'Σ' :: b → Steady a b

theorem firm_iff_take : Firm w ↔
    ∀ i, i < w.length → w[i]? = some 'Σ' → Steady (w.take i) (w.drop (i + 1)) := by
  constructor
  · intro h i hi hsigma
    refine h _ _ ?_
    rw [List.getElem?_eq_getElem hi] at hsigma
    rw [← Option.some.inj hsigma, List.getElem_cons_drop, List.take_append_drop]
  · rintro h a b rfl
    have hat := h a.length (by simp) (by simp)
    simpa using hat

instance (w : List Char) : Decidable (Firm w) := decidable_of_iff _ firm_iff_take.symm

theorem firm_of_not_mem (h : 'Σ' ∉ w) : Firm w := by
  rintro a b rfl
  exact absurd (List.mem_append_right a List.mem_cons_self) h

theorem Firm.lowerBetween_eq (h : Firm w) (before after : List Char) :
    lowerBetween before after w = lowerBetween [] [] w := by
  refine lowerBetween_congr fun a b hw => ?_
  rw [(h a b hw).isFinal_eq, List.append_nil, List.append_nil]

/-- No letter is near a part that stands apart. -/
theorem lowerBetween_of_apart (hbefore : reachesCased before = false)
    (hafter : reachesCased after = false) (w : List Char) :
    lowerBetween before after w = lowerBetween [] [] w := by
  refine lowerBetween_congr fun a b _ => ?_
  unfold isFinal
  rw [reachesCased_append_of_apart hbefore, reachesCased_append_of_apart hafter, List.append_nil,
    List.append_nil]

/-- A part with the same lower case in a text as alone is found there. -/
theorem occursIn_lowerFrom (h : lowerBetween before.reverse after w = lowerBetween [] [] w) :
    occursIn (lowerFrom [] w) (lowerFrom [] (before ++ w ++ after)) = true := by
  refine (occursIn_iff _ _).mpr ⟨lowerBetween [] (w ++ after) before,
    lowerFrom (w.reverse ++ before.reverse) after, ?_⟩
  rw [List.append_assoc, lowerFrom_append, List.append_nil, lowerFrom_append, h, lowerFrom_eq [] w,
    List.append_assoc]

/-! ## Parts that are lost -/

/-- A list that lies in one of the same length with a character more in front is that list, or
begins with that character. -/
theorem eq_or_head_of_occursIn {l m : List Char} (hlength : l.length = m.length)
    (h : occursIn l (z :: m) = true) : l = m ∨ l.head? = some z := by
  obtain ⟨p, r, hsplit⟩ := (occursIn_iff _ _).mp h
  cases p with
  | nil =>
      cases l with
      | nil => exact .inl (List.length_eq_zero_iff.mp hlength.symm).symm
      | cons d l =>
          obtain ⟨rfl, -⟩ := List.cons.inj hsplit
          exact .inr rfl
  | cons d p =>
      have hrest : m = p ++ (l ++ r) := by
        rw [← List.append_assoc]
        exact (List.cons.inj hsplit).2
      have hboth : p.length + r.length = 0 := by
        have hall := congrArg List.length hrest
        simp only [List.length_append] at hall
        omega
      obtain rfl : p = [] := List.length_eq_zero_iff.mp (by omega)
      obtain rfl : r = [] := List.length_eq_zero_iff.mp (by omega)
      exact .inl (by simpa using hrest.symm)

/-- A list that lies in one of the same length with a character more behind is that list, or ends
with that character. -/
theorem eq_or_last_of_occursIn {l m : List Char} (hlength : l.length = m.length)
    (h : occursIn l (m ++ [z]) = true) : l = m ∨ l.getLast? = some z := by
  obtain ⟨p, r, hsplit⟩ := (occursIn_iff _ _).mp h
  have hreverse : occursIn l.reverse (z :: m.reverse) = true := by
    refine (occursIn_iff _ _).mpr ⟨r.reverse, p.reverse, ?_⟩
    have hturned := congrArg List.reverse hsplit
    simpa using hturned
  have hcases := eq_or_head_of_occursIn (by simpa using hlength) hreverse
  simpa using hcases

/-- A small letter other than a given character. -/
theorem exists_letter (d : Option Char) :
    ∃ z, d ≠ some z ∧ reachesCased [z] = true ∧
      ∀ before after, lowerBetween before after [z] = [z] := by
  by_cases hd : d = some 'a'
  · refine ⟨'b', ?_, by decide +kernel, fun _ _ => rfl⟩
    rw [hd]
    decide
  · exact ⟨'a', hd, by decide +kernel, fun _ _ => rfl⟩

/-- Where neither side of a capital sigma settles its form, a letter in front makes it final. -/
theorem exists_lost_behind (ha : settles a = false) (hb : reachesCased b = false) :
    ∃ z, occursIn (lowerFrom [] (a ++ 'Σ' :: b)) (lowerFrom [] (z :: (a ++ 'Σ' :: b))) = false := by
  obtain ⟨z, hz, hcased, hletter⟩ := exists_letter (lowerFrom [] (a ++ 'Σ' :: b)).head?
  refine ⟨z, Bool.eq_false_iff.mpr fun hfound => ?_⟩
  have htext : lowerFrom [] (z :: (a ++ 'Σ' :: b)) = z :: lowerBetween [z] [] (a ++ 'Σ' :: b) := by
    have hsplit := lowerFrom_append [] [z] (a ++ 'Σ' :: b)
    rw [hletter, lowerFrom_eq ([z].reverse ++ [])] at hsplit
    exact hsplit
  have hform : isFinal (a.reverse ++ []) (b ++ []) ≠ isFinal (a.reverse ++ [z]) (b ++ []) := by
    have hreverse : settles a.reverse = false := by rwa [settles_reverse]
    rw [isFinal, isFinal, reachesCased_append_of_not_settles hreverse,
      reachesCased_append_of_not_settles hreverse, hcased, List.append_nil, hb]
    decide
  rw [htext, lowerFrom_eq [] (a ++ 'Σ' :: b)] at hfound
  rw [lowerFrom_eq] at hz
  rcases eq_or_head_of_occursIn (length_lowerBetween _ _ _ _ _) hfound with hsame | hhead
  · exact lowerBetween_ne hform hsame
  · exact hz hhead

/-- A capital sigma that is final only by the end of its part is not final in front of a letter. -/
theorem exists_lost_before (ha : reachesCased a.reverse = true) (hb : settles b = false) :
    ∃ z, occursIn (lowerFrom [] (a ++ 'Σ' :: b)) (lowerFrom [] (a ++ 'Σ' :: b ++ [z])) = false := by
  obtain ⟨z, hz, hcased, hletter⟩ := exists_letter (lowerFrom [] (a ++ 'Σ' :: b)).getLast?
  refine ⟨z, Bool.eq_false_iff.mpr fun hfound => ?_⟩
  have htext : lowerFrom [] (a ++ 'Σ' :: b ++ [z]) =
      lowerBetween [] [z] (a ++ 'Σ' :: b) ++ [z] := by
    rw [lowerFrom_append, lowerFrom_eq _ [z], hletter]
  have hform : isFinal (a.reverse ++ []) (b ++ []) ≠ isFinal (a.reverse ++ []) (b ++ [z]) := by
    rw [isFinal, isFinal, reachesCased_append_of_not_settles hb,
      reachesCased_append_of_not_settles hb, hcased, List.append_nil, ha]
    decide
  rw [htext, lowerFrom_eq [] (a ++ 'Σ' :: b)] at hfound
  rw [lowerFrom_eq] at hz
  rcases eq_or_last_of_occursIn (length_lowerBetween _ _ _ _ _) hfound with hsame | hlast
  · exact lowerBetween_ne hform hsame
  · exact hz hlast

/-- A part that is not firm is lost in some text. -/
theorem exists_lost (h : ¬ Firm w) : ∃ text, occursIn w text = true ∧
    occursIn (lowerFrom [] w) (lowerFrom [] text) = false := by
  obtain ⟨a, b, rfl, hopen⟩ : ∃ a b, w = a ++ 'Σ' :: b ∧ ¬ Steady a b := by
    simpa [Firm] using h
  have hb : reachesCased b = false := by
    simpa using fun hb : reachesCased b = true => hopen (.inl hb)
  cases ha : settles a with
  | false =>
      obtain ⟨z, hlost⟩ := exists_lost_behind ha hb
      exact ⟨_, (occursIn_iff _ _).mpr ⟨[z], [], by simp⟩, hlost⟩
  | true =>
      have hcased : reachesCased a.reverse = true := by
        by_contra hnone
        exact hopen (.inr ⟨ha, .inl (by simpa using hnone)⟩)
      have hend : settles b = false := by
        by_contra hsome
        exact hopen (.inr ⟨ha, .inr (by simpa using hsome)⟩)
      obtain ⟨z, hlost⟩ := exists_lost_before hcased hend
      exact ⟨_, (occursIn_iff _ _).mpr ⟨[], [z], by simp⟩, hlost⟩

/-! ## Texts -/

theorem lowerFrom_ne_nil (before : List Char) (hw : w ≠ []) : lowerFrom before w ≠ [] := by
  obtain ⟨c, r, rfl⟩ := List.exists_cons_of_ne_nil hw
  have hchar : lowerChar c ≠ [] := by
    unfold lowerChar
    split_ifs <;> simp
  rw [lowerFrom]
  split_ifs <;> simp [hchar]

/-- A text that holds a firm part holds its lower case in lower case, and only for a firm part is
that so of all texts. -/
theorem firm_iff_contains {s : String} : Firm s.toList ↔
    ∀ t, contains t s = true → contains (lowercase t) (lowercase s) = true := by
  constructor
  · intro hfirm t ht
    obtain ⟨before, after, hsplit⟩ := (occursIn_iff _ _).mp ht
    rw [contains, lowercase, lowercase, String.toList_ofList, String.toList_ofList, hsplit]
    exact occursIn_lowerFrom (hfirm.lowerBetween_eq _ _)
  · intro hall
    by_contra hopen
    obtain ⟨text, hholds, hlost⟩ := exists_lost hopen
    have hfound := hall (String.ofList text) (by rwa [contains, String.toList_ofList])
    rw [contains, lowercase, lowercase, String.toList_ofList, String.toList_ofList,
      String.toList_ofList, hlost] at hfound
    cases hfound

/-- A part that stands apart from letters is found whatever is in it. -/
theorem contains_lowercase_of_apart {p s q : String} (hp : reachesCased p.toList.reverse = false)
    (hq : reachesCased q.toList = false) :
    contains (lowercase (p ++ s ++ q)) (lowercase s) = true := by
  rw [contains, lowercase, lowercase, String.toList_ofList, String.toList_ofList,
    String.toList_append, String.toList_append]
  exact occursIn_lowerFrom (lowerBetween_of_apart hp hq _)

end Scriptorium.Text
