import Scriptorium.Json.Reader

/-! # Reading tokens

A word or a quoted text is read alike whatever follows it. A number looks at the next character,
since more digits could follow; it is read alike when nothing follows it, and when something follows
that begins with the same character.
-/

namespace Scriptorium.Json

variable {cs r s x : List Char} {c : Char}

/-! ## The next character -/

def InPlaceOf (r x : List Char) : Prop := x = [] ∨ x.head? = r.head?

theorem InPlaceOf.append (h : InPlaceOf r x) (s : List Char) : InPlaceOf (s ++ r) (s ++ x) := by
  cases s with
  | nil => exact h
  | cons c s => exact .inr rfl

theorem inPlaceOf_of_same (w : List Char) (c : Char) (y x : List Char) :
    InPlaceOf (w ++ c :: y) (w ++ c :: x) := by
  have hhead : InPlaceOf (c :: y) (c :: x) := .inr rfl
  exact hhead.append w

theorem inPlaceOf_append (hr : r ≠ []) (x : List Char) : InPlaceOf r (r ++ x) := by
  cases r with
  | nil => exact absurd rfl hr
  | cons c r => exact .inr rfl

theorem InPlaceOf.eq_nil (h : InPlaceOf [] x) : x = [] := by
  cases x with
  | nil => rfl
  | cons c x => exact h.resolve_right (by simp)

/-- Nothing, or a text with the same first character. -/
theorem InPlaceOf.cases_cons (h : InPlaceOf (c :: r) x) : x = [] ∨ ∃ y, x = c :: y := by
  cases x with
  | nil => exact .inl rfl
  | cons d y =>
      have hhead := h.resolve_left (List.cons_ne_nil d y)
      exact .inr ⟨y, by rw [Option.some.inj hhead]⟩

section Takes

variable {α : Type}

/-- A reader takes a front off a text, and takes it again when something else follows. -/
def Takes (read : List Char → Option (α × List Char)) (cs : List Char) (a : α) (r : List Char) :
    Prop :=
  ∃ s, cs = s ++ r ∧ ∀ x, InPlaceOf r x → read (s ++ x) = some (a, x)

variable {read : List Char → Option (α × List Char)} {a : α}

/-- A reader that reads nothing from nothing takes the first character. -/
theorem Takes.cons (h : Takes read (c :: cs) a r) (hnil : read [] = none) :
    Takes (fun cs => read (c :: cs)) cs a r := by
  obtain ⟨s, hsplit, hread⟩ := h
  cases s with
  | nil =>
      have hempty := hread [] (.inl rfl)
      rw [List.append_nil, hnil] at hempty
      cases hempty
  | cons d s =>
      obtain ⟨rfl, hrest⟩ := List.cons.inj hsplit
      exact ⟨s, hrest, hread⟩

end Takes

/-! ## Blanks and digits -/

theorem dropWhile_takeWhile_append {p : Char → Bool} (h : InPlaceOf (cs.dropWhile p) x) :
    (cs.takeWhile p ++ x).dropWhile p = x ∧ (cs.takeWhile p ++ x).takeWhile p = cs.takeWhile p := by
  induction cs with
  | nil =>
      obtain rfl := h.eq_nil
      exact ⟨rfl, rfl⟩
  | cons c cs ih =>
      by_cases hc : p c = true
      · simp only [List.dropWhile_cons, List.takeWhile_cons, hc, if_true] at h ⊢
        simpa [hc] using ih h
      · simp only [List.dropWhile_cons, List.takeWhile_cons, hc] at h ⊢
        obtain rfl | ⟨y, rfl⟩ := h.cases_cons
        · exact ⟨rfl, rfl⟩
        · simp [hc]

theorem skipSpace_append (h : skipSpace cs ≠ []) (x : List Char) :
    skipSpace (cs ++ x) = skipSpace cs ++ x := by
  have htake := (dropWhile_takeWhile_append (inPlaceOf_append h x)).1
  rwa [← List.append_assoc, skipSpace, List.takeWhile_append_dropWhile] at htake

/-- Blanks are skipped whatever follows the character behind them. -/
theorem skipSpace_split (h : skipSpace cs = c :: r) :
    ∃ w, cs = w ++ c :: r ∧ ∀ x, skipSpace (w ++ c :: x) = c :: x := by
  refine ⟨cs.takeWhile isSpace, ?_, fun x => (dropWhile_takeWhile_append ?_).1⟩
  · rw [← h, skipSpace, List.takeWhile_append_dropWhile]
  · rw [show cs.dropWhile isSpace = c :: r from h]
    exact .inr rfl

theorem takeDigits_takes {acc count a n : Nat} (h : takeDigits acc count cs = (a, n, r)) :
    ∃ s, cs = s ++ r ∧ ∀ x, InPlaceOf r x → takeDigits acc count (s ++ x) = (a, n, x) := by
  induction cs generalizing acc count with
  | nil =>
      obtain ⟨rfl, rfl, rfl⟩ : acc = a ∧ count = n ∧ [] = r := by simpa [takeDigits] using h
      refine ⟨[], rfl, fun x hx => ?_⟩
      rw [hx.eq_nil]
      rfl
  | cons c cs ih =>
      rw [takeDigits] at h
      by_cases hc : (c.isDigit && decide (acc * 10 + digitValue c ≤ wordMax)) = true
      · rw [if_pos hc] at h
        obtain ⟨s, rfl, hread⟩ := ih h
        refine ⟨c :: s, rfl, fun x hx => ?_⟩
        rw [List.cons_append, takeDigits, if_pos hc]
        exact hread x hx
      · rw [if_neg hc] at h
        obtain ⟨rfl, rfl, rfl⟩ : acc = a ∧ count = n ∧ c :: cs = r := by simpa using h
        refine ⟨[], rfl, fun x hx => ?_⟩
        obtain rfl | ⟨y, rfl⟩ := hx.cases_cons
        · rfl
        · rw [List.nil_append, takeDigits, if_neg hc]

theorem dropDigits_takes {count n : Nat} (h : dropDigits count cs = (n, r)) :
    ∃ s, cs = s ++ r ∧ ∀ x, InPlaceOf r x → dropDigits count (s ++ x) = (n, x) := by
  induction cs generalizing count with
  | nil =>
      obtain ⟨rfl, rfl⟩ : count = n ∧ [] = r := by simpa [dropDigits] using h
      refine ⟨[], rfl, fun x hx => ?_⟩
      rw [hx.eq_nil]
      rfl
  | cons c cs ih =>
      rw [dropDigits] at h
      by_cases hc : c.isDigit = true
      · rw [if_pos hc] at h
        obtain ⟨s, rfl, hread⟩ := ih h
        refine ⟨c :: s, rfl, fun x hx => ?_⟩
        rw [List.cons_append, dropDigits, if_pos hc]
        exact hread x hx
      · rw [if_neg hc] at h
        obtain ⟨rfl, rfl⟩ : count = n ∧ c :: cs = r := by simpa using h
        refine ⟨[], rfl, fun x hx => ?_⟩
        obtain rfl | ⟨y, rfl⟩ := hx.cases_cons
        · rfl
        · rw [List.nil_append, dropDigits, if_neg hc]

/-! ## Numbers -/

section Number

variable {negative : Bool} {digits : Nat} {exponent : Int} {n : JsonNumber}

theorem readPower_takes {down : Bool}
    (h : readPower negative digits exponent down cs = some (n, r)) :
    Takes (readPower negative digits exponent down) cs n r := by
  obtain ⟨m, hm, hpair⟩ := Option.map_eq_some_iff.mp h
  obtain ⟨rfl, rfl⟩ := Prod.mk.inj hpair
  refine ⟨cs.takeWhile Char.isDigit, List.takeWhile_append_dropWhile.symm, fun x hx => ?_⟩
  obtain ⟨hdrop, htake⟩ := dropWhile_takeWhile_append hx
  rw [readPower, htake, hdrop, hm]
  rfl

theorem readExponent_takes (h : readExponent negative digits exponent cs = some (n, r)) :
    Takes (readExponent negative digits exponent) cs n r := by
  cases cs with
  | nil => cases h
  | cons c cs =>
      by_cases hplus : c = '+'
      · subst hplus
        obtain ⟨s, rfl, hread⟩ := readPower_takes h
        exact ⟨'+' :: s, rfl, hread⟩
      · by_cases hminus : c = '-'
        · subst hminus
          obtain ⟨s, rfl, hread⟩ := readPower_takes h
          exact ⟨'-' :: s, rfl, hread⟩
        · have hplain (u : List Char) : readExponent negative digits exponent (c :: u) =
              readPower negative digits exponent false (c :: u) := by
            unfold readExponent
            split <;> simp_all
          rw [hplain] at h
          obtain ⟨s, rfl, hread⟩ := (readPower_takes h).cons rfl
          exact ⟨c :: s, rfl, fun x hx => (hplain (s ++ x)).trans (hread x hx)⟩

/-- A real number whose digits are followed by no exponent. -/
theorem readTail_plain (hc : ¬ (c = 'e' ∨ c = 'E')) (x : List Char) :
    readTail negative digits exponent (c :: x) =
      (makeReal negative digits exponent).map (·, c :: x) := by
  rw [readTail, if_neg hc]

theorem readTail_takes (h : readTail negative digits exponent cs = some (n, r)) :
    Takes (readTail negative digits exponent) cs n r := by
  cases cs with
  | nil =>
      obtain ⟨m, hm, hpair⟩ := Option.map_eq_some_iff.mp h
      obtain ⟨rfl, rfl⟩ := Prod.mk.inj hpair
      refine ⟨[], rfl, fun x hx => ?_⟩
      rw [hx.eq_nil, List.append_nil, readTail, hm]
      rfl
  | cons c cs =>
      by_cases hc : c = 'e' ∨ c = 'E'
      · rw [readTail, if_pos hc] at h
        obtain ⟨s, rfl, hread⟩ := readExponent_takes h
        refine ⟨c :: s, rfl, fun x hx => ?_⟩
        rw [List.cons_append, readTail, if_pos hc]
        exact hread x hx
      · rw [readTail_plain hc] at h
        obtain ⟨m, hm, hpair⟩ := Option.map_eq_some_iff.mp h
        obtain ⟨rfl, rfl⟩ := Prod.mk.inj hpair
        refine ⟨[], rfl, fun x hx => ?_⟩
        obtain rfl | ⟨y, rfl⟩ := hx.cases_cons
        · rw [List.append_nil, readTail, hm]
          rfl
        · rw [List.nil_append, readTail_plain hc, hm]
          rfl

/-- Digits are taken and then dropped. -/
theorem digits_take {acc count dropped a m d : Nat} {rest left : List Char}
    (htaken : takeDigits acc count cs = (a, m, rest))
    (hdropped : dropDigits dropped rest = (d, left)) :
    ∃ s, cs = s ++ left ∧ ∀ x, InPlaceOf left x →
      ∃ rest, takeDigits acc count (s ++ x) = (a, m, rest) ∧ dropDigits dropped rest = (d, x) := by
  obtain ⟨s, rfl, htake⟩ := takeDigits_takes htaken
  obtain ⟨t, rfl, hdrop⟩ := dropDigits_takes hdropped
  refine ⟨s ++ t, List.append_assoc s t left |>.symm, fun x hx => ⟨t ++ x, ?_, hdrop x hx⟩⟩
  rw [List.append_assoc]
  exact htake (t ++ x) (hx.append t)

theorem readFraction_takes (h : readFraction negative digits exponent cs = some (n, r)) :
    Takes (readFraction negative digits exponent) cs n r := by
  unfold readFraction at h
  rcases htaken : takeDigits digits 0 cs with ⟨d, kept, rest⟩
  rcases hdropped : dropDigits 0 rest with ⟨dropped, left⟩
  simp only [htaken, hdropped] at h
  by_cases hnone : kept + dropped = 0
  · rw [if_pos hnone] at h
    cases h
  · rw [if_neg hnone] at h
    obtain ⟨s, rfl, hdigits⟩ := digits_take htaken hdropped
    obtain ⟨t, rfl, hread⟩ := readTail_takes h
    refine ⟨s ++ t, (List.append_assoc s t r).symm, fun x hx => ?_⟩
    obtain ⟨rest, htake, hdrop⟩ := hdigits (t ++ x) (hx.append t)
    rw [List.append_assoc]
    simp only [readFraction, htake, hdrop, if_neg hnone]
    exact hread x hx

theorem readAfter_cons {dropped : Nat} (hpoint : c ≠ '.') (x : List Char) :
    readAfter negative digits dropped (c :: x) =
      if c = 'e' ∨ c = 'E' ∨ 0 < dropped then readTail negative digits dropped (c :: x)
      else some (integer negative digits, c :: x) := by
  rw [readAfter]
  exact hpoint

theorem readAfter_nil {dropped : Nat} (h : readAfter negative digits dropped [] = some (n, r)) :
    r = [] := by
  simp only [readAfter] at h
  split at h
  · obtain ⟨m, -, hpair⟩ := Option.map_eq_some_iff.mp h
    exact (Prod.mk.inj hpair).2.symm
  · exact (Prod.mk.inj (Option.some.inj h)).2.symm

theorem readAfter_takes {dropped : Nat} (h : readAfter negative digits dropped cs = some (n, r)) :
    Takes (readAfter negative digits dropped) cs n r := by
  cases cs with
  | nil =>
      obtain rfl := readAfter_nil h
      refine ⟨[], rfl, fun x hx => ?_⟩
      rw [hx.eq_nil]
      exact h
  | cons c cs =>
      by_cases hpoint : c = '.'
      · subst hpoint
        obtain ⟨s, rfl, hread⟩ := readFraction_takes h
        exact ⟨'.' :: s, rfl, hread⟩
      · by_cases hexp : c = 'e' ∨ c = 'E'
        · have hchoice : c = 'e' ∨ c = 'E' ∨ 0 < dropped := hexp.imp_right .inl
          rw [readAfter_cons hpoint, if_pos hchoice, readTail, if_pos hexp] at h
          obtain ⟨s, rfl, hread⟩ := readExponent_takes h
          refine ⟨c :: s, rfl, fun x hx => ?_⟩
          rw [List.cons_append, readAfter_cons hpoint, if_pos hchoice, readTail, if_pos hexp]
          exact hread x hx
        · -- The number ends before `c`, and whether it is real does not hang on `c`.
          have hchoice : (c = 'e' ∨ c = 'E' ∨ 0 < dropped) ↔ 0 < dropped := by
            rw [← or_assoc]
            exact or_iff_right hexp
          have hends (x : List Char) : readAfter negative digits dropped (c :: x) =
              (readAfter negative digits dropped []).map fun p => (p.1, c :: x) := by
            rw [readAfter_cons hpoint]
            simp only [hchoice, readAfter, readTail, if_neg hexp]
            split <;> simp [Function.comp_def]
          rw [hends] at h
          obtain ⟨⟨m, rest⟩, hnone, hpair⟩ := Option.map_eq_some_iff.mp h
          obtain ⟨rfl, rfl⟩ := Prod.mk.inj hpair
          obtain rfl := readAfter_nil hnone
          refine ⟨[], rfl, fun x hx => ?_⟩
          obtain rfl | ⟨y, rfl⟩ := hx.cases_cons
          · exact hnone
          · rw [List.nil_append, hends, hnone]
            rfl

theorem digitValue_le (hc : c.isDigit = true) : digitValue c ≤ 9 := by
  rw [Char.isDigit, Bool.and_eq_true, decide_eq_true_eq, decide_eq_true_eq,
    UInt32.le_iff_toNat_le] at hc
  exact Nat.sub_le_sub_right hc.2 '0'.toNat

/-- The first digit is taken. -/
theorem takeDigits_first (hc : c.isDigit = true) (x : List Char) :
    takeDigits 0 0 (c :: x) = takeDigits (digitValue c) 1 x := by
  have hfits : digitValue c ≤ wordMax := Nat.le_trans (digitValue_le hc) (by decide)
  rw [takeDigits, if_pos (by simp [hc, hfits]), Nat.zero_mul, Nat.zero_add]

theorem readNumber_takes (h : readNumber negative cs = some (n, r)) :
    Takes (readNumber negative) cs n r := by
  cases cs with
  | nil => cases h
  | cons c cs =>
      by_cases hdigit : c.isDigit = true
      · simp only [readNumber, hdigit, Bool.not_true, Bool.false_eq_true, if_false] at h
        by_cases hzero : c = '0'
        · simp only [if_pos hzero] at h
          by_cases hnext : cs.head?.any Char.isDigit = true
          · rw [if_pos hnext] at h
            cases h
          · rw [if_neg hnext] at h
            obtain ⟨s, rfl, hread⟩ := readAfter_takes h
            refine ⟨c :: s, rfl, fun x hx => ?_⟩
            have hnone : ¬ (s ++ x).head?.any Char.isDigit = true := by
              rcases hx.append s with hnil | hhead
              · rw [hnil]
                exact Bool.false_ne_true
              · rwa [hhead]
            simp only [List.cons_append, readNumber, hdigit, Bool.not_true, Bool.false_eq_true,
              if_false, if_pos hzero, if_neg hnone]
            exact hread x hx
        · simp only [if_neg hzero, takeDigits_first hdigit] at h
          rcases htaken : takeDigits (digitValue c) 1 cs with ⟨d, kept, rest⟩
          rcases hdropped : dropDigits 0 rest with ⟨dropped, left⟩
          simp only [htaken, hdropped] at h
          obtain ⟨s, rfl, hdigits⟩ := digits_take htaken hdropped
          obtain ⟨t, rfl, hread⟩ := readAfter_takes h
          refine ⟨c :: (s ++ t), by simp, fun x hx => ?_⟩
          obtain ⟨rest, htake, hdrop⟩ := hdigits (t ++ x) (hx.append t)
          rw [List.cons_append, List.append_assoc]
          simp only [readNumber, hdigit, Bool.not_true, Bool.false_eq_true, if_false,
            if_neg hzero, takeDigits_first hdigit, htake, hdrop]
          exact hread x hx
      · simp [readNumber, hdigit] at h

end Number

/-! ## Texts -/

theorem hexQuad_eq (a b c d : Char) (r : List Char) :
    hexQuad (a :: b :: c :: d :: r) = (hexQuad [a, b, c, d]).map fun p => (p.1, r) := by
  simp only [hexQuad]
  cases Text.hexValue a <;> cases Text.hexValue b <;> cases Text.hexValue c <;>
    cases Text.hexValue d <;> rfl

theorem hexQuad_takes {n : Nat} (h : hexQuad cs = some (n, r)) :
    ∃ s, cs = s ++ r ∧ ∀ x, hexQuad (s ++ x) = some (n, x) := by
  match cs with
  | a :: b :: c :: d :: rest =>
      rw [hexQuad_eq] at h
      obtain ⟨p, hp, hpair⟩ := Option.map_eq_some_iff.mp h
      obtain ⟨rfl, rfl⟩ := Prod.mk.inj hpair
      refine ⟨[a, b, c, d], rfl, fun x => ?_⟩
      change hexQuad (a :: b :: c :: d :: x) = _
      rw [hexQuad_eq, hp]
      rfl
  | [] | [_] | [_, _] | [_, _, _] => cases h

theorem readEscape_takes {d : Char} (h : readEscape cs = some (d, r)) :
    ∃ s, cs = s ++ r ∧ ∀ x, readEscape (s ++ x) = some (d, x) := by
  unfold readEscape at h
  split at h
  case h_9 u =>
    obtain ⟨⟨n, v⟩, hquad, hrest⟩ := Option.bind_eq_some_iff.mp h
    obtain ⟨s, rfl, hread⟩ := hexQuad_takes hquad
    dsimp only at hrest
    split at hrest
    · rename_i hhigh
      split at hrest
      · obtain ⟨⟨m, w⟩, hquad', hlast⟩ := Option.bind_eq_some_iff.mp hrest
        obtain ⟨t, rfl, hread'⟩ := hexQuad_takes hquad'
        dsimp only at hlast
        split at hlast
        · rename_i hlow
          obtain ⟨rfl, rfl⟩ := Prod.mk.inj (Option.some.inj hlast)
          refine ⟨'u' :: (s ++ '\\' :: 'u' :: t), by simp, fun x => ?_⟩
          rw [List.cons_append, List.append_assoc]
          simp only [readEscape, hread, List.cons_append, hread', bind, Option.bind, if_pos hhigh,
            if_pos hlow]
        · cases hlast
      · cases hrest
    · rename_i hhigh
      split at hrest
      · cases hrest
      · rename_i hlow
        obtain ⟨rfl, rfl⟩ := Prod.mk.inj (Option.some.inj hrest)
        refine ⟨'u' :: s, rfl, fun x => ?_⟩
        simp only [List.cons_append, readEscape, hread, bind, Option.bind, if_neg hhigh,
          if_neg hlow]
  case h_10 => cases h
  all_goals
    obtain ⟨rfl, rfl⟩ := Prod.mk.inj (Option.some.inj h)
    exact ⟨[_], rfl, fun x => rfl⟩

theorem exists_succ_of_length_cons {u : List Char} {more : Nat} (h : (c :: u).length ≤ more) :
    ∃ m, more = m + 1 ∧ u.length ≤ m := by
  rw [List.length_cons] at h
  exact ⟨more - 1, by omega, by omega⟩

theorem readString_takes {fuel : Nat} {t : List Char} (h : readString fuel cs = some (t, r)) :
    ∃ s, cs = s ++ r ∧ ∀ x more, s.length ≤ more → readString more (s ++ x) = some (t, x) := by
  induction fuel generalizing cs t with
  | zero => cases h
  | succ fuel ih =>
      cases cs with
      | nil => cases h
      | cons c cs =>
          simp only [readString] at h
          by_cases hquote : c = '"'
          · rw [if_pos hquote] at h
            obtain ⟨rfl, rfl⟩ := Prod.mk.inj (Option.some.inj h)
            refine ⟨[c], rfl, fun x more hmore => ?_⟩
            obtain ⟨more, rfl, -⟩ := exists_succ_of_length_cons hmore
            simp only [List.cons_append, List.nil_append, readString, if_pos hquote]
          · rw [if_neg hquote] at h
            by_cases hescape : c = '\\'
            · rw [if_pos hescape] at h
              obtain ⟨⟨d, u⟩, hfirst, hrest⟩ := Option.bind_eq_some_iff.mp h
              obtain ⟨⟨t', w⟩, hstring, hpair⟩ := Option.bind_eq_some_iff.mp hrest
              obtain ⟨rfl, rfl⟩ := Prod.mk.inj (Option.some.inj hpair)
              obtain ⟨s, rfl, hread⟩ := readEscape_takes hfirst
              obtain ⟨s', rfl, hread'⟩ := ih hstring
              refine ⟨c :: (s ++ s'), by simp, fun x more hmore => ?_⟩
              obtain ⟨more, rfl, hless⟩ := exists_succ_of_length_cons hmore
              rw [List.length_append] at hless
              rw [List.cons_append, List.append_assoc]
              simp only [readString, if_neg hquote, if_pos hescape, hread,
                hread' x more (by omega), bind, Option.bind]
            · rw [if_neg hescape] at h
              by_cases hcontrol : c.toNat < 0x20
              · rw [if_pos hcontrol] at h
                cases h
              · rw [if_neg hcontrol] at h
                obtain ⟨⟨t', w⟩, hstring, hpair⟩ := Option.bind_eq_some_iff.mp h
                obtain ⟨rfl, rfl⟩ := Prod.mk.inj (Option.some.inj hpair)
                obtain ⟨s', rfl, hread'⟩ := ih hstring
                refine ⟨c :: s', rfl, fun x more hmore => ?_⟩
                obtain ⟨more, rfl, hless⟩ := exists_succ_of_length_cons hmore
                simp only [List.cons_append, readString, if_neg hquote, if_neg hescape,
                  if_neg hcontrol, hread' x more hless, bind, Option.bind]

theorem readWord_takes {word : List Char} (h : readWord word cs = some r) :
    cs = word ++ r ∧ ∀ x, readWord word (word ++ x) = some x := by
  induction word generalizing cs with
  | nil =>
      obtain rfl := Option.some.inj h
      exact ⟨rfl, fun x => rfl⟩
  | cons a word ih =>
      cases cs with
      | nil => cases h
      | cons b cs =>
          simp only [readWord] at h
          by_cases hab : a = b
          · rw [if_pos hab] at h
            obtain ⟨rfl, hread⟩ := ih h
            exact ⟨by rw [hab, List.cons_append], fun x => by simp [readWord, hread]⟩
          · rw [if_neg hab] at h
            cases h

end Scriptorium.Json
