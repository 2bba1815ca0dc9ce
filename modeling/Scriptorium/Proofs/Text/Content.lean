import Mathlib.Data.List.DropRight
import Scriptorium.Proofs.Text.Nesting

/-! # Content lines

The visible lines of a text are its lines without the blanks behind them, less the blank lines; the
content lines are these without the blanks before them, less the fences. Blanks at the ends of a
text, line ends of either kind and a fence around the whole text have no part in the content lines;
a text that is put together at line ends has the content lines of its parts, in order.
-/

namespace Scriptorium.Text

/-! ## Blanks at the ends -/

/-- Letters and digits are not blank. -/
theorem isBlank_of_isAlphanum {c : Char} (h : c.isAlphanum = true) : isBlank c = false := by
  have hcode : 48 ≤ c.toNat ∧ c.toNat ≤ 122 := by
    delta Char.isAlphanum Char.isAlpha Char.isUpper Char.isLower Char.isDigit at h
    simp only [Bool.or_eq_true, Bool.and_eq_true, decide_eq_true_eq, UInt32.le_iff_toNat_le] at h
    change ((65 ≤ c.toNat ∧ c.toNat ≤ 90 ∨ 97 ≤ c.toNat ∧ c.toNat ≤ 122) ∨
      48 ≤ c.toNat ∧ c.toNat ≤ 57) at h
    omega
  simp only [isBlank, Bool.or_eq_false_iff, Bool.and_eq_false_iff, beq_eq_false_iff_ne,
    decide_eq_false_iff_not]
  omega

theorem dropBlanks_cons_of_blank {b : Char} (hb : isBlank b = true) (cs : List Char) :
    dropBlanks (b :: cs) = dropBlanks cs := by
  simp [dropBlanks, hb]

theorem dropBlanksEnd_append_of_blank {b : Char} (hb : isBlank b = true) (cs : List Char) :
    dropBlanksEnd (cs ++ [b]) = dropBlanksEnd cs := by
  simp [dropBlanksEnd, hb]

theorem dropBlanksEnd_append_of_not_blank {b : Char} (hb : isBlank b = false) (cs : List Char) :
    dropBlanksEnd (cs ++ [b]) = cs ++ [b] := by
  simp [dropBlanksEnd, hb]

/-- What is left of a text before its trailing blanks depends on its rest only through what is left
of that. -/
theorem dropBlanksEnd_cons (c : Char) (cs : List Char) :
    dropBlanksEnd (c :: cs) =
      if dropBlanksEnd cs = [] then if isBlank c then [] else [c] else c :: dropBlanksEnd cs := by
  unfold dropBlanksEnd
  rw [List.reverse_cons, List.dropWhile_append]
  by_cases h : cs.reverse.dropWhile isBlank = []
  · by_cases hc : isBlank c = true <;> simp [h, hc]
  · simp [h]

theorem stripBlanks_cons_of_blank {b : Char} (hb : isBlank b = true) (cs : List Char) :
    stripBlanks (b :: cs) = stripBlanks cs := by
  rw [stripBlanks, dropBlanks_cons_of_blank hb, stripBlanks]

/-- The two ends can be trimmed in either order. -/
theorem stripBlanks_eq (cs : List Char) : stripBlanks cs = dropBlanks (dropBlanksEnd cs) := by
  induction cs with
  | nil => rfl
  | cons c cs ih =>
      by_cases hc : isBlank c = true
      · rw [stripBlanks_cons_of_blank hc, ih, dropBlanksEnd_cons]
        by_cases h : dropBlanksEnd cs = []
        · simp [h, hc]
        · rw [if_neg h, dropBlanks_cons_of_blank hc]
      · have hkeep : dropBlanks (c :: cs) = c :: cs := by simp [dropBlanks, hc]
        rw [stripBlanks, hkeep, dropBlanksEnd_cons]
        by_cases h : dropBlanksEnd cs = [] <;> simp [h, hc, dropBlanks]

theorem stripBlanks_of_blank {cs : List Char} (h : ∀ c ∈ cs, isBlank c = true) :
    stripBlanks cs = [] := by
  have hdrop : dropBlanks cs = [] := List.dropWhile_eq_nil_iff.mpr h
  rw [stripBlanks, hdrop]
  rfl

/-! ## Lines and parts -/

theorem splitAtChar_ne_nil (sep : Char) (cs : List Char) : splitAtChar sep cs ≠ [] := by
  induction cs with
  | nil => simp [splitAtChar]
  | cons c cs ih =>
      unfold splitAtChar
      split
      · simp
      · split <;> simp

theorem splitAtChar_cons_of_ne {sep c : Char} (hc : c ≠ sep) {cs p : List Char}
    {ps : List (List Char)} (h : splitAtChar sep cs = p :: ps) :
    splitAtChar sep (c :: cs) = (c :: p) :: ps := by
  simp [splitAtChar, hc, h]

theorem splitAtChar_append (sep : Char) (xs ys : List Char) :
    splitAtChar sep (xs ++ sep :: ys) = splitAtChar sep xs ++ splitAtChar sep ys := by
  induction xs with
  | nil => simp [splitAtChar]
  | cons x xs ih =>
      by_cases hx : x = sep
      · simp [splitAtChar, hx, ih]
      · obtain ⟨p, ps, hps⟩ := List.exists_cons_of_ne_nil (splitAtChar_ne_nil sep xs)
        rw [splitAtChar_cons_of_ne hx hps, List.cons_append,
          splitAtChar_cons_of_ne hx (by rw [ih, hps, List.cons_append])]
        rfl

theorem splitAtChar_of_not_mem {sep : Char} {cs : List Char} (h : sep ∉ cs) :
    splitAtChar sep cs = [cs] := by
  induction cs with
  | nil => rfl
  | cons c cs ih =>
      have hc : c ≠ sep := fun heq => h (heq ▸ List.mem_cons_self)
      have hcs : sep ∉ cs := fun hmem => h (List.mem_cons_of_mem c hmem)
      exact splitAtChar_cons_of_ne hc (ih hcs)

theorem splitLines_eq_nil_iff {cs : List Char} : splitLines cs = [] ↔ cs = [] := by
  fun_cases splitLines cs <;> simp_all

theorem eq_nil_of_no_line {cs : List Char}
    (h : ∀ l ls d r, splitLines cs = l :: ls → cs = d :: r → False) : cs = [] := by
  cases cs with
  | nil => rfl
  | cons d r =>
      obtain ⟨l, ls, hl⟩ := List.exists_cons_of_ne_nil
        (mt splitLines_eq_nil_iff.mp (List.cons_ne_nil d r))
      exact (h l ls d r hl rfl).elim

theorem newline_not_mem_splitLines (cs : List Char) : ∀ l ∈ splitLines cs, '\n' ∉ l := by
  fun_induction splitLines cs with
  | case1 => simp
  | case2 r ih | case3 r ih => simpa using ih
  | case4 c hc l ls d r _ hl ih =>
      rw [hl] at ih ⊢
      intro k hk
      rcases List.mem_cons.mp hk with rfl | hk
      · intro hmem
        rcases List.mem_cons.mp hmem with heq | hin
        · exact hc heq.symm
        · exact ih l List.mem_cons_self hin
      · exact ih k (List.mem_cons_of_mem l hk)
  | case5 c r hc _ hlast _ =>
      obtain rfl := eq_nil_of_no_line hlast
      intro k hk
      rw [List.mem_singleton.mp hk]
      simpa using fun heq => hc heq.symm

/-- The lines of a text are its parts between line feeds as far as blanks at their ends do not
matter, save for an empty part after the last line feed. -/
theorem splitAtChar_map_dropBlanksEnd (cs : List Char) :
    ∃ last, (last = [] ∨ last = [[]]) ∧ (splitAtChar '\n' cs).map dropBlanksEnd =
      (splitLines cs).map dropBlanksEnd ++ last := by
  fun_induction splitLines cs with
  | case1 => exact ⟨[[]], .inr rfl, rfl⟩
  | case2 r ih =>
      obtain ⟨last, hlast, heq⟩ := ih
      refine ⟨last, hlast, ?_⟩
      simp [splitAtChar, heq]
  | case3 r ih =>
      obtain ⟨last, hlast, heq⟩ := ih
      refine ⟨last, hlast, ?_⟩
      have hcr : dropBlanksEnd ['\r'] = dropBlanksEnd [] := by decide
      have hparts : splitAtChar '\n' ('\n' :: r) = [] :: splitAtChar '\n' r := by
        simp [splitAtChar]
      rw [splitAtChar_cons_of_ne (by decide) hparts]
      simp [heq, hcr]
  | case4 c hc l ls d r _ hl ih =>
      -- The rest has a line, so its first line and its first part agree, and stay so behind `c`.
      obtain ⟨last, hlast, heq⟩ := ih
      obtain ⟨p, ps, hps⟩ := List.exists_cons_of_ne_nil (splitAtChar_ne_nil '\n' (d :: r))
      rw [hps, hl, List.map_cons, List.map_cons, List.cons_append, List.cons.injEq] at heq
      refine ⟨last, hlast, ?_⟩
      rw [splitAtChar_cons_of_ne hc hps, List.map_cons, dropBlanksEnd_cons, heq.1, heq.2,
        ← dropBlanksEnd_cons, hl]
      rfl
  | case5 c r hc _ hlast _ =>
      obtain rfl := eq_nil_of_no_line hlast
      refine ⟨[], .inl rfl, ?_⟩
      simp [splitAtChar, splitLines, show c ≠ '\n' from hc]

/-! ## Visible lines -/

theorem splitAtChar_append_of_blank {b : Char} (hb : isBlank b = true) (hnew : b ≠ '\n')
    (cs : List Char) : (splitAtChar '\n' (cs ++ [b])).map dropBlanksEnd =
      (splitAtChar '\n' cs).map dropBlanksEnd := by
  induction cs with
  | nil =>
      rw [List.nil_append, splitAtChar_of_not_mem (by simpa using Ne.symm hnew)]
      exact congrArg (· :: []) (dropBlanksEnd_append_of_blank hb [])
  | cons c cs ih =>
      by_cases hc : c = '\n'
      · simp [splitAtChar, hc, ih]
      · obtain ⟨p, ps, hps⟩ := List.exists_cons_of_ne_nil (splitAtChar_ne_nil '\n' cs)
        obtain ⟨q, qs, hqs⟩ := List.exists_cons_of_ne_nil (splitAtChar_ne_nil '\n' (cs ++ [b]))
        rw [hps, hqs, List.map_cons, List.map_cons, List.cons.injEq] at ih
        rw [List.cons_append, splitAtChar_cons_of_ne hc hps, splitAtChar_cons_of_ne hc hqs,
          List.map_cons, List.map_cons, dropBlanksEnd_cons, ih.1, ih.2, ← dropBlanksEnd_cons]

def visible (cs : List Char) : List (List Char) :=
  ((splitLines cs).map dropBlanksEnd).filter (!·.isEmpty)

/-- Line feeds alone decide what the visible lines are. -/
theorem visible_eq_parts (cs : List Char) :
    visible cs = ((splitAtChar '\n' cs).map dropBlanksEnd).filter (!·.isEmpty) := by
  obtain ⟨last, hlast, hparts⟩ := splitAtChar_map_dropBlanksEnd cs
  have hnone : last.filter (!·.isEmpty) = [] := by
    rcases hlast with rfl | rfl <;> rfl
  rw [visible, hparts, List.filter_append, hnone, List.append_nil]

theorem visible_append (xs ys : List Char) :
    visible (xs ++ '\n' :: ys) = visible xs ++ visible ys := by
  simp only [visible_eq_parts, splitAtChar_append, List.map_append, List.filter_append]

theorem visible_append_of_blank {b : Char} (hb : isBlank b = true) (cs : List Char) :
    visible (cs ++ [b]) = visible cs := by
  by_cases hnew : b = '\n'
  · rw [hnew, visible_append]
    exact List.append_nil _
  · rw [visible_eq_parts, visible_eq_parts, splitAtChar_append_of_blank hb hnew]

theorem visible_dropBlanksEnd (cs : List Char) : visible (dropBlanksEnd cs) = visible cs := by
  induction cs using List.reverseRecOn with
  | nil => rfl
  | append_singleton cs c ih =>
      by_cases hc : isBlank c = true
      · rw [dropBlanksEnd_append_of_blank hc, ih, visible_append_of_blank hc]
      · rw [dropBlanksEnd_append_of_not_blank (by simpa using hc)]

/-! ## Content of characters -/

def isContent (l : List Char) : Bool := !l.isEmpty && !startsWith fenceMark l

def content (cs : List Char) : List (List Char) := ((splitLines cs).map stripBlanks).filter isContent

@[simp] theorem content_nil : content [] = [] := rfl

theorem filter_isContent (ls : List (List Char)) :
    ((ls.filter (!·.isEmpty)).map dropBlanks).filter isContent =
      (ls.map dropBlanks).filter isContent := by
  induction ls with
  | nil => rfl
  | cons l ls ih =>
      cases l with
      | nil => exact ih
      | cons c l =>
          rw [List.filter_cons_of_pos rfl, List.map_cons, List.map_cons, List.filter_cons,
            List.filter_cons, ih]

theorem stripBlanks_comp : dropBlanks ∘ dropBlanksEnd = stripBlanks :=
  funext fun cs => (stripBlanks_eq cs).symm

/-- The visible lines decide what the content lines are. -/
theorem content_eq_visible (cs : List Char) :
    content cs = ((visible cs).map dropBlanks).filter isContent := by
  rw [visible, filter_isContent, List.map_map, stripBlanks_comp, content]

theorem content_eq_parts (cs : List Char) :
    content cs = ((splitAtChar '\n' cs).map stripBlanks).filter isContent := by
  rw [content_eq_visible, visible_eq_parts, filter_isContent, List.map_map, stripBlanks_comp]

theorem content_append (xs ys : List Char) :
    content (xs ++ '\n' :: ys) = content xs ++ content ys := by
  simp only [content_eq_visible, visible_append, List.map_append, List.filter_append]

theorem content_cons_newline (cs : List Char) : content ('\n' :: cs) = content cs := by
  simpa using content_append [] cs

theorem content_of_not_mem {l : List Char} (h : '\n' ∉ l) :
    content l = [stripBlanks l].filter isContent := by
  rw [content_eq_parts, splitAtChar_of_not_mem h, List.map_singleton]

/-- A fence is no content. -/
theorem content_of_isFence {l : List Char} (h : '\n' ∉ l) (hfence : isFence l = true) :
    content l = [] := by
  rw [content_of_not_mem h]
  rw [isFence] at hfence
  simp [isContent, hfence]

theorem content_eq_flatMap (cs : List Char) : content cs = (splitLines cs).flatMap content := by
  have hlines : (splitLines cs).flatMap content =
      (splitLines cs).flatMap fun l => [stripBlanks l].filter isContent := by
    refine List.flatMap_congr fun l hl => ?_
    exact content_of_not_mem (newline_not_mem_splitLines cs l hl)
  rw [hlines, content]
  generalize splitLines cs = ls
  induction ls with
  | nil => rfl
  | cons l ls ih =>
      rw [List.flatMap_cons, ← ih, List.map_cons, ← List.singleton_append, List.filter_append]

theorem content_joinChars (ls : List (List Char)) :
    content (joinChars ['\n'] ls) = ls.flatMap content := by
  induction ls with
  | nil => rfl
  | cons l ls ih =>
      cases ls with
      | nil => simp [joinChars]
      | cons k ks =>
          rw [List.flatMap_cons, ← ih]
          simpa [joinChars] using content_append l (joinChars ['\n'] (k :: ks))

/-! ## Content and blanks -/

theorem content_cons_of_blank {b : Char} (hb : isBlank b = true) (cs : List Char) :
    content (b :: cs) = content cs := by
  by_cases hnew : b = '\n'
  · rw [hnew, content_cons_newline]
  · obtain ⟨p, ps, hps⟩ := List.exists_cons_of_ne_nil (splitAtChar_ne_nil '\n' cs)
    rw [content_eq_parts, content_eq_parts, splitAtChar_cons_of_ne hnew hps, hps, List.map_cons,
      List.map_cons, stripBlanks_cons_of_blank hb]

theorem content_append_of_blank {b : Char} (hb : isBlank b = true) (cs : List Char) :
    content (cs ++ [b]) = content cs := by
  rw [content_eq_visible, visible_append_of_blank hb, ← content_eq_visible]

theorem content_dropBlanks (cs : List Char) : content (dropBlanks cs) = content cs := by
  induction cs with
  | nil => rfl
  | cons c cs ih =>
      by_cases hc : isBlank c = true
      · rw [dropBlanks_cons_of_blank hc, ih, content_cons_of_blank hc]
      · simp [dropBlanks, hc]

theorem content_dropBlanksEnd (cs : List Char) : content (dropBlanksEnd cs) = content cs := by
  rw [content_eq_visible, visible_dropBlanksEnd, ← content_eq_visible]

theorem content_stripBlanks (cs : List Char) : content (stripBlanks cs) = content cs := by
  rw [stripBlanks, content_dropBlanksEnd, content_dropBlanks]

/-- A text that begins with a character that is neither a blank nor a backtick has content. -/
theorem content_cons_ne_nil {c : Char} (hblank : isBlank c = false) (htick : c ≠ '\x60')
    (cs : List Char) : content (c :: cs) ≠ [] := by
  have hnew : c ≠ '\n' := by
    rintro rfl
    exact absurd hblank (by decide)
  obtain ⟨q, qs, hqs⟩ := List.exists_cons_of_ne_nil (splitAtChar_ne_nil '\n' cs)
  have hkeep : dropBlanks (c :: q) = c :: q := by simp [dropBlanks, hblank]
  obtain ⟨rest, hrest⟩ : ∃ rest, stripBlanks (c :: q) = c :: rest := by
    rw [stripBlanks, hkeep, dropBlanksEnd_cons]
    by_cases h : dropBlanksEnd q = [] <;> simp [h, hblank]
  have hcontent : isContent (c :: rest) = true := by
    simp [isContent, startsWith, fenceMark, Ne.symm htick]
  rw [content_eq_parts, splitAtChar_cons_of_ne hnew hqs, List.map_cons, hrest]
  simp [hcontent]

/-! ## Content and fences -/

/-- Taking a fence away takes away no content. -/
theorem content_unfenceChars (cs : List Char) : content (unfenceChars cs) = content cs := by
  unfold unfenceChars
  split
  · rfl
  next first rest hlines =>
    split
    next hfirst =>
      split
      next body hbody =>
        obtain ⟨last, rfl, hlast, -⟩ := toClosing_balanced.mp hbody
        have hnew := newline_not_mem_splitLines (stripBlanks cs)
        rw [hlines] at hnew
        have hopen : content first = [] :=
          content_of_isFence (hnew first List.mem_cons_self) hfirst
        have hclose : content last = [] :=
          content_of_isFence (hnew last (by simp)) (by rw [isFence, hlast]; decide)
        calc content (stripBlanks (joinChars ['\n'] body))
            = body.flatMap content := by rw [content_stripBlanks, content_joinChars]
          _ = (first :: (body ++ [last])).flatMap content := by simp [hopen, hclose]
          _ = content (stripBlanks cs) := by rw [content_eq_flatMap (stripBlanks cs), hlines]
          _ = content cs := content_stripBlanks cs
      · rfl
    · rfl

/-! ## Content of texts -/

def contentLines (s : String) : List String :=
  ((lines s).map trim).filter fun l => isContent l.toList

theorem contentLines_eq (s : String) : contentLines s = (content s.toList).map String.ofList := by
  unfold contentLines content lines
  rw [List.map_map, List.filter_map, List.filter_map, List.map_map]
  simp [Function.comp_def, trim]

theorem contentLines_unfence (s : String) : contentLines (unfence s) = contentLines s := by
  rw [contentLines_eq, contentLines_eq, unfence, String.toList_ofList, content_unfenceChars]

theorem contentLines_trim (s : String) : contentLines (trim s) = contentLines s := by
  rw [contentLines_eq, contentLines_eq, trim, String.toList_ofList, content_stripBlanks]

theorem contentLines_trimEnd (s : String) : contentLines (trimEnd s) = contentLines s := by
  rw [contentLines_eq, contentLines_eq, trimEnd, String.toList_ofList, content_dropBlanksEnd]

theorem trim_of_blank {s : String} (h : blank s = true) : trim s = "" := by
  have hall : ∀ c ∈ s.toList, isBlank c = true := by simpa [blank] using h
  rw [trim, stripBlanks_of_blank hall]

theorem contentLines_of_blank {s : String} (h : blank s = true) : contentLines s = [] := by
  rw [← contentLines_trim, trim_of_blank h]
  rfl

theorem contentLines_append_newline (s : String) : contentLines (s ++ "\n") = contentLines s := by
  rw [contentLines_eq, contentLines_eq, String.toList_append]
  exact congrArg _ (content_append_of_blank (by decide) s.toList)

def EndsLine (s : String) : Prop := ∀ t, contentLines (s ++ t) = contentLines s ++ contentLines t

theorem endsLine_append_blankLine (s : String) : EndsLine (s ++ "\n\n") := by
  intro t
  have hsplit : (s ++ "\n\n" ++ t).toList = s.toList ++ '\n' :: '\n' :: t.toList := by simp
  have hself : (s ++ "\n\n").toList = s.toList ++ '\n' :: '\n' :: [] := by simp
  rw [contentLines_eq, contentLines_eq, contentLines_eq, hsplit, hself, content_append,
    content_append, content_cons_newline, content_cons_newline, List.map_append, List.map_append]
  simp

theorem endsLine_empty : EndsLine "" := by
  intro t
  simp [contentLines_eq]

theorem EndsLine.append {s t : String} (hs : EndsLine s) (ht : EndsLine t) : EndsLine (s ++ t) := by
  intro u
  rw [String.append_assoc, hs, ht, hs, List.append_assoc]

theorem contentLines_append_blankLine (s : String) :
    contentLines (s ++ "\n\n") = contentLines s := by
  have hsplit : s ++ "\n\n" = s ++ "\n" ++ "\n" := by
    rw [String.append_assoc]
    rfl
  rw [hsplit, contentLines_append_newline, contentLines_append_newline]

theorem contentLines_join {l : List String} (h : ∀ s ∈ l, EndsLine s) :
    contentLines (String.join l) = l.flatMap contentLines ∧ EndsLine (String.join l) := by
  induction l with
  | nil => exact ⟨by simp [contentLines_eq], endsLine_empty⟩
  | cons s l ih =>
      have hs := h s List.mem_cons_self
      obtain ⟨hl, hends⟩ := ih fun t ht => h t (List.mem_cons_of_mem s ht)
      rw [String.join_cons]
      exact ⟨by rw [hs, hl, List.flatMap_cons], hs.append hends⟩

end Scriptorium.Text
