import Scriptorium.Proofs.Text.Fence

/-! # Lines of texts put together

Behind a character that is not a blank a line feed ends a line, and what follows begins the next. A
text without line feeds goes in front of the first line of what follows it. The visible lines of a
text do not change with the blanks behind it, and texts with a blank line between them have those of
both.
-/

namespace Scriptorium.Text

variable {cs l : List Char}

/-! ## Splitting -/

theorem dropBlanksEnd_back (cs : List Char) :
    ∀ c ∈ (dropBlanksEnd cs).getLast?, isBlank c = false := by
  intro c hc
  have hhead := List.head?_dropWhile_not isBlank cs.reverse
  rw [dropBlanksEnd, List.getLast?_reverse] at hc
  rw [hc] at hhead
  simpa using hhead

theorem dropBlanksEnd_eq_nil_iff : dropBlanksEnd cs = [] ↔ cs.all isBlank = true := by
  simp [dropBlanksEnd, List.dropWhile_eq_nil_iff]

/-- A line feed behind a character that is not a blank ends a line. -/
theorem splitLines_append_newline (hne : cs ≠ []) (hback : ∀ c ∈ cs.getLast?, isBlank c = false)
    (rest : List Char) : splitLines (cs ++ '\n' :: rest) = splitLines cs ++ splitLines rest := by
  have hfeed : cs.getLast? ≠ some '\n' := fun h => absurd (hback '\n' h) (by decide)
  obtain ⟨ls, text, last, hended, hline, hlast, rfl⟩ := exists_ended hne hfeed
  have hreturn : last.getLast? ≠ some '\r' := by
    intro h
    refine absurd (hback '\r' ?_) (by decide)
    rw [List.getLast?_append, h, Option.some_or]
    rfl
  rw [List.append_assoc, hended.splitLines_front, hended.splitLines_front,
    splitLines_feed hline hreturn, splitLines_of_not_mem hline hlast, List.append_assoc]
  rfl

/-- What stands in front of a text on one line goes in front of its first line. -/
theorem splitLines_append_of_not_mem (hline : '\n' ∉ l) (hreturn : l.getLast? ≠ some '\r')
    (hne : l ≠ []) (cs : List Char) :
    splitLines (l ++ cs) = (l ++ (splitLines cs).headD []) :: (splitLines cs).tail := by
  induction l with
  | nil => exact absurd rfl hne
  | cons c l ih =>
      rw [List.mem_cons, not_or] at hline
      cases l with
      | nil =>
          cases cs with
          | nil => exact splitLines_of_not_mem (by simpa using hline.1) (List.cons_ne_nil c [])
          | cons d r =>
              obtain ⟨k, ks, hsplit⟩ := List.exists_cons_of_ne_nil
                (mt splitLines_eq_nil_iff.mp (List.cons_ne_nil d r))
              rw [List.singleton_append,
                splitLines_cons (Ne.symm hline.1) (fun hend => hreturn (by simp [hend.1])) hsplit,
                hsplit]
              rfl
      | cons d l =>
          have hrest : (d :: l).getLast? ≠ some '\r' := by
            rwa [List.getLast?_cons_cons] at hreturn
          refine splitLines_cons (Ne.symm hline.1) ?_ (ih hline.2 hrest (List.cons_ne_nil d l))
          rintro ⟨rfl, hhead⟩
          exact hline.2 (by simp [Option.some.inj hhead])

theorem lines_append_of_not_mem {s : String} (hline : '\n' ∉ s.toList)
    (hreturn : s.toList.getLast? ≠ some '\r') (hne : s.toList ≠ []) (t : String) :
    lines (s ++ t) = (s ++ (lines t).headD "") :: (lines t).tail := by
  rw [lines, lines, String.toList_append, splitLines_append_of_not_mem hline hreturn hne,
    List.map_cons]
  cases splitLines t.toList with
  | nil => simp
  | cons k ks => simp [String.ofList_append]

theorem lines_trimEnd_append {s : String} (hs : blank s = false) (t : String) :
    lines (trimEnd s ++ "\n\n" ++ t) = lines (trimEnd s) ++ "" :: lines t := by
  have hne : dropBlanksEnd s.toList ≠ [] := by
    rw [ne_eq, dropBlanksEnd_eq_nil_iff]
    simpa [blank] using hs
  have hsplit : (trimEnd s ++ "\n\n" ++ t).toList =
      dropBlanksEnd s.toList ++ '\n' :: '\n' :: t.toList := by
    simp [trimEnd]
  rw [lines, hsplit, splitLines_append_newline hne (dropBlanksEnd_back _), List.map_append]
  simp [lines, trimEnd, splitLines]

/-! ## The end of a text -/

def EndsSolid (s : String) : Prop :=
  ∃ front c, s = front ++ String.singleton c ∧ isBlank c = false

theorem endsSolid_iff {s : String} :
    EndsSolid s ↔ s.toList ≠ [] ∧ ∀ c ∈ s.toList.getLast?, isBlank c = false := by
  constructor
  · rintro ⟨front, c, rfl, hc⟩
    refine ⟨by simp, fun d hd => ?_⟩
    obtain rfl : c = d := by simpa using hd
    exact hc
  · rintro ⟨hne, hback⟩
    obtain ⟨front, c, hlast⟩ := List.eq_nil_or_concat' s.toList |>.resolve_left hne
    refine ⟨String.ofList front, c, ?_, hback c (by simp [hlast])⟩
    rw [← String.ofList_toList (s := s), hlast, String.ofList_append, String.singleton_eq_ofList]

theorem endsSolid_of_getLast? {s : String} {c : Char} (h : s.toList.getLast? = some c)
    (hc : isBlank c = false) : EndsSolid s := by
  refine endsSolid_iff.mpr ⟨fun hnil => by simp [hnil] at h, fun d hd => ?_⟩
  obtain rfl : c = d := Option.some.inj (h.symm.trans hd)
  exact hc

theorem EndsSolid.append {s : String} (h : EndsSolid s) (front : String) :
    EndsSolid (front ++ s) := by
  obtain ⟨before, c, rfl, hc⟩ := h
  exact ⟨front ++ before, c, String.append_assoc.symm, hc⟩

/-- Trimming takes a blank line off, and nothing else. -/
theorem EndsSolid.trimEnd {s : String} (h : EndsSolid s) : trimEnd (s ++ "\n\n") = s := by
  obtain ⟨front, c, rfl, hc⟩ := h
  have hchars : (front ++ String.singleton c ++ "\n\n").toList =
      (front.toList ++ [c] ++ ['\n']) ++ ['\n'] := by simp
  rw [Text.trimEnd, hchars, dropBlanksEnd_append_of_blank (by decide),
    dropBlanksEnd_append_of_blank (by decide), dropBlanksEnd_append_of_not_blank hc]
  simp

theorem blank_of_stripBlanks {s : String} (h : stripBlanks s.toList = []) :
    blank s = true := by
  rw [stripBlanks, dropBlanksEnd, List.reverse_eq_nil_iff, List.dropWhile_eq_nil_iff] at h
  have hfront := List.head?_dropWhile_not isBlank s.toList
  cases hrest : dropBlanks s.toList with
  | nil => exact List.all_eq_true.mpr (List.dropWhile_eq_nil_iff.mp hrest)
  | cons c r =>
      have hc : isBlank c = true := h c (by simp [hrest])
      rw [dropBlanks] at hrest
      simp [hrest, hc] at hfront

/-- What is left of a text that is not blank ends in a character that is not. -/
theorem endsSolid_trim {s : String} (h : blank s = false) : EndsSolid (trim s) := by
  have hne : stripBlanks s.toList ≠ [] := by
    intro hnil
    rw [blank_of_stripBlanks hnil] at h
    cases h
  exact endsSolid_iff.mpr ⟨by rwa [trim, String.toList_ofList], by
    rw [trim, String.toList_ofList]
    exact (solid_stripBlanks s.toList).back⟩

/-! ## Texts made of entries -/

/-- A text has a line more than it has line feeds, unless it ends in one. -/
theorem length_splitLines (hne : cs ≠ []) (hfeed : cs.getLast? ≠ some '\n') :
    (splitLines cs).length = cs.count '\n' + 1 := by
  obtain ⟨ls, text, last, hended, hline, hlast, rfl⟩ := exists_ended hne hfeed
  rw [hended.splitLines_append hline hlast, List.length_append, List.count_append,
    hended.length_eq, List.count_eq_zero.mpr hline]
  rfl

/-- Where each entry ends in a line feed behind a character that is not blank, no line has parts of
two entries. -/
theorem lines_join_newline {entries : List String} (h : ∀ e ∈ entries, EndsSolid e) :
    lines (String.join (entries.map (· ++ "\n"))) = entries.flatMap lines := by
  induction entries with
  | nil => rfl
  | cons e entries ih =>
      obtain ⟨hne, hback⟩ := endsSolid_iff.mp (h e List.mem_cons_self)
      have hchars : (String.join ((e :: entries).map (· ++ "\n"))).toList =
          e.toList ++ '\n' :: (String.join (entries.map (· ++ "\n"))).toList := by simp
      rw [lines, hchars, splitLines_append_newline hne hback, List.map_append, List.flatMap_cons,
        ← ih fun x hx => h x (List.mem_cons_of_mem e hx)]
      rfl

/-- Entries with something after each are entries with that between any two and after the last. -/
theorem join_append_eq {entries : List String} (sep : String) (hne : entries ≠ []) :
    String.join (entries.map (· ++ sep)) = sep.intercalate entries ++ sep := by
  induction entries with
  | nil => exact absurd rfl hne
  | cons e entries ih =>
      cases entries with
      | nil => simp
      | cons f entries =>
          rw [String.intercalate_cons_cons, List.map_cons, String.join_cons,
            ih (List.cons_ne_nil f entries)]
          simp only [String.append_assoc]

/-! ## Visible lines -/

def visibleLines (s : String) : List String := ((lines s).map trimEnd).filter (· ≠ "")

theorem visibleLines_eq (s : String) : visibleLines s = (visible s.toList).map String.ofList := by
  unfold visibleLines visible lines
  rw [List.map_map, List.filter_map, List.filter_map, List.map_map]
  have htrim : trimEnd ∘ String.ofList = String.ofList ∘ dropBlanksEnd := by
    funext l
    simp [trimEnd]
  have hempty : ((fun s : String => decide (s ≠ "")) ∘ trimEnd ∘ String.ofList) =
      ((fun l : List Char => !l.isEmpty) ∘ dropBlanksEnd) := by
    funext l
    cases h : dropBlanksEnd l <;> simp [trimEnd, h]
  rw [htrim, ← hempty, htrim]

theorem visibleLines_trimEnd (s : String) : visibleLines (trimEnd s) = visibleLines s := by
  rw [visibleLines_eq, visibleLines_eq, trimEnd, String.toList_ofList, visible_dropBlanksEnd]

theorem visibleLines_of_blank {s : String} (h : blank s = true) : visibleLines s = [] := by
  have hnone : dropBlanksEnd s.toList = [] := dropBlanksEnd_eq_nil_iff.mpr h
  rw [← visibleLines_trimEnd, trimEnd, hnone]
  rfl

theorem visibleLines_append_blankLine (s t : String) :
    visibleLines (s ++ "\n\n" ++ t) = visibleLines s ++ visibleLines t := by
  have hsplit : (s ++ "\n\n" ++ t).toList = s.toList ++ '\n' :: '\n' :: t.toList := by simp
  rw [visibleLines_eq, visibleLines_eq, visibleLines_eq, hsplit, visible_append,
    ← List.nil_append ('\n' :: t.toList), visible_append, List.map_append]
  rfl

end Scriptorium.Text
