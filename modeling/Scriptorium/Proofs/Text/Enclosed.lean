import Scriptorium.Proofs.Text.Fence

/-! # Texts between fences

A text from a brace to a brace, with no carriage return in it, keeps its characters when the fence
around it is removed, whatever else stands between the fences. It has to begin below the line of
the opening fence: that line goes with all that is on it.
-/

namespace Scriptorium.Text

variable {a b s cs front back rest text l : List Char} {ls body : List (List Char)}

/-! ## Texts put together in two ways -/

theorem exists_append_of_not_mem {c : Char} (h : front ++ rest = a ++ c :: b) (hc : c ∉ front) :
    ∃ mid, a = front ++ mid ∧ rest = mid ++ c :: b := by
  obtain hlonger | ⟨mid, hfront, hmid⟩ := List.append_eq_append_iff.mp h
  · exact hlonger
  · cases mid with
    | nil => exact ⟨[], by simpa using hfront.symm, by simpa using hmid.symm⟩
    | cons d mid =>
        obtain ⟨rfl, -⟩ := List.cons.inj hmid
        exact absurd (by simp [hfront]) hc

theorem exists_append_of_getLast? {c : Char} (h : rest ++ back = a ++ (s ++ b))
    (hlast : s.getLast? = some c) (hc : c ∉ back) : ∃ mid, rest = a ++ (s ++ mid) := by
  rw [← List.append_assoc] at h
  obtain ⟨mid, hmid, hback⟩ | ⟨mid, hrest, -⟩ := List.append_eq_append_iff.mp h
  · cases mid using List.reverseRecOn with
    | nil => exact ⟨[], by simpa using hmid.symm⟩
    | append_singleton mid d =>
        have hend : (rest ++ (mid ++ [d])).getLast? = some c := by
          rw [← hmid, List.getLast?_append, hlast, Option.some_or]
        obtain rfl : d = c := by simpa using hend
        exact absurd (by simp [hback]) hc
  · exact ⟨mid, by rw [hrest, List.append_assoc]⟩

theorem ne_of_not_mem {c : Char} (h : c ∉ l) : ∀ d ∈ l, (d ≠ c : Bool) = true := by
  intro d hd
  have hne : d ≠ c := fun heq => h (heq ▸ hd)
  simpa using hne

/-! ## Line feeds alone -/

/-- A text without the carriage returns that belong to line ends. -/
def dropReturns : List Char → List Char
  | [] => []
  | c :: cs => if c = '\r' ∧ cs.head? = some '\n' then dropReturns cs else c :: dropReturns cs

theorem mem_of_mem_dropReturns {c : Char} (h : c ∈ dropReturns cs) : c ∈ cs := by
  induction cs with
  | nil => exact h
  | cons d cs ih =>
      rw [dropReturns] at h
      split at h
      · exact List.mem_cons_of_mem d (ih h)
      · rcases List.mem_cons.mp h with rfl | hrest
        · exact List.mem_cons_self
        · exact List.mem_cons_of_mem d (ih hrest)

theorem dropReturns_append (h : b.head? = some '\n' → a.getLast? ≠ some '\r') :
    dropReturns (a ++ b) = dropReturns a ++ dropReturns b := by
  induction a with
  | nil => rfl
  | cons c a ih =>
      have hrest : b.head? = some '\n' → a.getLast? ≠ some '\r' := fun hfeed hlast =>
        h hfeed (List.mem_getLast?_cons hlast)
      have hsame : (c = '\r' ∧ (a ++ b).head? = some '\n') ↔ (c = '\r' ∧ a.head? = some '\n') := by
        refine and_congr_right fun hc => ?_
        cases a with
        | nil => exact iff_of_false (fun hfeed => h hfeed (by rw [hc]; rfl)) nofun
        | cons d a => rfl
      rw [List.cons_append, dropReturns, dropReturns, ih hrest]
      simp only [hsame]
      split <;> rfl

theorem dropReturns_of_no_return (h : '\r' ∉ cs) : dropReturns cs = cs := by
  induction cs with
  | nil => rfl
  | cons c cs ih =>
      rw [List.mem_cons, not_or] at h
      rw [dropReturns, if_neg fun hend => h.1 hend.1.symm, ih h.2]

theorem dropReturns_of_no_feed (h : '\n' ∉ l) : dropReturns l = l := by
  induction l with
  | nil => rfl
  | cons c l ih =>
      rw [List.mem_cons, not_or] at h
      rw [dropReturns, if_neg fun hend => h.2 (List.mem_of_head? hend.2), ih h.2]

theorem dropReturns_line (hline : '\n' ∉ l) (hreturn : l.getLast? ≠ some '\r') (cs : List Char) :
    dropReturns (l ++ '\n' :: cs) = l ++ '\n' :: dropReturns cs := by
  rw [dropReturns_append fun _ => hreturn, dropReturns_of_no_feed hline]
  rfl

theorem Ended.dropReturns_eq (h : Ended ls text) :
    dropReturns text = ls.flatMap (· ++ ['\n']) := by
  induction h with
  | nil => rfl
  | feed hline hreturn _ ih =>
      rw [dropReturns_line hline hreturn, ih, List.flatMap_cons, List.append_assoc]
      rfl
  | @returnFeed _ _ text hline _ ih =>
      have hend : ('\r' :: '\n' :: text).head? ≠ some '\n' := by simp
      rw [dropReturns_append fun h => absurd h hend, dropReturns_of_no_feed hline,
        List.flatMap_cons, List.append_assoc, ← ih]
      rfl

theorem joinChars_append_feed (h : ls ≠ []) :
    joinChars ['\n'] ls ++ ['\n'] = ls.flatMap (· ++ ['\n']) := by
  induction ls with
  | nil => exact absurd rfl h
  | cons l ls ih =>
      cases ls with
      | nil => simp [joinChars]
      | cons k ls =>
          rw [List.flatMap_cons, ← ih (List.cons_ne_nil k ls)]
          simp [joinChars]

/-- Lines joined by line feeds are the text that they make with their ends, once both are trimmed
and the carriage returns of the ends are left out. -/
theorem Ended.stripBlanks_joinChars (h : Ended ls text) :
    stripBlanks (joinChars ['\n'] ls) = stripBlanks (dropReturns text) := by
  rw [h.dropReturns_eq]
  by_cases hne : ls = []
  · rw [hne]
    rfl
  · rw [← joinChars_append_feed hne, stripBlanks_eq, stripBlanks_eq,
      dropBlanksEnd_append_of_blank (by decide)]

/-! ## Within a fence -/

theorem solid_of_braces (hhead : s.head? = some '\x7b') (hlast : s.getLast? = some '\x7d') :
    Solid s := by
  constructor
  · intro c hc
    obtain rfl := Option.mem_unique hhead hc
    decide
  · intro c hc
    obtain rfl := Option.mem_unique hlast hc
    decide

/-- The parts of a wrapped text: blanks, the line of the opening fence and its end, the lines
between, and the closing fence between blanks. -/
theorem Wrapped.exists_parts (h : Wrapped body cs) :
    ∃ lead first fin text tail, cs = lead ++ (first ++ fin ++ (text ++ tail)) ∧
      (∀ c ∈ lead, isBlank c = true) ∧ fenceMark <+: first ∧ '\n' ∉ first ∧
      (fin = ['\n'] ∨ fin = ['\r', '\n']) ∧ Ended body text ∧
      ∀ c ∈ tail, isBlank c = true ∨ c = '\x60' := by
  obtain @⟨lead, first, text, last, trail, hlead, hfirst, hlines, hbody, hlast, hbare, htrail⟩ := h
  have htail : ∀ c ∈ last ++ trail, isBlank c = true ∨ c = '\x60' := by
    obtain ⟨front, back, hfront, hback, hsplit⟩ := exists_trimmed last
    rw [hbare] at hsplit
    intro c hc
    simp only [hsplit, List.mem_append] at hc
    obtain ((hc | hc) | hc) | hc := hc
    · exact .inl (hfront c hc)
    · exact .inr (by simpa [fenceMark] using hc)
    · exact .inl (hback c hc)
    · exact .inl (htrail c hc)
  cases hlines with
  | @feed _ _ text hline hreturn hrest =>
      exact ⟨lead, first, ['\n'], text, last ++ trail, by simp, hlead, hfirst, hline, .inl rfl,
        hrest, htail⟩
  | @returnFeed _ _ text hline hrest =>
      exact ⟨lead, first, ['\r', '\n'], text, last ++ trail, by simp, hlead, hfirst, hline,
        .inr rfl, hrest, htail⟩

/-- A text that is, but for blanks before it, the beginning of a line with a fence. -/
structure OnFence (cs : List Char) : Prop where
  mark : fenceMark <+: dropBlanks cs
  line : '\n' ∉ dropBlanks cs

instance (cs : List Char) : Decidable (OnFence cs) :=
  decidable_of_iff (fenceMark <+: dropBlanks cs ∧ '\n' ∉ dropBlanks cs)
    ⟨fun h => ⟨h.1, h.2⟩, fun h => ⟨h.mark, h.line⟩⟩

theorem dropBlanks_of_fence {lead : List Char} (hlead : ∀ c ∈ lead, isBlank c = true)
    (hmark : fenceMark <+: l) : dropBlanks (lead ++ l) = l := by
  obtain ⟨r, rfl⟩ := hmark
  rw [dropBlanks_append hlead]
  exact dropBlanks_append_cons (by decide) [] _

/-- A text from brace to brace in a wrapped text is in the lines between the fences, unless it
begins on the line of the opening one. -/
theorem Wrapped.exists_around (h : Wrapped body (a ++ (s ++ b))) (ha : '\x7b' ∉ a)
    (hhead : s.head? = some '\x7b') (hlast : s.getLast? = some '\x7d') (hline : ¬ OnFence a) :
    ∃ text front back, Ended body text ∧ text = front ++ (s ++ back) ∧ '\x7b' ∉ front := by
  obtain ⟨lead, first, fin, text, tail, hcs, hlead, hfirst, hfeed, hfin, hended, htail⟩ :=
    h.exists_parts
  obtain ⟨u, rfl⟩ := List.head?_eq_some_iff.mp hhead
  have hlead' : '\x7b' ∉ lead := fun hmem => absurd (hlead _ hmem) (by decide)
  have hfin' : '\x7b' ∉ fin := by rcases hfin with rfl | rfl <;> decide
  obtain ⟨a₁, rfl, hrest⟩ := exists_append_of_not_mem hcs.symm hlead'
  by_cases hbrace : '\x7b' ∈ first
  · -- The brace is the first one on the line of the opening fence.
    obtain ⟨w, x, rfl, hw⟩ := List.eq_append_cons_of_mem hbrace
    obtain ⟨y, rfl, hy⟩ := exists_append_of_not_mem
      (show w ++ ('\x7b' :: x ++ fin ++ (text ++ tail)) = a₁ ++ '\x7b' :: (u ++ b) by
        simpa using hrest) hw
    obtain rfl : y = [] := by
      cases y with
      | nil => rfl
      | cons d y =>
          obtain ⟨rfl, -⟩ := List.cons.inj hy
          exact absurd (by simp) ha
    obtain ⟨r, hr⟩ := hfirst
    obtain ⟨m, rfl, -⟩ := exists_append_of_not_mem hr (by decide)
    have hfront : dropBlanks (lead ++ (fenceMark ++ m)) = fenceMark ++ m :=
      dropBlanks_of_fence hlead (List.prefix_append _ _)
    rw [List.append_nil] at hline
    refine absurd ⟨?_, ?_⟩ hline
    · rw [hfront]
      exact List.prefix_append _ _
    · rw [hfront]
      exact fun hmem => hfeed (List.mem_append_left _ hmem)
  · have hopening : '\x7b' ∉ first ++ fin := by simp [hbrace, hfin']
    obtain ⟨front, rfl, hinner⟩ := exists_append_of_not_mem hrest hopening
    have hbrace' : '\x7d' ∉ tail := by
      intro hmem
      rcases htail _ hmem with hblank | heq
      · exact absurd hblank (by decide)
      · exact absurd heq (by decide)
    obtain ⟨back, hback⟩ := exists_append_of_getLast? hinner hlast hbrace'
    exact ⟨text, front, back, hended, hback, fun hmem => ha (by simp [hmem])⟩

theorem Wrapped.unfenceChars_eq (h : Wrapped body cs) (hended : Ended body text) :
    unfenceChars cs = stripBlanks (dropReturns text) := by
  rw [unfenceChars_of_wrapped h, hended.stripBlanks_joinChars]

/-- The fence around a text from brace to brace can be removed without a loss to it, unless the text
begins on the line of the fence. -/
theorem unfenceChars_around (ha : '\x7b' ∉ a) (hhead : s.head? = some '\x7b')
    (hlast : s.getLast? = some '\x7d') (hreturn : '\r' ∉ s)
    (hline : ¬ (OnFence a ∧ ∃ body, Wrapped body (a ++ (s ++ b)))) :
    ∃ front back, unfenceChars (a ++ (s ++ b)) = front ++ (s ++ back) ∧ '\x7b' ∉ front := by
  obtain hsame | ⟨body, hwrapped⟩ := unfenceChars_cases (a ++ (s ++ b))
  · exact ⟨a, b, hsame, ha⟩
  · obtain ⟨text, front, back, hended, htext, hfront⟩ :=
      hwrapped.exists_around ha hhead hlast fun hon => hline ⟨hon, body, hwrapped⟩
    obtain ⟨u, hu⟩ := List.head?_eq_some_iff.mp hhead
    have hne : s ≠ [] := by
      rw [hu]
      exact List.cons_ne_nil _ u
    have hinner : (s ++ back).head? ≠ some '\n' := by
      rw [hu]
      simp
    have houter : s.getLast? ≠ some '\r' := by
      rw [hlast]
      simp
    have hfed : dropReturns text = dropReturns front ++ (s ++ dropReturns back) := by
      rw [htext, dropReturns_append fun h => absurd h hinner, dropReturns_append fun _ => houter,
        dropReturns_of_no_return hreturn]
    refine ⟨dropBlanks (dropReturns front), dropBlanksEnd (dropReturns back), ?_, fun hmem => ?_⟩
    · rw [hwrapped.unfenceChars_eq hended, hfed,
        (solid_of_braces hhead hlast).stripBlanks_around hne]
    · exact hfront (mem_of_mem_dropReturns ((List.dropWhile_sublist _).mem hmem))

/-- Of a wrapped text nothing is left that stands on the line of the opening fence. -/
theorem Wrapped.mem_of_mem_unfenceChars {c : Char} (h : Wrapped body cs)
    (hc : c ∈ unfenceChars cs) : c ∈ (dropBlanks cs).dropWhile (· ≠ '\n') := by
  obtain ⟨lead, first, fin, text, tail, rfl, hlead, hfirst, hfeed, hfin, hended, -⟩ :=
    h.exists_parts
  rw [List.append_assoc first, dropBlanks_of_fence hlead (hfirst.trans (List.prefix_append _ _)),
    List.dropWhile_append_of_pos (ne_of_not_mem hfeed)]
  rw [h.unfenceChars_eq hended] at hc
  obtain ⟨before, after, -, -, htrim⟩ := exists_trimmed (dropReturns text)
  have htext : c ∈ text := mem_of_mem_dropReturns (by rw [htrim]; simp [hc])
  rcases hfin with rfl | rfl <;> simp [htext]

end Scriptorium.Text
