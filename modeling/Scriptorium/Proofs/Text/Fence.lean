import Scriptorium.Proofs.Text.Content

/-! # Outer fences

A text is wrapped when, between blanks, its first line begins with a fence, its last line is a bare
fence and the lines between them are balanced. Then the lines between them are what is left of it;
every other text is left as it is.
-/

namespace Scriptorium.Text

variable {cs lead trail text last l : List Char} {ls body : List (List Char)}

/-! ## Trimming -/

structure Solid (cs : List Char) : Prop where
  front : ∀ c ∈ cs.head?, isBlank c = false
  back : ∀ c ∈ cs.getLast?, isBlank c = false

theorem dropBlanks_append (hlead : ∀ c ∈ lead, isBlank c = true) (cs : List Char) :
    dropBlanks (lead ++ cs) = dropBlanks cs := by
  rw [dropBlanks, List.dropWhile_append_of_pos hlead]
  rfl

theorem dropBlanksEnd_append (htrail : ∀ c ∈ trail, isBlank c = true) (cs : List Char) :
    dropBlanksEnd (cs ++ trail) = dropBlanksEnd cs := by
  have hreverse : ∀ c ∈ trail.reverse, isBlank c = true := by simpa using htrail
  rw [dropBlanksEnd, List.reverse_append, List.dropWhile_append_of_pos hreverse]
  rfl

theorem Solid.dropBlanks_eq (h : Solid cs) : dropBlanks cs = cs := by
  cases cs with
  | nil => rfl
  | cons c cs => simp [dropBlanks, h.front c rfl]

theorem Solid.dropBlanksEnd_eq (h : Solid cs) : dropBlanksEnd cs = cs := by
  induction cs using List.reverseRecOn with
  | nil => rfl
  | append_singleton cs c _ => exact dropBlanksEnd_append_of_not_blank (h.back c (by simp)) cs

/-- Trimming leaves what stands between blanks. -/
theorem Solid.stripBlanks_between (h : Solid cs) (hlead : ∀ c ∈ lead, isBlank c = true)
    (htrail : ∀ c ∈ trail, isBlank c = true) : stripBlanks (lead ++ cs ++ trail) = cs := by
  rw [stripBlanks_eq, dropBlanksEnd_append htrail, ← stripBlanks_eq, stripBlanks,
    dropBlanks_append hlead, h.dropBlanks_eq, h.dropBlanksEnd_eq]

theorem dropBlanksEnd_split (cs : List Char) :
    ∃ trail, (∀ c ∈ trail, isBlank c = true) ∧ cs = dropBlanksEnd cs ++ trail := by
  refine ⟨(cs.reverse.takeWhile isBlank).reverse, fun c hc => ?_, ?_⟩
  · exact List.mem_takeWhile_imp (List.mem_reverse.mp hc)
  · rw [dropBlanksEnd, ← List.reverse_append, List.takeWhile_append_dropWhile, List.reverse_reverse]

theorem solid_stripBlanks (cs : List Char) : Solid (stripBlanks cs) := by
  obtain ⟨trail, -, hsplit⟩ := dropBlanksEnd_split (dropBlanks cs)
  constructor
  · intro c hc
    have hhead : c ∈ (dropBlanks cs).head? := by
      rw [hsplit, List.head?_append, show (dropBlanksEnd (dropBlanks cs)).head? = some c from hc]
      rfl
    have hfront := List.head?_dropWhile_not isBlank cs
    rw [dropBlanks] at hhead
    rw [hhead] at hfront
    simpa using hfront
  · intro c hc
    have hback := List.head?_dropWhile_not isBlank (dropBlanks cs).reverse
    rw [stripBlanks, dropBlanksEnd, List.getLast?_reverse] at hc
    rw [hc] at hback
    simpa using hback

theorem trim_trim (s : String) : trim (trim s) = trim s := by
  have hsolid := solid_stripBlanks s.toList
  rw [trim, trim, String.toList_ofList, stripBlanks, hsolid.dropBlanks_eq, hsolid.dropBlanksEnd_eq]

theorem exists_trimmed (cs : List Char) :
    ∃ lead trail, (∀ c ∈ lead, isBlank c = true) ∧ (∀ c ∈ trail, isBlank c = true) ∧
      cs = lead ++ stripBlanks cs ++ trail := by
  obtain ⟨trail, htrail, hsplit⟩ := dropBlanksEnd_split (dropBlanks cs)
  refine ⟨cs.takeWhile isBlank, trail, fun c hc => List.mem_takeWhile_imp hc, htrail, ?_⟩
  rw [stripBlanks, List.append_assoc, ← hsplit, dropBlanks, List.takeWhile_append_dropWhile]

theorem dropBlanks_append_cons {c : Char} (hc : isBlank c = false) (cs r : List Char) :
    dropBlanks (cs ++ c :: r) = dropBlanks cs ++ c :: r := by
  induction cs with
  | nil => simp [dropBlanks, hc]
  | cons d cs ih =>
      by_cases hd : isBlank d = true
      · rw [List.cons_append, dropBlanks_cons_of_blank hd, dropBlanks_cons_of_blank hd, ih]
      · simp [dropBlanks, hd]

theorem dropBlanksEnd_append_cons {c : Char} (hc : isBlank c = false) (cs r : List Char) :
    dropBlanksEnd (cs ++ c :: r) = cs ++ c :: dropBlanksEnd r := by
  induction cs with
  | nil =>
      rw [List.nil_append, List.nil_append, dropBlanksEnd_cons]
      by_cases h : dropBlanksEnd r = [] <;> simp [h, hc]
  | cons d cs ih =>
      rw [List.cons_append, dropBlanksEnd_cons, ih, if_neg (by simp)]
      rfl

/-- Trimming does not reach into a text that is solid, with a character at least. -/
theorem Solid.stripBlanks_around (h : Solid cs) (hne : cs ≠ []) (a b : List Char) :
    stripBlanks (a ++ (cs ++ b)) = dropBlanks a ++ (cs ++ dropBlanksEnd b) := by
  obtain ⟨c, r, rfl⟩ := List.exists_cons_of_ne_nil hne
  obtain ⟨front, d, hlast⟩ := List.eq_nil_or_concat' (c :: r) |>.resolve_left hne
  have hc : isBlank c = false := h.front c rfl
  have hd : isBlank d = false := h.back d (by rw [hlast]; simp)
  rw [stripBlanks, List.cons_append, dropBlanks_append_cons hc, ← List.cons_append, hlast,
    List.append_assoc, List.singleton_append, ← List.append_assoc, dropBlanksEnd_append_cons hd]
  simp

/-! ## Lines and their ends -/

/-- A text made of lines, each with its end: a line feed, or a carriage return and a line feed. A
carriage return before a line feed is part of the end. -/
inductive Ended : List (List Char) → List Char → Prop where
  | nil : Ended [] []
  | feed {l : List Char} {ls : List (List Char)} {text : List Char} (hline : '\n' ∉ l)
      (hreturn : l.getLast? ≠ some '\r') (hrest : Ended ls text) :
      Ended (l :: ls) (l ++ '\n' :: text)
  | returnFeed {l : List Char} {ls : List (List Char)} {text : List Char} (hline : '\n' ∉ l)
      (hrest : Ended ls text) : Ended (l :: ls) (l ++ '\r' :: '\n' :: text)

theorem Ended.length_eq (h : Ended ls text) : ls.length = text.count '\n' := by
  induction h with
  | nil => rfl
  | feed hline _ _ ih => simp [ih, List.count_eq_zero.mpr hline]
  | returnFeed hline _ ih => simp [ih, List.count_eq_zero.mpr hline]

theorem splitLines_cons {c : Char} {r : List Char} (hc : c ≠ '\n')
    (hend : ¬ (c = '\r' ∧ r.head? = some '\n')) (h : splitLines r = l :: ls) :
    splitLines (c :: r) = (c :: l) :: ls := by
  unfold splitLines
  split
  case h_1 heq => cases heq
  case h_2 heq => exact absurd (List.cons.inj heq).1 hc
  case h_3 heq =>
      obtain ⟨rfl, rfl⟩ := List.cons.inj heq
      exact absurd ⟨rfl, rfl⟩ hend
  case h_4 heq =>
      obtain ⟨rfl, rfl⟩ := List.cons.inj heq
      rw [h]
      cases r with
      | nil => cases h
      | cons d r => rfl

theorem splitLines_feed (hline : '\n' ∉ l) (hreturn : l.getLast? ≠ some '\r') (cs : List Char) :
    splitLines (l ++ '\n' :: cs) = l :: splitLines cs := by
  induction l with
  | nil => rfl
  | cons c l ih =>
      rw [List.mem_cons, not_or] at hline
      have hrest : l.getLast? ≠ some '\r' := by
        intro h
        exact hreturn (List.mem_getLast?_cons h)
      refine splitLines_cons (Ne.symm hline.1) ?_ (ih hline.2 hrest)
      rintro ⟨rfl, hhead⟩
      cases l with
      | nil => exact hreturn rfl
      | cons d l => exact hline.2 (by simp [Option.some.inj hhead])

theorem splitLines_returnFeed (hline : '\n' ∉ l) (cs : List Char) :
    splitLines (l ++ '\r' :: '\n' :: cs) = l :: splitLines cs := by
  induction l with
  | nil => rfl
  | cons c l ih =>
      rw [List.mem_cons, not_or] at hline
      refine splitLines_cons (Ne.symm hline.1) ?_ (ih hline.2)
      rintro ⟨rfl, hhead⟩
      cases l with
      | nil => exact absurd (Option.some.inj hhead) (by decide)
      | cons d l => exact hline.2 (by simp [Option.some.inj hhead])

theorem splitLines_of_not_mem (hline : '\n' ∉ l) (hne : l ≠ []) : splitLines l = [l] := by
  induction l with
  | nil => exact absurd rfl hne
  | cons c l ih =>
      rw [List.mem_cons, not_or] at hline
      cases l with
      | nil =>
          unfold splitLines
          split <;> simp_all [splitLines]
      | cons d l =>
          refine splitLines_cons (Ne.symm hline.1) ?_ (ih hline.2 (List.cons_ne_nil d l))
          rintro ⟨rfl, hhead⟩
          exact hline.2 (by simp [Option.some.inj hhead])

theorem Ended.splitLines_front (h : Ended ls text) (cs : List Char) :
    splitLines (text ++ cs) = ls ++ splitLines cs := by
  induction h with
  | nil => rfl
  | feed hl hreturn _ ih =>
      rw [List.append_assoc, List.cons_append, splitLines_feed hl hreturn, ih, List.cons_append]
  | returnFeed hl _ ih =>
      rw [List.append_assoc, List.cons_append, List.cons_append, splitLines_returnFeed hl, ih,
        List.cons_append]

/-- A text that does not end in a line end is split into the lines before its last one, and that. -/
theorem Ended.splitLines_append (h : Ended ls text) (hline : '\n' ∉ last) (hne : last ≠ []) :
    splitLines (text ++ last) = ls ++ [last] := by
  rw [h.splitLines_front, splitLines_of_not_mem hline hne]

/-- A character before a text begins its first line. -/
theorem Ended.cons {c : Char} (h : Ended (l :: ls) text) (hc : c ≠ '\n')
    (hend : ¬ (c = '\r' ∧ text.head? = some '\n')) : Ended ((c :: l) :: ls) (c :: text) := by
  cases h with
  | feed hline hreturn hrest =>
      refine .feed (by simp [hline, Ne.symm hc]) (fun hlast => ?_) hrest
      cases l with
      | nil => exact hend ⟨Option.some.inj hlast, rfl⟩
      | cons d l => exact hreturn (by rwa [List.getLast?_cons_cons] at hlast)
  | returnFeed hline hrest => exact .returnFeed (by simp [hline, Ne.symm hc]) hrest

/-- Every text that does not end in a line feed consists of lines with their ends and a last one. -/
theorem exists_ended (hne : cs ≠ []) (hfeed : cs.getLast? ≠ some '\n') :
    ∃ ls text last, Ended ls text ∧ '\n' ∉ last ∧ last ≠ [] ∧ cs = text ++ last := by
  fun_induction splitLines cs with
  | case1 => exact absurd rfl hne
  | case2 r ih =>
      have hr : r ≠ [] := by
        rintro rfl
        exact hfeed rfl
      rw [List.getLast?_cons_of_ne_nil hr] at hfeed
      obtain ⟨ls, text, last, hended, hline, hlast, rfl⟩ := ih hr hfeed
      exact ⟨[] :: ls, '\n' :: text, last, .feed (by simp) (by simp) hended, hline, hlast, rfl⟩
  | case3 r ih =>
      have hr : r ≠ [] := by
        rintro rfl
        exact hfeed rfl
      rw [List.getLast?_cons_cons, List.getLast?_cons_of_ne_nil hr] at hfeed
      obtain ⟨ls, text, last, hended, hline, hlast, rfl⟩ := ih hr hfeed
      exact ⟨[] :: ls, '\r' :: '\n' :: text, last, .returnFeed (by simp) hended, hline, hlast, rfl⟩
  | case4 c hc l ls d r hnot _ ih =>
      rw [List.getLast?_cons_cons] at hfeed
      obtain ⟨ks, text, last, hended, hline, hlast, hsplit⟩ := ih (List.cons_ne_nil d r) hfeed
      rw [hsplit]
      cases ks with
      | nil =>
          cases hended
          refine ⟨[], [], c :: last, .nil, ?_, List.cons_ne_nil c last, rfl⟩
          simpa [hline] using fun heq => hc heq.symm
      | cons k ks =>
          refine ⟨(c :: k) :: ks, c :: text, last, hended.cons hc ?_, hline, hlast, rfl⟩
          rintro ⟨rfl, hhead⟩
          obtain ⟨t, rfl⟩ : ∃ t, text = '\n' :: t := by
            cases text with
            | nil => cases hhead
            | cons e t => exact ⟨t, by rw [Option.some.inj hhead]⟩
          exact hnot _ rfl hsplit
  | case5 c r hc _ hlast _ =>
      obtain rfl := eq_nil_of_no_line hlast
      refine ⟨[], [], [c], .nil, ?_, by simp, rfl⟩
      simpa using fun heq => hc heq.symm

/-! ## Wrapped texts -/

theorem solid_fenceMark : Solid fenceMark := by
  constructor
  · intro c hc
    obtain rfl : '\x60' = c := Option.some.inj hc
    decide
  · intro c hc
    obtain rfl : '\x60' = c := Option.some.inj hc
    decide

/-- A text that is, between blanks, a line that begins with a fence, balanced lines and a bare fence
as the last line. -/
inductive Wrapped (body : List (List Char)) : List Char → Prop where
  | intro {lead first text last trail : List Char} (hlead : ∀ c ∈ lead, isBlank c = true)
      (hfirst : fenceMark <+: first) (hlines : Ended (first :: body) text) (hbody : Balanced body)
      (hlast : '\n' ∉ last) (hbare : stripBlanks last = fenceMark)
      (htrail : ∀ c ∈ trail, isBlank c = true) : Wrapped body (lead ++ (text ++ last) ++ trail)

theorem isFence_iff (h : ∀ c ∈ l.head?, isBlank c = false) :
    isFence l = true ↔ fenceMark <+: l := by
  have hfront : dropBlanks l = l := by
    cases l with
    | nil => rfl
    | cons c l => simp [dropBlanks, h c rfl]
  rw [isFence, startsWith_iff, stripBlanks, hfront]
  constructor
  · rintro ⟨r, hr⟩
    obtain ⟨trail, -, hsplit⟩ := dropBlanksEnd_split l
    exact ⟨r ++ trail, by rw [← List.append_assoc, ← hr, ← hsplit]⟩
  · rintro ⟨r, rfl⟩
    exact ⟨dropBlanksEnd r, dropBlanksEnd_append_cons (by decide) ['\x60', '\x60'] r⟩

theorem Ended.first_isPrefix (h : Ended (l :: ls) text) : l <+: text := by
  cases h with
  | feed => exact List.prefix_append _ _
  | returnFeed => exact List.prefix_append _ _

theorem mem_head?_of_isPrefix {s t : List Char} (h : s <+: t) : ∀ c ∈ s.head?, c ∈ t.head? := by
  obtain ⟨r, rfl⟩ := h
  intro c hc
  cases s with
  | nil => cases hc
  | cons d s => exact hc

/-- Of a wrapped text the lines between the fences are left. -/
theorem unfenceChars_of_wrapped (h : Wrapped body cs) :
    unfenceChars cs = stripBlanks (joinChars ['\n'] body) := by
  obtain @⟨lead, first, text, last, trail, hlead, hfirst, hlines, hbody, hlast, hbare, htrail⟩ := h
  obtain ⟨front, back, hfront, hback, hsplit⟩ := exists_trimmed last
  rw [hbare] at hsplit
  subst hsplit
  -- What follows the mark on the last line belongs to the blanks behind the text.
  have htext : lead ++ (text ++ (front ++ fenceMark ++ back)) ++ trail =
      lead ++ (text ++ (front ++ fenceMark)) ++ (back ++ trail) := by simp
  have hsolid : Solid (text ++ (front ++ fenceMark)) := by
    constructor
    · intro c hc
      have hmark : '\x60' ∈ (text ++ (front ++ fenceMark)).head? :=
        mem_head?_of_isPrefix ((hfirst.trans hlines.first_isPrefix).trans (List.prefix_append _ _)) _ rfl
      obtain rfl := Option.mem_unique hmark hc
      decide
    · intro c hc
      have hmark : (text ++ (front ++ fenceMark)).getLast? = some '\x60' := by simp [fenceMark]
      obtain rfl := Option.some.inj (hmark.symm.trans hc)
      decide
  have hstrip : stripBlanks (lead ++ (text ++ (front ++ fenceMark ++ back)) ++ trail) =
      text ++ (front ++ fenceMark) := by
    rw [htext]
    refine hsolid.stripBlanks_between hlead fun c hc => ?_
    exact (List.mem_append.mp hc).elim (hback c) (htrail c)
  have hsplit : splitLines (text ++ (front ++ fenceMark)) =
      first :: (body ++ [front ++ fenceMark]) := by
    refine hlines.splitLines_append (fun hmem => hlast ?_) (by simp [fenceMark])
    exact List.mem_append_left back hmem
  have hisFence : isFence first = true := by
    refine (isFence_iff fun c hc => ?_).mpr hfirst
    obtain rfl := Option.mem_unique (mem_head?_of_isPrefix hfirst '\x60' rfl) hc
    decide
  have hmark : stripBlanks (front ++ fenceMark) = fenceMark := by
    simpa using solid_fenceMark.stripBlanks_between hfront (List.forall_mem_nil _)
  have hclosing : toClosing 0 (body ++ [front ++ fenceMark]) = some (body, []) :=
    toClosing_balanced.mpr ⟨_, rfl, hmark, hbody⟩
  rw [unfenceChars, hstrip, hsplit]
  simp only [hisFence, if_true, hclosing]

theorem unfenceChars_cases (cs : List Char) :
    unfenceChars cs = cs ∨ ∃ body, Wrapped body cs := by
  unfold unfenceChars
  split
  · exact .inl rfl
  next first rest hsplit =>
    split
    next hisFence =>
      split
      next body hclosing =>
        right
        obtain ⟨last, rfl, hbare, hbody⟩ := toClosing_balanced.mp hclosing
        obtain ⟨lead, trail, hlead, htrail, hcs⟩ := exists_trimmed cs
        have hsolid := solid_stripBlanks cs
        have hne : stripBlanks cs ≠ [] := by
          intro hnil
          rw [hnil] at hsplit
          cases hsplit
        have hfeed : (stripBlanks cs).getLast? ≠ some '\n' := fun h =>
          absurd (hsolid.back '\n' h) (by decide)
        obtain ⟨ls, text, final, hended, hline, hfinal, hstrip⟩ := exists_ended hne hfeed
        have hlines := hended.splitLines_append hline hfinal
        rw [← hstrip, hsplit, ← List.cons_append] at hlines
        obtain ⟨rfl, hsame⟩ := List.append_inj' hlines rfl
        obtain rfl : last = final := List.singleton_inj.mp hsame
        have hprefix : first <+: stripBlanks cs := by
          rw [hstrip]
          exact hended.first_isPrefix.trans (List.prefix_append _ _)
        have hfirst := (isFence_iff fun c hc =>
          hsolid.front c (mem_head?_of_isPrefix hprefix c hc)).mp hisFence
        refine ⟨body, ?_⟩
        rw [hcs, hstrip]
        exact .intro hlead hfirst hended hbody hline hbare htrail
      · exact .inl rfl
    · exact .inl rfl

/-- Of a text that is wrapped in a fence the lines between are left, joined by line feeds and
trimmed; a text that is not is left as it is. -/
theorem unfence_exactly_wrapped (s : String) :
    (∀ body, Wrapped body s.toList →
      unfence s = trim (String.ofList (joinChars ['\n'] body))) ∧
    ((¬ ∃ body, Wrapped body s.toList) → unfence s = s) := by
  constructor
  · intro body h
    rw [unfence, unfenceChars_of_wrapped h, trim, String.toList_ofList]
  · intro h
    rw [unfence, (unfenceChars_cases s.toList).resolve_right h, String.ofList_toList]

theorem unfence_exactly_wrapped_nested :
    Wrapped ["A".toList, "\x60\x60\x60py".toList, "B".toList, "\x60\x60\x60".toList]
        "\n \x60\x60\x60md\r\nA\n\x60\x60\x60py\r\nB\n\x60\x60\x60\n  \x60\x60\x60\t\n".toList ∧
      unfence "\n \x60\x60\x60md\r\nA\n\x60\x60\x60py\r\nB\n\x60\x60\x60\n  \x60\x60\x60\t\n" =
        "A\n\x60\x60\x60py\nB\n\x60\x60\x60" := by
  have hlines : Ended ["\x60\x60\x60md".toList, "A".toList, "\x60\x60\x60py".toList, "B".toList,
      "\x60\x60\x60".toList] "\x60\x60\x60md\r\nA\n\x60\x60\x60py\r\nB\n\x60\x60\x60\n".toList :=
    .returnFeed (by decide) (.feed (by decide) (by decide) (.returnFeed (by decide)
      (.feed (by decide) (by decide) (.feed (by decide) (by decide) .nil))))
  have hwrapped := @Wrapped.intro _ "\n ".toList _ _ "  \x60\x60\x60".toList "\t\n".toList
    (List.all_eq_true.mp (by decide)) (by decide) hlines (by decide) (by decide) (by decide)
    (List.all_eq_true.mp (by decide))
  refine ⟨hwrapped, ((unfence_exactly_wrapped _).1 _ hwrapped).trans ?_⟩
  decide

end Scriptorium.Text
