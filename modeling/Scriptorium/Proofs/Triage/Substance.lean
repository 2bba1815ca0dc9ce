import Mathlib.Data.List.Basic
import Scriptorium.Proofs.Text.Fence
import Scriptorium.Triage

/-! # Lines of substance

What discounts a line is said as a way of putting the line together: an import, an assignment, a
docstring delimiter. The scanners accept exactly these lines. A line whose equals signs all belong
to comparisons is never an assignment without an annotation; it is taken for an annotated one where
a name with a colon begins it and its first equals sign belongs to a bound.
-/

namespace Scriptorium

namespace Triage

variable {line cs gap : List Char} {c : Char}

/-! ## Spans -/

def Blanks (cs : List Char) : Prop := ∀ c ∈ cs, Text.isBlank c = true

def Gap (cs : List Char) : Prop := cs ≠ [] ∧ Blanks cs

def Unbroken (cs : List Char) : Prop := cs ≠ [] ∧ ∀ c ∈ cs, Text.isBlank c = false

inductive Identifier : List Char → Prop where
  | intro {c : Char} {rest : List Char} (hstart : isNameStart c = true)
      (hrest : ∀ d ∈ rest, isNamePart d = true) : Identifier (c :: rest)

theorem isBlank_of_isNamePart (h : isNamePart c = true) : Text.isBlank c = false := by
  rcases (Bool.or_eq_true _ _).mp h with h | h
  · exact Text.isBlank_of_isAlphanum ((Bool.and_eq_true _ _).mp h).2
  · obtain rfl := beq_iff_eq.mp h
    decide

/-- A span ends before a character of another kind. -/
theorem dropWhile_span {p : Char → Bool} {body rest : List Char} (hbody : ∀ d ∈ body, p d = true)
    (hrest : ∀ d ∈ rest.head?, p d = false) : (body ++ rest).dropWhile p = rest := by
  rw [List.dropWhile_append_of_pos hbody]
  cases rest with
  | nil => rfl
  | cons d rest => exact List.dropWhile_cons_of_neg (by simp [hrest d rfl])

theorem takeWhile_span {p : Char → Bool} {body rest : List Char} (hbody : ∀ d ∈ body, p d = true)
    (hrest : ∀ d ∈ rest.head?, p d = false) : (body ++ rest).takeWhile p = body := by
  rw [List.takeWhile_append_of_pos hbody]
  cases rest with
  | nil => exact List.append_nil body
  | cons d rest => rw [List.takeWhile_cons_of_neg (by simp [hrest d rfl]), List.append_nil]

theorem head?_dropWhile_span (p : Char → Bool) (cs : List Char) :
    ∀ d ∈ (cs.dropWhile p).head?, p d = false := by
  intro d hd
  have hhead := List.head?_dropWhile_not p cs
  rw [hd] at hhead
  simpa using hhead

theorem forall_head?_append {P : Char → Prop} (hne : cs ≠ []) (hall : ∀ d ∈ cs, P d)
    (rest : List Char) : ∀ d ∈ (cs ++ rest).head?, P d := by
  obtain ⟨c, cs, rfl⟩ := List.exists_cons_of_ne_nil hne
  rintro d ⟨⟩
  exact hall c List.mem_cons_self

/-! ## Imports -/

/-- Lines that import: `import x`, `from x import y` and `use x;`. -/
inductive Imports : List Char → Prop where
  | whole {gap rest : List Char} {c : Char} (hgap : Gap gap) (hc : Text.isBlank c = false) :
      Imports ("import".toList ++ (gap ++ c :: rest))
  | part {gap source gap' rest : List Char} {c : Char} (hgap : Gap gap) (hsource : Unbroken source)
      (hgap' : Gap gap') (hc : Text.isBlank c = true) :
      Imports ("from".toList ++ (gap ++ (source ++ (gap' ++ ("import".toList ++ c :: rest)))))
  | uses {gap path : List Char} (hgap : Gap gap) (hpath : Unbroken path) :
      Imports ("use".toList ++ (gap ++ (path ++ [';'])))

theorem after?_eq_some_iff {text : String} {rest : List Char} :
    after? text cs = some rest ↔ cs = text.toList ++ rest := by
  rw [after?, Option.ite_none_right_eq_some, Text.startsWith_iff, Option.some.injEq]
  constructor
  · rintro ⟨⟨r, rfl⟩, rfl⟩
    rw [← String.length_toList, List.drop_left]
  · rintro rfl
    exact ⟨⟨rest, rfl⟩, by rw [← String.length_toList, List.drop_left]⟩

theorem afterBlanks?_eq_some_iff {rest : List Char} :
    afterBlanks? cs = some rest ↔
      ∃ gap, Gap gap ∧ cs = gap ++ rest ∧ ∀ d ∈ rest.head?, Text.isBlank d = false := by
  cases cs with
  | nil =>
      refine iff_of_false nofun ?_
      rintro ⟨gap, ⟨hne, -⟩, hnil, -⟩
      exact hne (List.append_eq_nil_iff.mp hnil.symm).1
  | cons c cs =>
      rw [afterBlanks?, Option.ite_none_right_eq_some, Option.some.injEq]
      constructor
      · rintro ⟨hc, rfl⟩
        refine ⟨c :: cs.takeWhile Text.isBlank, ⟨List.cons_ne_nil _ _, ?_⟩, ?_,
          head?_dropWhile_span Text.isBlank cs⟩
        · exact List.forall_mem_cons.mpr ⟨hc, fun d hd => List.mem_takeWhile_imp hd⟩
        · rw [List.cons_append, Text.dropBlanks, List.takeWhile_append_dropWhile]
      · rintro ⟨gap, ⟨hne, hblanks⟩, hsplit, hstop⟩
        obtain ⟨d, gap, rfl⟩ := List.exists_cons_of_ne_nil hne
        obtain ⟨rfl, rfl⟩ := List.cons.inj hsplit
        obtain ⟨hc, hgap⟩ := List.forall_mem_cons.mp hblanks
        exact ⟨hc, dropWhile_span hgap hstop⟩

/-- The rest of a line behind a word and a gap. -/
theorem afterWord?_eq_some_iff {text : String} {rest : List Char} :
    (after? text line).bind afterBlanks? = some rest ↔
      ∃ gap, Gap gap ∧ line = text.toList ++ (gap ++ rest) ∧
        ∀ d ∈ rest.head?, Text.isBlank d = false := by
  simp only [Option.bind_eq_some_iff, after?_eq_some_iff, afterBlanks?_eq_some_iff]
  constructor
  · rintro ⟨_, rfl, gap, hgap, rfl, hstop⟩
    exact ⟨gap, hgap, rfl, hstop⟩
  · rintro ⟨gap, hgap, rfl, hstop⟩
    exact ⟨_, rfl, gap, hgap, rfl, hstop⟩

theorem imports_of_isImport (h : isImport line = true) : Imports line := by
  simp only [isImport, Bool.or_eq_true] at h
  rcases h with (h | h) | h
  · split at h
    · rename_i rest hword
      obtain ⟨gap, hgap, rfl, hstop⟩ := afterWord?_eq_some_iff.mp hword
      obtain ⟨c, rest, rfl⟩ := List.exists_cons_of_ne_nil (l := rest) (by simpa using h)
      exact .whole hgap (hstop c rfl)
    · cases h
  · split at h
    · rename_i rest hword
      obtain ⟨gap, hgap, rfl, -⟩ := afterWord?_eq_some_iff.mp hword
      split at h
      · rename_i c behind hbehind
        obtain ⟨hsource, hc⟩ := (Bool.and_eq_true _ _).mp h
        obtain ⟨_, hgap', hbehind⟩ := Option.bind_eq_some_iff.mp hbehind
        obtain ⟨gap', hblanks, hsplit, -⟩ := afterBlanks?_eq_some_iff.mp hgap'
        rw [← List.takeWhile_append_dropWhile (p := (!Text.isBlank ·)) (l := rest), hsplit,
          after?_eq_some_iff.mp hbehind]
        refine .part hgap ⟨by simpa using hsource, fun d hd => ?_⟩ hblanks hc
        simpa using List.mem_takeWhile_imp hd
      · cases h
    · cases h
  · split at h
    · rename_i rest hword
      obtain ⟨gap, hgap, rfl, -⟩ := afterWord?_eq_some_iff.mp hword
      simp only [Bool.and_eq_true, decide_eq_true_eq, beq_iff_eq] at h
      obtain ⟨⟨hlength, hall⟩, hlast⟩ := h
      obtain ⟨path, rfl⟩ := List.getLast?_eq_some_iff.mp hlast
      refine .uses hgap ⟨?_, fun d hd => ?_⟩
      · rintro rfl
        exact absurd hlength (by decide)
      · simpa using List.all_eq_true.mp hall d (List.mem_append_left _ hd)
    · cases h

theorem isImport_of_imports (h : Imports line) : isImport line = true := by
  simp only [isImport, Bool.or_eq_true]
  cases h with
  | whole hgap hc =>
      left; left
      rw [afterWord?_eq_some_iff.mpr ⟨_, hgap, rfl, by simpa using hc⟩]
      rfl
  | @part gap source gap' rest c hgap hsource hgap' hc =>
      left; right
      obtain ⟨hne, hsolid⟩ := hsource
      rw [afterWord?_eq_some_iff.mpr ⟨_, hgap, rfl, forall_head?_append hne hsolid _⟩]
      have hbody : ∀ d ∈ source, (!Text.isBlank d) = true := by simpa using hsolid
      have hstop : ∀ d ∈ (gap' ++ ("import".toList ++ c :: rest)).head?,
          (!Text.isBlank d) = false :=
        forall_head?_append hgap'.1 (fun d hd => by rw [hgap'.2 d hd]; rfl) _
      have hbehind : afterBlanks? (gap' ++ ("import".toList ++ c :: rest)) =
          some ("import".toList ++ c :: rest) :=
        afterBlanks?_eq_some_iff.mpr ⟨gap', hgap', rfl, by simp; decide⟩
      simp only [takeWhile_span hbody hstop, dropWhile_span hbody hstop, hbehind,
        Option.bind_some, after?_eq_some_iff.mpr rfl]
      simpa [hc] using hne
  | uses hgap hpath =>
      right
      rw [afterWord?_eq_some_iff.mpr ⟨_, hgap, rfl, forall_head?_append hpath.1 hpath.2 _⟩]
      have hlength := List.length_pos_iff.mpr hpath.1
      have hsemi : Text.isBlank ';' = false := by decide
      simpa [hsemi] using ⟨hlength, hpath.2⟩

theorem isImport_iff : isImport line = true ↔ Imports line :=
  ⟨imports_of_isImport, isImport_of_imports⟩

/-! ## Assignments -/

/-- Lines that give a name a value, with an annotation behind a colon or without one. -/
inductive Assigns : List Char → Prop where
  | plain {name gap space rest : List Char} {c : Char} (hname : Identifier name)
      (hgap : Blanks gap) (hspace : Blanks space) (hc : c ≠ '=') :
      Assigns (name ++ (gap ++ '=' :: (space ++ c :: rest)))
  | annotated {name gap lead note space rest : List Char} {c : Char} (hname : Identifier name)
      (hgap : Blanks gap) (hlead : Blanks lead) (hne : note ≠ []) (hnote : '=' ∉ note)
      (hspace : Blanks space) (hc : c ≠ '=') :
      Assigns (name ++ (gap ++ ':' :: (lead ++ (note ++ '=' :: (space ++ c :: rest)))))

theorem Blanks.nil : Blanks [] := nofun

theorem Blanks.no_equals (h : Blanks cs) : '=' ∉ cs :=
  fun hmem => absurd (h '=' hmem) (by decide)

theorem startsValue_eq_true_iff :
    startsValue cs = true ↔ ∃ c rest, c ≠ '=' ∧ cs = c :: rest := by
  cases cs with
  | nil => exact iff_of_false nofun nofun
  | cons c rest => simp [startsValue]

theorem Blanks.append_cons {space : List Char} (h : Blanks space) (hc : c ≠ '=')
    (rest : List Char) : ∃ d more, d ≠ '=' ∧ space ++ c :: rest = d :: more := by
  cases space with
  | nil => exact ⟨c, rest, hc, rfl⟩
  | cons d space =>
      exact ⟨d, _, fun hd => h.no_equals (hd ▸ List.mem_cons_self), List.cons_append⟩

/-- A value may stand behind blanks. -/
theorem startsValue_behind {space rest : List Char} (hspace : Blanks space) (hc : c ≠ '=') :
    startsValue (space ++ c :: rest) = true :=
  startsValue_eq_true_iff.mpr (hspace.append_cons hc rest)

/-- What stands behind a name and the blanks after it. -/
theorem behind_name {name rest : List Char} (hname : Identifier name) (hgap : Blanks gap)
    (hpart : isNamePart c = false) (hblank : Text.isBlank c = false) :
    ∃ start part, name ++ (gap ++ c :: rest) = start :: part ∧ isNameStart start = true ∧
      Text.dropBlanks (part.dropWhile isNamePart) = c :: rest := by
  obtain ⟨hstart, hrest⟩ := hname
  refine ⟨_, _, List.cons_append, hstart, ?_⟩
  -- no blank is part of a name, so the name ends where its blanks begin
  have hstop : ∀ d ∈ (gap ++ c :: rest).head?, isNamePart d = false := by
    cases gap with
    | nil => rintro d ⟨⟩; exact hpart
    | cons d gap =>
        rintro d ⟨⟩
        refine Bool.eq_false_iff.mpr fun hd => ?_
        exact absurd (hgap d List.mem_cons_self) (by simp [isBlank_of_isNamePart hd])
  rw [dropWhile_span hrest hstop, Text.dropBlanks]
  exact dropWhile_span hgap (by rintro d ⟨⟩; exact hblank)

/-- A name, and what stands behind it and its blanks. -/
theorem exists_name {start : Char} {part rest : List Char} (hstart : isNameStart start = true)
    (hrest : Text.dropBlanks (part.dropWhile isNamePart) = rest) :
    ∃ name gap, Identifier name ∧ Blanks gap ∧ start :: part = name ++ (gap ++ rest) := by
  refine ⟨start :: part.takeWhile isNamePart, (part.dropWhile isNamePart).takeWhile Text.isBlank,
    ⟨hstart, fun d hd => List.mem_takeWhile_imp hd⟩, fun d hd => List.mem_takeWhile_imp hd, ?_⟩
  rw [← hrest, Text.dropBlanks, List.takeWhile_append_dropWhile, List.cons_append,
    List.takeWhile_append_dropWhile]

theorem exists_before_equals {sign : Char} {value : List Char}
    (h : cs.dropWhile (· ≠ '=') = sign :: value) :
    ∃ note, '=' ∉ note ∧ cs = note ++ '=' :: value := by
  have hsign : sign = '=' := by
    simpa using head?_dropWhile_span (· ≠ '=') cs sign (by rw [h]; rfl)
  refine ⟨cs.takeWhile (· ≠ '='), fun hmem => ?_, ?_⟩
  · simpa using List.mem_takeWhile_imp hmem
  · rw [hsign] at h
    rw [← h, List.takeWhile_append_dropWhile]

theorem assigns_of_isAssignment (h : isAssignment line = true) : Assigns line := by
  cases line with
  | nil => cases h
  | cons start part =>
      obtain ⟨hstart, h⟩ := (Bool.and_eq_true _ _).mp h
      split at h
      · rename_i value hvalue
        obtain ⟨name, gap, hname, hgap, hline⟩ := exists_name hstart hvalue
        obtain ⟨c, rest, hc, rfl⟩ := startsValue_eq_true_iff.mp h
        exact hline ▸ .plain hname hgap Blanks.nil hc
      · rename_i rest hrest
        obtain ⟨name, gap, hname, hgap, hline⟩ := exists_name hstart hrest
        split at h
        · rename_i sign value hsign
          obtain ⟨hhead, hvalue⟩ := (Bool.and_eq_true _ _).mp h
          obtain ⟨c, rest', hc, rfl⟩ := startsValue_eq_true_iff.mp hvalue
          obtain ⟨note, hnote, rfl⟩ := exists_before_equals hsign
          refine hline ▸ .annotated hname hgap Blanks.nil ?_ hnote Blanks.nil hc
          rintro rfl
          simp at hhead
        · cases h
      · cases h

theorem isAssignment_of_assigns (h : Assigns line) : isAssignment line = true := by
  cases h with
  | plain hname hgap hspace hc =>
      obtain ⟨start, part, hline, hstart, hbehind⟩ :=
        behind_name hname hgap (c := '=') (by decide) (by decide)
      rw [hline, isAssignment, hstart, hbehind]
      exact startsValue_behind hspace hc
  | @annotated name gap lead note space rest c hname hgap hlead hne hnote hspace hc =>
      obtain ⟨start, part, hline, hstart, hbehind⟩ :=
        behind_name hname hgap (c := ':') (by decide) (by decide)
      have hnone : '=' ∉ lead ++ note := List.not_mem_append hlead.no_equals hnote
      have hspan : (lead ++ note ++ '=' :: (space ++ c :: rest)).dropWhile (· ≠ '=') =
          '=' :: (space ++ c :: rest) :=
        dropWhile_span (fun d hd => decide_eq_true fun h => hnone (h ▸ hd)) (by rintro d ⟨⟩; rfl)
      have hhead : (lead ++ note ++ '=' :: (space ++ c :: rest)).head? ≠ some '=' := by
        rw [List.head?_append_of_ne_nil _ (List.append_ne_nil_of_right_ne_nil lead hne)]
        exact fun h => hnone (List.mem_of_mem_head? h)
      rw [hline, isAssignment, hstart, hbehind, ← List.append_assoc lead]
      simp only [hspan, startsValue_behind hspace hc]
      simpa using hhead

theorem isAssignment_iff : isAssignment line = true ↔ Assigns line :=
  ⟨assigns_of_isAssignment, isAssignment_of_assigns⟩

/-! ## Lines without content -/

/-- Quotes of one kind or both, and three of a kind in front. -/
structure Delimits (cs : List Char) : Prop where
  quotes : ∀ c ∈ cs, c = '"' ∨ c = '\''
  opening : ['"', '"', '"'] <+: cs ∨ ['\'', '\'', '\''] <+: cs

theorem startsWith_iff_prefix {word : List Char} :
    Text.startsWith word cs = true ↔ word <+: cs := by
  rw [Text.startsWith_iff]
  exact exists_congr fun rest => eq_comm

theorem isDelimiter_iff : isDelimiter cs = true ↔ Delimits cs := by
  simp only [isDelimiter, Bool.and_eq_true, Bool.or_eq_true, List.all_eq_true, beq_iff_eq,
    startsWith_iff_prefix]
  exact ⟨fun ⟨hquotes, hopening⟩ => ⟨hquotes, hopening⟩, fun h => ⟨h.quotes, h.opening⟩⟩

/-- Trimmed lines that have no content of their own: nothing, a comment, a delimiter, an import. -/
inductive Scaffold : List Char → Prop where
  | blank : Scaffold []
  | hash {rest : List Char} : Scaffold ('#' :: rest)
  | slashes {rest : List Char} : Scaffold ('/' :: '/' :: rest)
  | delimiter {cs : List Char} (h : Delimits cs) : Scaffold cs
  | imports {cs : List Char} (h : Imports cs) : Scaffold cs

theorem scaffold_iff :
    Scaffold cs ↔ cs = [] ∨ ['#'] <+: cs ∨ ['/', '/'] <+: cs ∨ Delimits cs ∨ Imports cs := by
  constructor
  · rintro (_ | _ | _ | h | h)
    · exact .inl rfl
    · exact .inr (.inl ⟨_, rfl⟩)
    · exact .inr (.inr (.inl ⟨_, rfl⟩))
    · exact .inr (.inr (.inr (.inl h)))
    · exact .inr (.inr (.inr (.inr h)))
  · rintro (rfl | ⟨rest, rfl⟩ | ⟨rest, rfl⟩ | h | h)
    · exact .blank
    · exact .hash
    · exact .slashes
    · exact .delimiter h
    · exact .imports h

instance : DecidablePred Delimits := fun _ => decidable_of_iff _ isDelimiter_iff

instance : DecidablePred Imports := fun _ => decidable_of_iff _ isImport_iff

instance : DecidablePred Scaffold := fun _ => decidable_of_iff _ scaffold_iff.symm

theorem isSubstantive_eq_false_iff :
    isSubstantive line = false ↔
      Scaffold (Text.stripBlanks line) ∨ Assigns (Text.stripBlanks line) := by
  simp only [isSubstantive, Bool.and_eq_false_iff, Bool.not_eq_false', List.isEmpty_iff,
    startsWith_iff_prefix, isDelimiter_iff, isImport_iff, isAssignment_iff, scaffold_iff, or_assoc]

/-! ## Comparisons -/

/-- Whether an equals sign behind these characters ends a comparison operator. -/
def EndsOperator (before : List Char) : Prop :=
  ∃ c ∈ before.getLast?, c ∈ ['=', '!', '<', '>']

/-- Lines in which each equals sign is part of exactly one of `==`, `!=`, `<=` and `>=`: it ends one
of them or it begins `==`, and it does not do both. -/
def Comparing (line : List Char) : Prop :=
  ∀ before after, line = before ++ '=' :: after →
    (EndsOperator before ↔ after.head? ≠ some '=')

/-- Lines with a name, a colon and no equals sign before the one that ends a bound. -/
inductive Bounds : List Char → Prop where
  | intro {name gap note after : List Char} {sign : Char} (hname : Identifier name)
      (hgap : Blanks gap) (hnote : '=' ∉ note) (hsign : sign ∈ ['!', '<', '>'])
      (hafter : after ≠ []) :
      Bounds (name ++ (gap ++ ':' :: (note ++ sign :: '=' :: after)))

theorem endsOperator_append {before : List Char} (hne : before ≠ []) (lead : List Char) :
    EndsOperator (lead ++ before) ↔ EndsOperator before := by
  rw [EndsOperator, List.getLast?_append_of_ne_nil _ hne, EndsOperator]

/-- A name and blanks end no operator. -/
theorem not_endsOperator (h : ∀ c ∈ cs, isNamePart c = true ∨ Text.isBlank c = true) :
    ¬EndsOperator cs := by
  rintro ⟨c, hlast, hop⟩
  have hsigns : ∀ c ∈ ['=', '!', '<', '>'], isNamePart c = false ∧ Text.isBlank c = false := by
    simp only [List.mem_cons, List.not_mem_nil, or_false, forall_eq_or_imp, forall_eq]
    decide
  have hkind := h c (List.mem_of_mem_getLast? hlast)
  simp [hsigns c hop] at hkind

theorem Identifier.isNamePart {name : List Char} (h : Identifier name) :
    ∀ c ∈ name, isNamePart c = true := by
  obtain ⟨hstart, hrest⟩ := h
  refine List.forall_mem_cons.mpr ⟨?_, hrest⟩
  simp only [isNameStart, Bool.or_eq_true, Bool.and_eq_true] at hstart
  simp only [Triage.isNamePart, Char.isAlphanum, Bool.or_eq_true, Bool.and_eq_true]
  exact hstart.imp_left fun ⟨hascii, halpha⟩ => ⟨hascii, .inl halpha⟩

theorem Identifier.not_endsOperator {name : List Char} (h : Identifier name) (hgap : Blanks gap) :
    ¬EndsOperator (name ++ gap) :=
  Triage.not_endsOperator fun c hc =>
    (List.mem_append.mp hc).imp (h.isNamePart c) (hgap c)

/-- Trimming keeps comparisons: a blank is no part of an operator. -/
theorem Comparing.stripBlanks (h : Comparing line) : Comparing (Text.stripBlanks line) := by
  obtain ⟨lead, trail, hlead, htrail, hline⟩ := Text.exists_trimmed line
  intro before after hsplit
  have hwhole := h (lead ++ before) (after ++ trail) (by rw [hline, hsplit]; simp)
  have hbefore : EndsOperator (lead ++ before) ↔ EndsOperator before := by
    cases before with
    | nil =>
        rw [List.append_nil]
        exact iff_of_false (not_endsOperator fun c hc => .inr (hlead c hc)) nofun
    | cons c before => exact endsOperator_append (List.cons_ne_nil c before) lead
  have hafter : (after ++ trail).head? ≠ some '=' ↔ after.head? ≠ some '=' := by
    cases after with
    | nil =>
        refine iff_of_true (fun hhead => ?_) nofun
        exact Blanks.no_equals htrail (List.mem_of_mem_head? hhead)
    | cons c after => rfl
  rw [← hbefore, hwhole, hafter]

theorem head?_behind {space rest : List Char} (hspace : Blanks space) (hc : c ≠ '=') :
    (space ++ c :: rest).head? ≠ some '=' := by
  obtain ⟨d, more, hd, hcons⟩ := hspace.append_cons hc rest
  simpa [hcons] using hd

/-- Among comparisons only a bound behind a name with a colon has the form of an assignment. -/
theorem Comparing.assigns_iff (h : Comparing line) : Assigns line ↔ Bounds line := by
  constructor
  · intro hassigns
    cases hassigns with
    | plain hname hgap hspace hc =>
        have hends := (h _ _ (List.append_assoc _ _ _).symm).mpr (head?_behind hspace hc)
        exact absurd hends (hname.not_endsOperator hgap)
    | @annotated name gap lead note space rest c hname hgap hlead hne hnote hspace hc =>
        have hends : EndsOperator note := by
          rw [← endsOperator_append hne (name ++ (gap ++ ':' :: lead))]
          exact (h _ (space ++ c :: rest) (by simp)).mpr (head?_behind hspace hc)
        obtain ⟨sign, hlast, hsign⟩ := hends
        obtain ⟨note, rfl⟩ := List.getLast?_eq_some_iff.mp hlast
        -- an annotation has no equals sign in it, so the operator is no `==`
        have hother : sign ∈ ['!', '<', '>'] := by
          refine (List.mem_cons.mp hsign).resolve_left fun hequals => hnote ?_
          exact List.mem_append_right _ (List.mem_singleton.mpr hequals.symm)
        have hbefore : '=' ∉ lead ++ note :=
          List.not_mem_append hlead.no_equals fun hmem => hnote (List.mem_append_left _ hmem)
        have hafter : space ++ c :: rest ≠ [] := by simp
        simpa using Bounds.intro hname hgap hbefore hother hafter
  · intro hbounds
    cases hbounds with
    | @intro name gap note after sign hname hgap hnote hsign hafter =>
        obtain ⟨c, rest, rfl⟩ := List.exists_cons_of_ne_nil hafter
        have hends : EndsOperator (note ++ [sign]) :=
          ⟨sign, by simp, List.mem_cons_of_mem _ hsign⟩
        have hc : c ≠ '=' := by
          rw [← endsOperator_append (by simp) (name ++ (gap ++ [':']))] at hends
          simpa using (h _ (c :: rest) (by simp)).mp hends
        have hnote' : '=' ∉ note ++ [sign] := by
          refine List.not_mem_append hnote fun hmem => ?_
          rw [← List.mem_singleton.mp hmem] at hsign
          exact absurd hsign (by decide)
        have hassigns : Assigns (name ++ (gap ++ ':' :: ([] ++ ((note ++ [sign]) ++ '=' ::
            ([] ++ c :: rest))))) :=
          .annotated hname hgap Blanks.nil (by simp) hnote' Blanks.nil hc
        simpa using hassigns

theorem comparing_of_single {before after : List Char} (hbefore : '=' ∉ before)
    (hafter : '=' ∉ after) (hends : EndsOperator before) : Comparing (before ++ '=' :: after) := by
  intro before' after' hsplit
  obtain ⟨rfl, -, rfl⟩ := (List.append_cons_inj_of_notMem hbefore hafter).mp hsplit
  exact iff_of_true hends fun hhead => hafter (List.mem_of_mem_head? hhead)

/-- A line of comparisons has no content exactly when it is blank, a comment, a delimiter or an
import, or when a name and a colon stand before a bound. -/
theorem comparing_discounted_iff (h : Comparing line) :
    isSubstantive line = false ↔
      Scaffold (Text.stripBlanks line) ∨ Bounds (Text.stripBlanks line) := by
  rw [isSubstantive_eq_false_iff, h.stripBlanks.assigns_iff]

theorem comparing_discounted_small :
    Comparing "  size : n != 0".toList ∧ Bounds (Text.stripBlanks "  size : n != 0".toList) ∧
      isSubstantive "  size : n != 0".toList = false := by
  have hcomparing : Comparing ("  size : n !".toList ++ '=' :: " 0".toList) :=
    comparing_of_single (by decide) (by decide) ⟨'!', rfl, by decide⟩
  have hbounds : Bounds ("size".toList ++ (" ".toList ++ ':' :: (" n ".toList ++ '!' :: '=' ::
      " 0".toList))) :=
    .intro ⟨by decide, List.all_eq_true.mp (by decide)⟩ (List.all_eq_true.mp (by decide))
      (by decide) (by decide) (by decide)
  exact ⟨hcomparing, hbounds, (comparing_discounted_iff hcomparing).mpr (.inr hbounds)⟩

/-- A bound behind a name with a colon is taken for an assignment with an annotation. -/
theorem bound_discounted :
    Comparing "Limit: at least n >= 1 holds".toList ∧
      ¬Scaffold (Text.stripBlanks "Limit: at least n >= 1 holds".toList) ∧
      isSubstantive "Limit: at least n >= 1 holds".toList = false := by
  have hcomparing : Comparing ("Limit: at least n >".toList ++ '=' :: " 1 holds".toList) :=
    comparing_of_single (by decide) (by decide) ⟨'>', rfl, by decide⟩
  exact ⟨hcomparing, by decide, by decide⟩

end Triage

end Scriptorium
