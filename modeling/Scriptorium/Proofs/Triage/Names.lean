import Mathlib.Data.List.DropRight
import Scriptorium.Settings.Basic
import Scriptorium.Proofs.Pattern.Parts
import Scriptorium.Proofs.Triage

/-! # Trivial names

The common patterns of trivial names, told without a search: by the last part of a name, which is
what follows its last dot, or by what a name ends in and what is before that. The rule of names
tells the first pattern whose shape a name has.
-/

namespace Scriptorium

namespace Triage

open Pattern (followed front closed Parted CharSet)

/-! ## Last parts -/

def lastPart (cs : List Char) : List Char := cs.rtakeWhile (· ≠ '.')

theorem lastPart_append {x y : List Char} (hx : Parted (.one '.') x) (hy : '.' ∉ y) :
    lastPart (x ++ y) = y := by
  have hkeep : ∀ c ∈ y.reverse, (decide (c ≠ '.')) = true := by
    intro c hc
    rw [decide_eq_true_eq]
    rintro rfl
    exact hy (List.mem_reverse.mp hc)
  have hstop : x.reverse.takeWhile (· ≠ '.') = [] := by
    rcases hx with rfl | ⟨c, hlast, hc⟩
    · rfl
    · obtain ⟨z, rfl⟩ := List.getLast?_eq_some_iff.mp hlast
      rw [Pattern.CharSet.mem_one_iff.mp hc]
      simp
  rw [lastPart, List.rtakeWhile, List.reverse_append, List.takeWhile_append_of_pos hkeep, hstop,
    List.append_nil, List.reverse_reverse]

theorem exists_lastPart (cs : List Char) :
    ∃ x, cs = x ++ lastPart cs ∧ Parted (.one '.') x := by
  refine ⟨cs.rdropWhile (· ≠ '.'), List.rdropWhile_append_rtakeWhile.symm, ?_⟩
  by_cases hnone : cs.rdropWhile (· ≠ '.') = []
  · exact .inl hnone
  · have hlast := List.rdropWhile_last_not _ cs hnone
    rw [decide_eq_true_eq, not_not] at hlast
    refine .inr ⟨'.', ?_, Pattern.CharSet.mem_one_iff.mpr rfl⟩
    rw [List.getLast?_eq_some_getLast hnone, hlast]

theorem exists_parted_iff {B : List Char → Prop} (hB : ∀ y, B y → '.' ∉ y) (cs : List Char) :
    (∃ x y, cs = x ++ y ∧ Parted (.one '.') x ∧ B y) ↔ B (lastPart cs) := by
  constructor
  · rintro ⟨x, y, rfl, hx, hy⟩
    rwa [lastPart_append hx (hB y hy)]
  · intro hlast
    obtain ⟨x, hcs, hx⟩ := exists_lastPart cs
    exact ⟨x, _, hcs, hx, hlast⟩

/-! ## Shapes -/

abbrev IsCapital (c : Char) : Prop := 'A' ≤ c ∧ c ≤ 'Z'

abbrev IsConstantPart (c : Char) : Prop := IsCapital c ∨ ('0' ≤ c ∧ c ≤ '9') ∨ c = '_'

def IsDunder (y : List Char) : Prop :=
  ∃ w, w ≠ [] ∧ (∀ c ∈ w, Text.isWord c = true) ∧ y = "__".toList ++ w ++ "__".toList

def IsInit (y : List Char) : Prop := y = "__init__".toList ∨ y = "__init__.py".toList

def IsConstant (y : List Char) : Prop :=
  ∃ c w, IsCapital c ∧ w ≠ [] ∧ (∀ d ∈ w, IsConstantPart d) ∧ y = c :: w

inductive NameShape where
  | dunder | initFile | constant | imports
  deriving Repr, DecidableEq

namespace NameShape

def all : List NameShape := [dunder, initFile, constant, imports]

def Fits : NameShape → List Char → Prop
  | dunder, cs => IsDunder (lastPart cs)
  | initFile, cs => ∃ x y, cs = x ++ y ∧
    (x = [] ∨ x.getLast? = some '.' ∨ x.getLast? = some '/') ∧ IsInit y
  | constant, cs => IsConstant (lastPart cs)
  | imports, cs => ∃ x y, cs = x ++ y ∧ y.map Text.foldChar = "imports".toList

def text : NameShape → String
  | dunder => "(^|\\.)__\\w+__$"
  | initFile => "(^|[./])__init__(\\.py)?$"
  | constant => "(^|\\.)[A-Z][A-Z0-9_]+$"
  | imports => "(?i)imports$"

theorem namePatterns_eq : Preset.namePatterns = all.map text := rfl

/-! ## Patterns of shapes -/

def capitals : CharSet := .union .none (.range 'A'.toNat 'Z'.toNat)

def constantParts : CharSet := .union (.union capitals (.range '0'.toNat '9'.toNat)) (.one '_')

def separators : CharSet := .union (.union .none (.one '.')) (.one '/')

theorem mem_capitals_iff {c : Char} : capitals.mem c = true ↔ IsCapital c := by
  simp [capitals, CharSet.mem, IsCapital, Char.le_def, UInt32.le_iff_toNat_le]

theorem mem_constantParts_iff {c : Char} : constantParts.mem c = true ↔ IsConstantPart c := by
  have hdigit : (CharSet.range '0'.toNat '9'.toNat).mem c = true ↔ '0' ≤ c ∧ c ≤ '9' := by
    simp [CharSet.mem, Char.le_def, UInt32.le_iff_toNat_le]
  rw [constantParts, CharSet.mem, Bool.or_eq_true, CharSet.mem, Bool.or_eq_true, mem_capitals_iff,
    hdigit, CharSet.mem_one_iff, or_assoc, IsConstantPart]

theorem parted_separators_iff {x : List Char} :
    Parted separators x ↔ x = [] ∨ x.getLast? = some '.' ∨ x.getLast? = some '/' := by
  have hmem : ∀ c, separators.mem c = true ↔ c = '.' ∨ c = '/' := by
    intro c
    simp [separators, CharSet.mem, ← CharSet.mem_one_iff]
  simp only [Parted, hmem]
  constructor
  · rintro (hnone | ⟨c, hlast, rfl | rfl⟩)
    · exact .inl hnone
    · exact .inr (.inl hlast)
    · exact .inr (.inr hlast)
  · rintro (hnone | hlast | hlast)
    · exact .inl hnone
    · exact .inr ⟨'.', hlast, .inl rfl⟩
    · exact .inr ⟨'/', hlast, .inr rfl⟩

def dunderBody : Pattern :=
  followed (.seq (followed (front (.one '.')) ("__".toList.map CharSet.one))
    (.repeated (.chars .word) 1 none)) ("__".toList.map CharSet.one)

def initBody : Pattern :=
  .seq (followed (front separators) ("__init__".toList.map CharSet.one))
    (.repeated (followed .empty (".py".toList.map CharSet.one)) 0 (some 1))

def constantBody : Pattern :=
  .seq (followed (front (.one '.')) [capitals]) (.repeated (.chars constantParts) 1 none)

def importsBody : Pattern := followed .empty ("imports".toList.map fun c => .folded (.one c))

def pattern : NameShape → Pattern
  | dunder => closed dunderBody
  | initFile => closed initBody
  | constant => closed constantBody
  | imports => closed importsBody

theorem ofText?_text (shape : NameShape) : Pattern.ofText? shape.text = some shape.pattern := by
  cases shape <;> decide +kernel

variable {b m : List Char}

theorem spans_dunderBody_iff : dunderBody.Spans b m [] ↔
    ∃ x y, m = x ++ y ∧ (front (.one '.')).Spans b x y ∧ IsDunder y := by
  rw [dunderBody, Pattern.spans_word_iff]
  constructor
  · rintro ⟨_, rfl, z, w, rfl, hz, hw⟩
    obtain ⟨x, rfl, hfront⟩ := Pattern.spans_word_iff.mp hz
    obtain ⟨hne, hall⟩ := Pattern.spans_some_iff.mp hw
    exact ⟨x, _, by simp, by simpa using hfront, w, hne, hall, rfl⟩
  · rintro ⟨x, _, rfl, hfront, w, hne, hall, rfl⟩
    refine ⟨x ++ "__".toList ++ w, by simp, x ++ "__".toList, w, rfl, ?_, ?_⟩
    · exact Pattern.spans_word_iff.mpr ⟨x, rfl, by simpa using hfront⟩
    · exact Pattern.spans_some_iff.mpr ⟨hne, hall⟩

theorem spans_initBody_iff : initBody.Spans b m [] ↔
    ∃ x y, m = x ++ y ∧ (front separators).Spans b x y ∧ IsInit y := by
  have hending : ∀ b' y, (Pattern.repeated (followed .empty (".py".toList.map CharSet.one)) 0
      (some 1)).Spans b' y [] ↔ y = [] ∨ y = ".py".toList := by
    intro b' y
    rw [Pattern.spans_optional_iff, Pattern.spans_word_iff]
    simp [Pattern.Spans]
  constructor
  · rintro ⟨z, y, rfl, hz, hy⟩
    obtain ⟨x, rfl, hfront⟩ := Pattern.spans_word_iff.mp hz
    refine ⟨x, _, List.append_assoc .., by simpa using hfront, ?_⟩
    rcases (hending _ _).mp hy with rfl | rfl
    · exact .inl rfl
    · exact .inr rfl
  · rintro ⟨x, _, rfl, hfront, rfl | rfl⟩
    · exact ⟨x ++ "__init__".toList, [], by simp,
        Pattern.spans_word_iff.mpr ⟨x, rfl, by simpa using hfront⟩, (hending _ _).mpr (.inl rfl)⟩
    · exact ⟨x ++ "__init__".toList, ".py".toList, by simp,
        Pattern.spans_word_iff.mpr ⟨x, rfl, by simpa using hfront⟩, (hending _ _).mpr (.inr rfl)⟩

theorem drawn_capitals_iff {y : List Char} :
    Pattern.Drawn [capitals] y ↔ ∃ c, IsCapital c ∧ y = [c] := by
  simp [Pattern.Drawn, List.forall₂_cons_left_iff, mem_capitals_iff]

theorem spans_constantBody_iff : constantBody.Spans b m [] ↔
    ∃ x y, m = x ++ y ∧ (front (.one '.')).Spans b x y ∧ IsConstant y := by
  constructor
  · rintro ⟨_, w, rfl, hz, hw⟩
    obtain ⟨x, _, rfl, hfront, hdrawn⟩ := Pattern.spans_followed_iff.mp hz
    obtain ⟨c, hc, rfl⟩ := drawn_capitals_iff.mp hdrawn
    obtain ⟨hne, hall⟩ := Pattern.spans_some_iff.mp hw
    refine ⟨x, c :: w, by simp, by simpa using hfront, c, w, hc, hne, ?_, rfl⟩
    exact fun d hd => mem_constantParts_iff.mp (hall d hd)
  · rintro ⟨x, _, rfl, hfront, c, w, hc, hne, hall, rfl⟩
    refine ⟨x ++ [c], w, by simp, ?_, ?_⟩
    · exact Pattern.spans_followed_iff.mpr
        ⟨x, [c], rfl, by simpa using hfront, drawn_capitals_iff.mpr ⟨c, hc, rfl⟩⟩
    · exact Pattern.spans_some_iff.mpr ⟨hne, fun d hd => mem_constantParts_iff.mpr (hall d hd)⟩

theorem spans_importsBody_iff :
    importsBody.Spans b m [] ↔ m.map Text.foldChar = "imports".toList := by
  have hletters : ∀ c ∈ "imports".toList, 'a' ≤ c ∧ c ≤ 'z' := by simp
  rw [importsBody, Pattern.spans_folded_iff hletters]
  constructor
  · rintro ⟨_, y, rfl, rfl, hy⟩
    exact hy
  · exact fun hm => ⟨[], m, rfl, rfl, hm⟩

theorem not_mem_of_isDunder {y : List Char} (h : IsDunder y) : '.' ∉ y := by
  obtain ⟨w, -, hall, rfl⟩ := h
  have hw : '.' ∉ w := fun hmem => absurd (hall _ hmem) (by decide)
  simp [hw]

theorem not_mem_of_isConstant {y : List Char} (h : IsConstant y) : '.' ∉ y := by
  obtain ⟨c, w, hc, -, hall, rfl⟩ := h
  have hparts : ∀ d ∈ c :: w, IsConstantPart d := List.forall_mem_cons.mpr ⟨.inl hc, hall⟩
  exact fun hmem => absurd (hparts _ hmem) (by decide)

/-- The pattern of a shape occurs in the names that have it. -/
theorem occursIn_iff {shape : NameShape} {name : String} :
    shape.pattern.occursIn name = true ↔ shape.Fits name.toList := by
  cases shape with
  | dunder =>
      rw [pattern, Pattern.occursIn_held_iff fun _ _ => spans_dunderBody_iff]
      exact exists_parted_iff (fun _ => not_mem_of_isDunder) _
  | initFile =>
      rw [pattern, Pattern.occursIn_held_iff fun _ _ => spans_initBody_iff]
      simp only [parted_separators_iff, Fits]
  | constant =>
      rw [pattern, Pattern.occursIn_held_iff fun _ _ => spans_constantBody_iff]
      exact exists_parted_iff (fun _ => not_mem_of_isConstant) _
  | imports =>
      rw [pattern, Pattern.occursIn_closed_iff]
      simp only [spans_importsBody_iff, Fits]

theorem matchesName_text (shape : NameShape) (name : String) :
    matchesName name shape.text = true ↔ shape.Fits name.toList := by
  rw [matchesName, ofText?_text, Option.any_some, occursIn_iff]

theorem readPatterns_namePatterns :
    readPatterns Preset.namePatterns = .ok (all.map fun shape => (shape.text, shape.pattern)) := by
  rw [namePatterns_eq, readPatterns, List.mapM_map]
  simp only [Function.comp_def, ofText?_text]
  rfl

end NameShape

/-! ## The rule of names -/

/-- The rule of names is the first of all, and no other rule tells a pattern. -/
theorem judge?_name_iff {r : Rules} {s : Sieve} {c : Component} {pattern : String}
    (h : Sieve.ofRules r = .ok s) :
    s.judge? c = some ⟨.reject, .trivialName pattern⟩ ↔
      IsFirst (fun text => matchesName c.name text = true) r.namePatterns pattern := by
  rw [Sieve.judge?_eq_some_iff h]
  constructor
  · rintro ⟨rule, -, hholds⟩
    cases hholds with
    | name hfirst => exact hfirst
  · intro hfirst
    have hname : Fires r c .name := ⟨_, .name hfirst⟩
    exact ⟨.name, isFirst_cons_iff.mpr (.inl ⟨rfl, hname⟩), .name hfirst⟩

theorem judge?_shape_iff {r : Rules} {s : Sieve} {c : Component} {pattern : String}
    (h : Sieve.ofRules r = .ok s) (hpatterns : r.namePatterns = Preset.namePatterns) :
    s.judge? c = some ⟨.reject, .trivialName pattern⟩ ↔
      ∃ shape, IsFirst (fun x : NameShape => x.Fits c.name.toList) NameShape.all shape ∧
        pattern = shape.text := by
  rw [judge?_name_iff h, hpatterns, NameShape.namePatterns_eq, isFirst_map_iff]
  simp only [NameShape.matchesName_text]

/-- With the common patterns a component is rejected for its name exactly if the name has one of
the four shapes, and the pattern that is told is that of the first shape it has. -/
theorem trivial_name_iff {r : Rules} (h : r.namePatterns = Preset.namePatterns) :
    ∃ s, Sieve.ofRules r = .ok s ∧ ∀ c : Component,
      ((∃ pattern, s.judge? c = some ⟨.reject, .trivialName pattern⟩) ↔
        ∃ shape : NameShape, shape.Fits c.name.toList) ∧
      ∀ pattern, s.judge? c = some ⟨.reject, .trivialName pattern⟩ ↔
        ∃ shape, IsFirst (fun x : NameShape => x.Fits c.name.toList) NameShape.all shape ∧
          pattern = shape.text := by
  obtain ⟨s, hs⟩ : ∃ s, Sieve.ofRules r = .ok s := by
    rw [Sieve.ofRules, h, NameShape.readPatterns_namePatterns]
    exact ⟨_, rfl⟩
  have hall : ∀ shape : NameShape, shape ∈ NameShape.all := by
    intro shape
    cases shape <;> decide
  refine ⟨s, hs, fun c => ⟨?_, fun _ => judge?_shape_iff hs h⟩⟩
  calc (∃ pattern, s.judge? c = some ⟨.reject, .trivialName pattern⟩)
      ↔ ∃ shape, IsFirst (fun x : NameShape => x.Fits c.name.toList) NameShape.all shape := by
        simp only [judge?_shape_iff hs h]
        exact ⟨fun ⟨_, shape, hfirst, _⟩ => ⟨shape, hfirst⟩,
          fun ⟨shape, hfirst⟩ => ⟨_, shape, hfirst, rfl⟩⟩
    _ ↔ ∃ shape ∈ NameShape.all, shape.Fits c.name.toList := exists_isFirst_iff
    _ ↔ ∃ shape : NameShape, shape.Fits c.name.toList := by simp only [hall, true_and]

theorem trivial_name_iff_small :
    ∃ s, Sieve.ofRules Preset.balanced.rules = .ok s ∧
      s.judge? ⟨"pkg.__main__", "", none⟩ = some ⟨.reject, .trivialName "(^|\\.)__\\w+__$"⟩ ∧
      ∃ pattern, s.judge? ⟨"pkg/Importſ", "", none⟩ = some ⟨.reject, .trivialName pattern⟩ := by
  have hpatterns : Preset.balanced.rules.namePatterns = Preset.namePatterns := rfl
  obtain ⟨s, hs, hall⟩ := trivial_name_iff hpatterns
  refine ⟨s, hs, ((hall _).2 _).mpr ⟨.dunder, ?_, rfl⟩, (hall _).1.mpr ⟨.imports, ?_⟩⟩
  · have hword : "main".toList.all Text.isWord = true := by decide +kernel
    have hlast : lastPart "pkg.__main__".toList = "__".toList ++ "main".toList ++ "__".toList := by
      decide +kernel
    exact isFirst_cons_iff.mpr (.inl ⟨rfl, _, by decide, List.all_eq_true.mp hword, hlast⟩)
  · exact ⟨"pkg/".toList, "Importſ".toList, by decide, by decide +kernel⟩

end Triage

end Scriptorium
