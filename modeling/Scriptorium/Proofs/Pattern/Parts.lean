import Mathlib.Data.List.Forall2
import Scriptorium.Proofs.Pattern.Search

/-! # Parts of patterns

What is spanned by the parts that patterns of names are made of: a word, letters of any case, a
repeated set, a part that may be missing, and the conditions at both ends of a text. A pattern that
is held at both ends occurs in the texts that are cut in one of a few ways.
-/

namespace Scriptorium

namespace Pattern

variable {P Q : Pattern} {set : CharSet} {sets : List CharSet} {w b m a : List Char} {c d : Char}

/-! ## Sets -/

theorem CharSet.mem_one_iff : (CharSet.one c).mem d = true ↔ d = c := by
  rw [CharSet.one, CharSet.mem, Bool.and_eq_true, decide_eq_true_eq, decide_eq_true_eq]
  constructor
  · rintro ⟨hfirst, hlast⟩
    exact Char.toNat_inj.mp (Nat.le_antisymm hlast hfirst)
  · rintro rfl
    exact ⟨Nat.le_refl _, Nat.le_refl _⟩

theorem preimage?_mem {r : Text.CaseRun} {n k : Nat} (horder : r.first ≤ r.last)
    (h : r.preimage? n = some k) : r.first ≤ k ∧ k ≤ r.last := by
  unfold Text.CaseRun.preimage? at h
  split at h
  next hrun =>
    obtain rfl := Option.some.inj h
    omega
  next => cases h

theorem eq_of_ofNat {k : Nat} (hc : 0 < c.toNat) (h : Char.ofNat k = c) : k = c.toNat := by
  by_cases hvalid : k.isValidChar
  · have hchar : Char.ofNat k = Char.ofNatAux k hvalid := dif_pos hvalid
    rw [← h, hchar]
    rfl
  · have hchar : Char.ofNat k = '\x00' := dif_neg hvalid
    rw [← h, hchar] at hc
    cases hc

/-- No run of the folding leads from a small ASCII letter. -/
theorem foldRuns_apart :
    ∀ r ∈ Text.foldRuns, r.first ≤ r.last ∧ (r.last < 0x61 ∨ 0x7A < r.first) := by
  decide +kernel

/-- A character agrees with a small ASCII letter but for its case exactly if it folds to it. -/
theorem CharSet.mem_folded_iff (hc : 'a' ≤ c ∧ c ≤ 'z') :
    (CharSet.folded (.one c)).mem d = true ↔ Text.foldChar d = c := by
  have hrange : 0x61 ≤ c.toNat ∧ c.toNat ≤ 0x7A := hc
  simp only [CharSet.mem, List.any_eq_true, CharSet.mem_one_iff, Text.foldClass]
  rw [exists_eq_right, List.mem_cons]
  refine ⟨fun h => (h.resolve_right fun hmem => ?_).symm, fun h => .inl h.symm⟩
  obtain ⟨k, hk, hchar⟩ := List.mem_map.mp hmem
  obtain ⟨r, hr, hpre⟩ := List.mem_filterMap.mp hk
  obtain ⟨horder, hapart⟩ := foldRuns_apart r hr
  have hrun := preimage?_mem horder hpre
  have hcode := eq_of_ofNat (by omega) hchar
  omega

/-! ## Sequences -/

def followed (P : Pattern) (sets : List CharSet) : Pattern :=
  sets.foldl (fun p s => .seq p (.chars s)) P

def Drawn (sets : List CharSet) (cs : List Char) : Prop :=
  List.Forall₂ (fun s c => CharSet.mem s c = true) sets cs

theorem drawn_one_iff {y : List Char} : Drawn (w.map CharSet.one) y ↔ w = y := by
  rw [Drawn, List.forall₂_map_left_iff, ← List.forall₂_eq_eq_eq]
  constructor
  · exact List.Forall₂.imp fun _ _ h => (CharSet.mem_one_iff.mp h).symm
  · exact List.Forall₂.imp fun _ _ h => CharSet.mem_one_iff.mpr h.symm

theorem drawn_folded_iff {y : List Char} (hw : ∀ c ∈ w, 'a' ≤ c ∧ c ≤ 'z') :
    Drawn (w.map fun c => .folded (.one c)) y ↔ y.map Text.foldChar = w := by
  rw [Drawn, List.forall₂_map_left_iff]
  induction w generalizing y with
  | nil => simp [List.forall₂_nil_left_iff]
  | cons c w ih =>
      obtain ⟨hc, hrest⟩ := List.forall_mem_cons.mp hw
      simp only [List.forall₂_cons_left_iff, ih hrest, CharSet.mem_folded_iff hc,
        List.map_eq_cons_iff]
      constructor
      · rintro ⟨d, y, hd, hy, rfl⟩
        exact ⟨d, y, rfl, hd, hy⟩
      · rintro ⟨d, y, rfl, hd, hy⟩
        exact ⟨d, y, hd, hy, rfl⟩

theorem spans_followed_iff : (followed P sets).Spans b m a ↔
    ∃ x y, m = x ++ y ∧ P.Spans b x (y ++ a) ∧ Drawn sets y := by
  induction sets generalizing P with
  | nil => simp [followed, Drawn]
  | cons s sets ih =>
      have hfirst : followed P (s :: sets) = followed (.seq P (.chars s)) sets := rfl
      rw [hfirst, ih]
      constructor
      · rintro ⟨_, y, rfl, ⟨x, _, rfl, hP, c, rfl, hc⟩, hy⟩
        exact ⟨x, c :: y, by simp, hP, .cons hc hy⟩
      · rintro ⟨x, _, rfl, hP, hy⟩
        cases hy with
        | @cons _ c _ y hc hy =>
            exact ⟨x ++ [c], y, by simp, ⟨x, [c], rfl, hP, c, rfl, hc⟩, hy⟩

theorem spans_word_iff : (followed P (w.map CharSet.one)).Spans b m a ↔
    ∃ x, m = x ++ w ∧ P.Spans b x (w ++ a) := by
  rw [spans_followed_iff]
  simp only [drawn_one_iff]
  constructor
  · rintro ⟨x, y, rfl, hP, rfl⟩
    exact ⟨x, rfl, hP⟩
  · rintro ⟨x, rfl, hP⟩
    exact ⟨x, w, rfl, hP, rfl⟩

theorem spans_folded_iff (hw : ∀ c ∈ w, 'a' ≤ c ∧ c ≤ 'z') :
    (followed P (w.map fun c => .folded (.one c))).Spans b m a ↔
      ∃ x y, m = x ++ y ∧ P.Spans b x (y ++ a) ∧ y.map Text.foldChar = w := by
  rw [spans_followed_iff]
  simp only [drawn_folded_iff hw]

/-! ## Repetitions -/

theorem times_chars_iff {n : Nat} : Times (Pattern.chars set).Spans n b m a ↔
    m.length = n ∧ ∀ c ∈ m, set.mem c = true := by
  induction n generalizing b m with
  | zero =>
      constructor
      · rintro rfl
        simp
      · rintro ⟨hlength, -⟩
        exact List.length_eq_zero_iff.mp hlength
  | succ n ih =>
      constructor
      · rintro ⟨_, y, rfl, ⟨c, rfl, hc⟩, hrest⟩
        obtain ⟨hlength, hall⟩ := ih.mp hrest
        refine ⟨by simp [hlength], List.forall_mem_cons.mpr ⟨hc, hall⟩⟩
      · rintro ⟨hlength, hall⟩
        obtain ⟨c, y, rfl⟩ := List.exists_cons_of_length_eq_add_one hlength
        obtain ⟨hc, hrest⟩ := List.forall_mem_cons.mp hall
        exact ⟨[c], y, rfl, ⟨c, rfl, hc⟩, ih.mpr ⟨Nat.succ.inj hlength, hrest⟩⟩

theorem spans_some_iff : (Pattern.repeated (.chars set) 1 none).Spans b m a ↔
    m ≠ [] ∧ ∀ c ∈ m, set.mem c = true := by
  constructor
  · rintro ⟨n, hn, -, htimes⟩
    obtain ⟨rfl, hall⟩ := times_chars_iff.mp htimes
    exact ⟨List.ne_nil_of_length_pos hn, hall⟩
  · rintro ⟨hne, hall⟩
    exact ⟨m.length, List.length_pos_of_ne_nil hne, nofun, times_chars_iff.mpr ⟨rfl, hall⟩⟩

theorem spans_optional_iff :
    (Pattern.repeated P 0 (some 1)).Spans b m a ↔ m = [] ∨ P.Spans b m a := by
  constructor
  · rintro ⟨n, -, hn, htimes⟩
    have hfew : n ≤ 1 := hn 1 rfl
    obtain rfl | rfl : n = 0 ∨ n = 1 := by omega
    · exact .inl htimes
    · exact .inr (times_one.mp htimes)
  · rintro (rfl | hspan)
    · exact ⟨0, Nat.le_refl 0, fun k _ => Nat.zero_le _, rfl⟩
    · exact ⟨1, Nat.zero_le 1, fun k hk => by simp_all, times_one.mpr hspan⟩

/-! ## Both ends -/

def front (set : CharSet) : Pattern :=
  .seq .empty (.alt (.seq .empty (.look .textStart)) (.seq .empty (.chars set)))

def closed (P : Pattern) : Pattern := .seq P (.look .textEnd)

theorem spans_front_iff : (front set).Spans b m a ↔
    b = [] ∧ m = [] ∨ ∃ c, m = [c] ∧ set.mem c = true := by
  simp only [front, Spans, Look.holds]
  constructor
  · rintro ⟨_, _, rfl, rfl, ⟨_, _, rfl, rfl, rfl, hstart⟩ | ⟨_, _, rfl, rfl, c, rfl, hc⟩⟩
    · exact .inl ⟨by simpa using hstart, rfl⟩
    · exact .inr ⟨c, rfl, hc⟩
  · rintro (⟨rfl, rfl⟩ | ⟨c, rfl, hc⟩)
    · exact ⟨[], [], rfl, rfl, .inl ⟨[], [], rfl, rfl, rfl, rfl⟩⟩
    · exact ⟨[], [c], rfl, rfl, .inr ⟨[], [c], rfl, rfl, c, rfl, hc⟩⟩

theorem spans_closed_iff : (closed P).Spans b m a ↔ a = [] ∧ P.Spans b m [] := by
  simp only [closed, Spans, Look.holds]
  constructor
  · rintro ⟨x, _, rfl, hspan, rfl, hend⟩
    obtain rfl : a = [] := by simpa using hend
    exact ⟨rfl, by simpa using hspan⟩
  · rintro ⟨rfl, hspan⟩
    exact ⟨m, [], by simp, by simpa using hspan, rfl, rfl⟩

theorem occursIn_closed_iff {s : String} :
    (closed P).occursIn s = true ↔ ∃ x m, s.toList = x ++ m ∧ P.Spans x.reverse m [] := by
  rw [occursIn_iff]
  simp only [spans_closed_iff]
  constructor
  · rintro ⟨x, m, _, hs, rfl, hspan⟩
    exact ⟨x, m, by simpa using hs, hspan⟩
  · rintro ⟨x, m, hs, hspan⟩
    exact ⟨x, m, [], by simpa using hs, rfl, hspan⟩

/-- What is before a part of a text is nothing, or ends in a character of a set. -/
def Parted (set : CharSet) (x : List Char) : Prop :=
  x = [] ∨ ∃ c, x.getLast? = some c ∧ set.mem c = true

/-- A pattern that is held at both ends occurs where a text ends in what is between them, and the
rest before it is parted from that. -/
theorem occursIn_held_iff {s : String} {B : List Char → Prop}
    (hP : ∀ b m, P.Spans b m [] ↔ ∃ x y, m = x ++ y ∧ (front set).Spans b x y ∧ B y) :
    (closed P).occursIn s = true ↔ ∃ x y, s.toList = x ++ y ∧ Parted set x ∧ B y := by
  rw [occursIn_closed_iff]
  simp only [hP, spans_front_iff]
  constructor
  · rintro ⟨z, _, hs, x, y, rfl, ⟨hz, rfl⟩ | ⟨c, rfl, hc⟩, hB⟩
    · exact ⟨z, y, hs, .inl (List.reverse_eq_nil_iff.mp hz), hB⟩
    · exact ⟨z ++ [c], y, by simpa using hs, .inr ⟨c, by simp, hc⟩, hB⟩
  · rintro ⟨x, y, hs, rfl | ⟨c, hlast, hc⟩, hB⟩
    · exact ⟨[], y, hs, [], y, rfl, .inl ⟨rfl, rfl⟩, hB⟩
    · obtain ⟨z, rfl⟩ := List.getLast?_eq_some_iff.mp hlast
      exact ⟨z, c :: y, by simpa using hs, [c], y, rfl, .inr ⟨c, rfl, hc⟩, hB⟩

end Pattern

end Scriptorium
