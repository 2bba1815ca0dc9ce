import Mathlib.Data.List.Basic
import Scriptorium.Pattern.Search

/-! # What a pattern spans

What a pattern spans is told part by part, by what lies before and after the span. The places where
a search lets a pattern end are those that a span leads to. A repetition may go round without
progress, but such rounds can be left out, so as many rounds as there are characters are enough.
-/

namespace Scriptorium

namespace Pattern

def Times (R : List Char → List Char → List Char → Prop) :
    Nat → List Char → List Char → List Char → Prop
  | 0, _, m, _ => m = []
  | n + 1, b, m, a => ∃ x y, m = x ++ y ∧ R b x (y ++ a) ∧ Times R n (x.reverse ++ b) y a

/-- Whether a pattern spans a part of a text, given what is before it, the nearest first, and what
is after it. -/
def Spans : Pattern → List Char → List Char → List Char → Prop
  | .empty, _, m, _ => m = []
  | .chars set, _, m, _ => ∃ c, m = [c] ∧ set.mem c = true
  | .look l, b, m, a => m = [] ∧ l.holds ⟨b.length, b, a⟩ = true
  | .seq p q, b, m, a => ∃ x y, m = x ++ y ∧ p.Spans b x (y ++ a) ∧ q.Spans (x.reverse ++ b) y a
  | .alt p q, b, m, a => p.Spans b m a ∨ q.Spans b m a
  | .repeated p least most, b, m, a =>
    ∃ n, least ≤ n ∧ (∀ k, most = some k → n ≤ max least k) ∧ Times p.Spans n b m a

section Rounds

variable {R : List Char → List Char → List Char → Prop} {b m a : List Char} {i j : Nat}

theorem times_one : Times R 1 b m a ↔ R b m a := by
  constructor
  · rintro ⟨x, y, rfl, hR, rfl⟩
    simpa using hR
  · intro hR
    exact ⟨m, [], by simp, by simpa using hR, rfl⟩

theorem times_add : Times R (i + j) b m a ↔
    ∃ x y, m = x ++ y ∧ Times R i b x (y ++ a) ∧ Times R j (x.reverse ++ b) y a := by
  induction i generalizing b m with
  | zero =>
      rw [Nat.zero_add]
      constructor
      · intro h
        exact ⟨[], m, rfl, rfl, h⟩
      · rintro ⟨x, y, rfl, rfl, h⟩
        exact h
  | succ i ih =>
      rw [Nat.succ_add]
      constructor
      · rintro ⟨x, z, rfl, hR, htimes⟩
        obtain ⟨y, z, rfl, hy, hz⟩ := ih.mp htimes
        refine ⟨x ++ y, z, by simp, ⟨x, y, rfl, by simpa using hR, hy⟩, by simpa using hz⟩
      · rintro ⟨w, z, rfl, ⟨x, y, rfl, hR, hy⟩, hz⟩
        refine ⟨x, y ++ z, by simp, by simpa using hR, ih.mpr ⟨y, z, rfl, hy, by simpa using hz⟩⟩

/-- Rounds without progress can be left out. -/
theorem Times.shorten (h : Times R j b m a) : ∃ i, i ≤ j ∧ i ≤ m.length ∧ Times R i b m a := by
  induction j generalizing b m with
  | zero => exact ⟨0, Nat.le_refl 0, Nat.zero_le _, h⟩
  | succ j ih =>
      obtain ⟨x, y, rfl, hR, hrest⟩ := h
      obtain ⟨i, hi, hlength, hrest⟩ := ih hrest
      cases x with
      | nil => exact ⟨i, by omega, hlength, hrest⟩
      | cons c x =>
          refine ⟨i + 1, by omega, ?_, c :: x, y, rfl, hR, hrest⟩
          rw [List.length_append, List.length_cons]
          omega

end Rounds

/-! ## Places -/

/-- A place lies behind another, with a span between them. -/
structure Place.Past (p : Place) (m : List Char) (q : Place) : Prop where
  after : p.after = m ++ q.after
  before : q.before = m.reverse ++ p.before
  pos : q.pos = p.pos + m.length

namespace Place

variable {p q r : Place} {x y m : List Char}

theorem Past.refl (p : Place) : p.Past [] p := ⟨rfl, rfl, rfl⟩

theorem past_nil_iff : p.Past [] q ↔ q = p := by
  constructor
  · rintro ⟨hafter, hbefore, hpos⟩
    cases p
    cases q
    simp_all
  · rintro rfl
    exact Past.refl q

theorem Past.trans (hx : p.Past x q) (hy : q.Past y r) : p.Past (x ++ y) r where
  after := by rw [hx.after, hy.after, List.append_assoc]
  before := by rw [hy.before, hx.before, List.reverse_append, List.append_assoc]
  pos := by rw [hy.pos, hx.pos, List.length_append, Nat.add_assoc]

theorem Past.cut (h : p.Past (x ++ y) r) : ∃ q, p.Past x q ∧ q.Past y r := by
  refine ⟨⟨p.pos + x.length, x.reverse ++ p.before, y ++ r.after⟩, ⟨?_, rfl, rfl⟩, rfl, ?_, ?_⟩
  · rw [h.after, List.append_assoc]
  · rw [h.before, List.reverse_append, List.append_assoc]
  · rw [h.pos, List.length_append, Nat.add_assoc]

/-- Behind one place there is one place at each position. -/
theorem Past.eq_of_pos (hx : p.Past x q) (hy : p.Past y r) (h : q.pos = r.pos) : q = r := by
  have hlength : x.length = y.length := by
    have hpos := hx.pos.symm.trans (h.trans hy.pos)
    omega
  obtain ⟨rfl, hafter⟩ := List.append_inj (hx.after.symm.trans hy.after) hlength
  have hbefore : q.before = r.before := hx.before.trans hy.before.symm
  cases q
  cases r
  simp_all

/-- Places behind a given one, among which the position tells a place. -/
def Ahead (p : Place) (l : List Place) : Prop := ∀ q ∈ l, ∃ m, p.Past m q

theorem ahead_nil (p : Place) : p.Ahead [] := fun _ h => absurd h List.not_mem_nil

theorem Ahead.cons {l : List Place} (hl : p.Ahead l) (h : p.Past m q) : p.Ahead (q :: l) := by
  intro r hr
  rcases List.mem_cons.mp hr with rfl | hr
  · exact ⟨m, h⟩
  · exact hl r hr

theorem Ahead.append {l l' : List Place} (h : p.Ahead l) (h' : p.Ahead l') : p.Ahead (l ++ l') := by
  intro q hq
  rcases List.mem_append.mp hq with hl | hl
  · exact h q hl
  · exact h' q hl

end Place

/-! ## Links -/

def Links (R : List Char → List Char → List Char → Prop) (p q : Place) : Prop :=
  ∃ m, p.Past m q ∧ R p.before m q.after

section Links

variable {R S : List Char → List Char → List Char → Prop} {p q r : Place} {i j : Nat}

theorem Links.past (h : Links R p q) : ∃ m, p.Past m q := by
  obtain ⟨m, hpast, -⟩ := h
  exact ⟨m, hpast⟩

theorem links_times_zero_iff : Links (Times R 0) p q ↔ q = p := by
  constructor
  · rintro ⟨m, hpast, rfl⟩
    exact Place.past_nil_iff.mp hpast
  · rintro rfl
    exact ⟨[], Place.Past.refl q, rfl⟩

/-- Spans one after the other lead to a place by way of one between them. -/
theorem exists_links_iff : (∃ r, Links R p r ∧ Links S r q) ↔
    Links (fun b m a => ∃ x y, m = x ++ y ∧ R b x (y ++ a) ∧ S (x.reverse ++ b) y a) p q := by
  constructor
  · rintro ⟨r, ⟨x, hx, hR⟩, y, hy, hS⟩
    refine ⟨x ++ y, hx.trans hy, x, y, rfl, ?_, ?_⟩
    · rwa [← hy.after]
    · rwa [← hx.before]
  · rintro ⟨m, hpast, x, y, rfl, hR, hS⟩
    obtain ⟨r, hx, hy⟩ := hpast.cut
    refine ⟨r, ⟨x, hx, ?_⟩, y, hy, ?_⟩
    · rwa [hy.after]
    · rwa [hx.before]

theorem links_chars_iff {set : CharSet} : Links (Pattern.chars set).Spans p q ↔
    ∃ c r, p.after = c :: r ∧ set.mem c = true ∧ q = ⟨p.pos + 1, c :: p.before, r⟩ := by
  constructor
  · rintro ⟨m, ⟨hafter, hbefore, hpos⟩, c, rfl, hc⟩
    cases q
    exact ⟨c, _, hafter, hc, by simp_all⟩
  · rintro ⟨c, r, hafter, hc, rfl⟩
    exact ⟨[c], ⟨hafter, rfl, rfl⟩, c, rfl, hc⟩

theorem Look.holds_eq (l : Look) (p : Place) :
    l.holds ⟨p.before.length, p.before, p.after⟩ = l.holds p := by
  cases l <;> rfl

theorem links_look_iff {l : Look} : Links (Pattern.look l).Spans p q ↔ l.holds p = true ∧ q = p := by
  constructor
  · rintro ⟨m, hpast, rfl, hl⟩
    obtain rfl := Place.past_nil_iff.mp hpast
    exact ⟨(l.holds_eq q).symm.trans hl, rfl⟩
  · rintro ⟨hl, rfl⟩
    exact ⟨[], Place.Past.refl q, rfl, (l.holds_eq q).trans hl⟩

theorem links_alt_iff {a b : Pattern} :
    Links (Pattern.alt a b).Spans p q ↔ Links a.Spans p q ∨ Links b.Spans p q := by
  constructor
  · rintro ⟨m, hpast, hspan | hspan⟩
    · exact .inl ⟨m, hpast, hspan⟩
    · exact .inr ⟨m, hpast, hspan⟩
  · rintro (⟨m, hpast, hspan⟩ | ⟨m, hpast, hspan⟩)
    · exact ⟨m, hpast, .inl hspan⟩
    · exact ⟨m, hpast, .inr hspan⟩

theorem links_seq_iff {a b : Pattern} :
    Links (Pattern.seq a b).Spans p q ↔ ∃ r, Links a.Spans p r ∧ Links b.Spans r q :=
  exists_links_iff.symm

theorem links_times_succ_iff :
    Links (Times R (j + 1)) p q ↔ ∃ r, Links R p r ∧ Links (Times R j) r q :=
  exists_links_iff.symm

theorem links_times_add_iff :
    Links (Times R (i + j)) p q ↔ ∃ r, Links (Times R i) p r ∧ Links (Times R j) r q := by
  have hadd : Times R (i + j) = fun b m a =>
      ∃ x y, m = x ++ y ∧ Times R i b x (y ++ a) ∧ Times R j (x.reverse ++ b) y a := by
    funext b m a
    exact propext times_add
  rw [hadd, exists_links_iff]

end Links

/-! ## Adding places -/

section Adding

variable {p q : Place} {l seen frontier ps : List Place}
  {R : List Char → List Char → List Char → Prop} {step : Place → List Place} {n k : Nat}

theorem mem_addNew (hseen : p.Ahead seen) (hl : p.Ahead l) :
    q ∈ addNew seen l ↔ q ∈ l ∧ q ∉ seen := by
  induction l generalizing seen with
  | nil => simp [addNew]
  | cons x r ih =>
      obtain ⟨m, hx⟩ := hl x List.mem_cons_self
      have hr : p.Ahead r := fun y hy => hl y (List.mem_cons_of_mem x hy)
      have hknown : seen.any (·.pos == x.pos) = true ↔ x ∈ seen := by
        rw [List.any_eq_true]
        constructor
        · rintro ⟨y, hy, hpos⟩
          obtain ⟨m', hy'⟩ := hseen y hy
          rwa [← hy'.eq_of_pos hx (by simpa using hpos)]
        · exact fun hmem => ⟨x, hmem, by simp⟩
      by_cases hmem : x ∈ seen
      · rw [addNew, if_pos (hknown.mpr hmem), ih hseen hr, List.mem_cons]
        constructor
        · exact fun h => ⟨.inr h.1, h.2⟩
        · rintro ⟨rfl | hq, hnew⟩
          · exact absurd hmem hnew
          · exact ⟨hq, hnew⟩
      · rw [addNew, if_neg (mt hknown.mp hmem), List.mem_cons,
          ih (hseen.cons hx) hr, List.mem_cons, List.mem_cons, not_or]
        constructor
        · rintro (rfl | ⟨hq, -, hnew⟩)
          · exact ⟨.inl rfl, hmem⟩
          · exact ⟨.inr hq, hnew⟩
        · rintro ⟨rfl | hq, hnew⟩
          · exact .inl rfl
          · by_cases hsame : q = x
            · exact .inl hsame
            · exact .inr ⟨hq, hsame, hnew⟩

theorem mem_addNew_nil (hl : p.Ahead l) : q ∈ addNew [] l ↔ q ∈ l := by
  rw [mem_addNew (Place.ahead_nil p) hl]
  simp

theorem ahead_flatMap (hps : p.Ahead ps) (hstep : ∀ x ∈ ps, ∀ y, y ∈ step x ↔ Links R x y) :
    p.Ahead (ps.flatMap step) := by
  intro y hy
  obtain ⟨x, hx, hxy⟩ := List.mem_flatMap.mp hy
  obtain ⟨m, hpast⟩ := ((hstep x hx y).mp hxy).past
  obtain ⟨m', hpast'⟩ := hps x hx
  exact ⟨m' ++ m, hpast'.trans hpast⟩

/-- What is closed under single rounds is closed under all. -/
theorem mem_of_links_times {x : Place} (hclosed : ∀ x ∈ seen, ∀ y, Links R x y → y ∈ seen)
    (hx : x ∈ seen) (h : Links (Times R n) x q) : q ∈ seen := by
  induction n generalizing x with
  | zero =>
      obtain rfl := links_times_zero_iff.mp h
      exact hx
  | succ n ih =>
      obtain ⟨y, hxy, hyq⟩ := links_times_succ_iff.mp h
      exact ih (hclosed x hx y hxy) hyq

variable (hstep : ∀ x y, y ∈ step x ↔ Links R x y)

include hstep

theorem mem_rounds (hps : p.Ahead ps) :
    q ∈ rounds step n ps ↔ ∃ x ∈ ps, Links (Times R n) x q := by
  induction n generalizing ps with
  | zero => simp [rounds, links_times_zero_iff]
  | succ n ih =>
      have hahead : p.Ahead (ps.flatMap step) := ahead_flatMap hps fun x _ => hstep x
      have hnext : p.Ahead (addNew [] (ps.flatMap step)) := fun y hy =>
        hahead y ((mem_addNew_nil hahead).mp hy)
      rw [rounds, ih hnext]
      simp only [mem_addNew_nil hahead, List.mem_flatMap, hstep, links_times_succ_iff]
      constructor
      · rintro ⟨y, ⟨x, hx, hxy⟩, hyq⟩
        exact ⟨x, hx, y, hxy, hyq⟩
      · rintro ⟨x, hx, y, hxy, hyq⟩
        exact ⟨y, ⟨x, hx, hxy⟩, hyq⟩

/-- Rounds from a frontier find what so many rounds lead to, where all places seen behind the
frontier have been gone on from. -/
theorem mem_closure (hseen : p.Ahead seen) (hfrontier : ∀ x ∈ frontier, x ∈ seen)
    (hclosed : ∀ x ∈ seen, x ∉ frontier → ∀ y, Links R x y → y ∈ seen) :
    q ∈ closure step k frontier seen ↔ ∃ x ∈ seen, ∃ j ≤ k, Links (Times R j) x q := by
  induction k generalizing frontier seen with
  | zero =>
      rw [closure]
      constructor
      · exact fun hq => ⟨q, hq, 0, Nat.le_refl 0, links_times_zero_iff.mpr rfl⟩
      · rintro ⟨x, hx, j, hj, hxq⟩
        obtain rfl : j = 0 := Nat.le_zero.mp hj
        obtain rfl := links_times_zero_iff.mp hxq
        exact hx
  | succ k ih =>
      have hahead : p.Ahead (frontier.flatMap step) :=
        ahead_flatMap (fun x hx => hseen x (hfrontier x hx)) fun x _ => hstep x
      have hnew : ∀ y, y ∈ addNew seen (frontier.flatMap step) ↔
          (∃ x ∈ frontier, Links R x y) ∧ y ∉ seen := by
        intro y
        rw [mem_addNew hseen hahead, List.mem_flatMap]
        simp only [hstep]
      -- From a place seen, one round leads to a place seen or to a new one.
      have hround : ∀ x ∈ seen, ∀ y, Links R x y →
          y ∈ seen ∨ y ∈ addNew seen (frontier.flatMap step) := by
        intro x hx y hxy
        by_cases hmem : y ∈ seen
        · exact .inl hmem
        · refine .inr ((hnew y).mpr ⟨⟨x, ?_, hxy⟩, hmem⟩)
          by_contra hbehind
          exact hmem (hclosed x hx hbehind y hxy)
      rw [closure]
      cases hadded : addNew seen (frontier.flatMap step) with
      | nil =>
          simp only [hadded, List.not_mem_nil, or_false] at hround
          constructor
          · exact fun hq => ⟨q, hq, 0, Nat.zero_le _, links_times_zero_iff.mpr rfl⟩
          · rintro ⟨x, hx, j, -, hxq⟩
            exact mem_of_links_times hround hx hxq
      | cons z new =>
          rw [hadded] at hnew hround
          dsimp only
          have hnewAhead : p.Ahead (z :: new) := by
            intro y hy
            rw [← hadded] at hy
            exact hahead y ((mem_addNew hseen hahead).mp hy).1
          rw [ih (hseen.append hnewAhead) (fun x hx => List.mem_append_right seen hx)]
          · constructor
            · rintro ⟨y, hy, j, hj, hyq⟩
              rcases List.mem_append.mp hy with hy | hy
              · exact ⟨y, hy, j, by omega, hyq⟩
              · obtain ⟨⟨x, hx, hxy⟩, -⟩ := (hnew y).mp hy
                exact ⟨x, hfrontier x hx, j + 1, by omega, links_times_succ_iff.mpr ⟨y, hxy, hyq⟩⟩
            · rintro ⟨x, hx, j, hj, hxq⟩
              cases j with
              | zero => exact ⟨x, List.mem_append_left _ hx, 0, Nat.zero_le _, hxq⟩
              | succ j =>
                  obtain ⟨y, hxy, hyq⟩ := links_times_succ_iff.mp hxq
                  exact ⟨y, List.mem_append.mpr (hround x hx y hxy), j, by omega, hyq⟩
          · intro x hx hbehind y hxy
            have hold : x ∈ seen := (List.mem_append.mp hx).resolve_right hbehind
            exact List.mem_append.mpr (hround x hold y hxy)

end Adding

/-! ## Where a pattern ends -/

/-- How often a repetition goes round beyond its least number, where there is so much room. -/
def extraRounds (least : Nat) (most : Option Nat) (room : Nat) : Nat :=
  match most with
  | none => room
  | some m => min (m - least) room

theorem ends_repeated (a : Pattern) (least : Nat) (most : Option Nat) (p : Place) :
    ends (.repeated a least most) p =
      closure (ends a) (extraRounds least most p.after.length)
        (rounds (ends a) least [p]) (rounds (ends a) least [p]) := by
  cases most <;> rfl

/-- A repetition need not go round more often than there are characters. -/
theorem links_repeated_iff {a : Pattern} {least : Nat} {most : Option Nat} {p q : Place} :
    Links (Pattern.repeated a least most).Spans p q ↔
      ∃ r, Links (Times a.Spans least) p r ∧
        ∃ j ≤ extraRounds least most p.after.length, Links (Times a.Spans j) r q := by
  constructor
  · rintro ⟨m, hpast, n, hleast, hmost, htimes⟩
    obtain ⟨j, rfl⟩ := Nat.exists_eq_add_of_le hleast
    obtain ⟨r, hpr, y, hry, hy⟩ := links_times_add_iff.mp ⟨m, hpast, htimes⟩
    obtain ⟨i, hi, hlength, hshort⟩ := hy.shorten
    refine ⟨r, hpr, i, ?_, y, hry, hshort⟩
    obtain ⟨x, hx, -⟩ := hpr
    have hroom : i ≤ p.after.length := by
      rw [hx.after, hry.after, List.length_append, List.length_append]
      omega
    cases most with
    | none => exact hroom
    | some k =>
        have hk := hmost k rfl
        exact Nat.le_min.mpr ⟨by omega, hroom⟩
  · rintro ⟨r, hpr, j, hj, hrq⟩
    obtain ⟨m, hpast, htimes⟩ := links_times_add_iff.mpr ⟨r, hpr, hrq⟩
    refine ⟨m, hpast, least + j, by omega, ?_, htimes⟩
    rintro k rfl
    have hk : j ≤ k - least := Nat.le_trans hj (Nat.min_le_left _ _)
    omega

/-- A search finds the places that spans lead to. -/
theorem mem_ends_iff {pat : Pattern} {p q : Place} : q ∈ pat.ends p ↔ Links pat.Spans p q := by
  induction pat generalizing p q with
  | empty => exact List.mem_singleton.trans (links_times_zero_iff (R := Pattern.empty.Spans)).symm
  | chars set =>
      rw [ends, links_chars_iff]
      cases hafter : p.after with
      | nil => simp
      | cons c r =>
          by_cases hc : set.mem c = true
          · simp [hc]
          · simp [hc]
  | look l =>
      rw [ends, links_look_iff]
      by_cases hl : l.holds p = true
      · simp [hl]
      · simp [hl]
  | seq a b iha ihb =>
      have hstart : p.Ahead (ends a p) := fun r hr => (iha.mp hr).past
      rw [ends, mem_addNew_nil (ahead_flatMap hstart fun r _ _ => ihb), List.mem_flatMap,
        links_seq_iff]
      simp only [iha, ihb]
  | alt a b iha ihb =>
      have ha : p.Ahead (ends a p) := fun r hr => (iha.mp hr).past
      have hb : p.Ahead (ends b p) := fun r hr => (ihb.mp hr).past
      have hboth : p.Ahead (ends a p ++ ends b p) := ha.append hb
      rw [ends, mem_addNew_nil hboth, List.mem_append, iha, ihb, links_alt_iff]
  | repeated a least most ih =>
      have hstep : ∀ x y, y ∈ ends a x ↔ Links a.Spans x y := fun _ _ => ih
      have hself : p.Ahead [p] := (Place.ahead_nil p).cons (Place.Past.refl p)
      have hstart : ∀ r, r ∈ rounds (ends a) least [p] ↔ Links (Times a.Spans least) p r := by
        intro r
        rw [mem_rounds hstep hself]
        simp
      have hahead : p.Ahead (rounds (ends a) least [p]) := fun r hr => ((hstart r).mp hr).past
      rw [ends_repeated, links_repeated_iff,
        mem_closure hstep hahead (fun _ hx => hx) fun _ hx hno => absurd hx hno]
      simp only [hstart]

/-! ## Searching -/

theorem isEmpty_ends_iff {pat : Pattern} {p : Place} :
    (!(pat.ends p).isEmpty) = true ↔ ∃ m a, p.after = m ++ a ∧ pat.Spans p.before m a := by
  rw [Bool.not_eq_true', List.isEmpty_eq_false_iff_exists_mem]
  simp only [mem_ends_iff]
  constructor
  · rintro ⟨q, m, hpast, hspan⟩
    exact ⟨m, q.after, hpast.after, hspan⟩
  · rintro ⟨m, a, hafter, hspan⟩
    exact ⟨⟨p.pos + m.length, m.reverse ++ p.before, a⟩, m, ⟨hafter, rfl, rfl⟩, hspan⟩

theorem occursFrom_iff {pat : Pattern} {pos : Nat} {before rest : List Char} :
    pat.occursFrom pos before rest = true ↔
      ∃ x m a, rest = x ++ m ++ a ∧ pat.Spans (x.reverse ++ before) m a := by
  induction rest generalizing pos before with
  | nil =>
      rw [occursFrom, isEmpty_ends_iff]
      constructor
      · rintro ⟨m, a, hrest, hspan⟩
        exact ⟨[], m, a, hrest, hspan⟩
      · rintro ⟨x, m, a, hrest, hspan⟩
        obtain ⟨hfront, rfl⟩ := List.append_eq_nil_iff.mp hrest.symm
        obtain ⟨rfl, rfl⟩ := List.append_eq_nil_iff.mp hfront
        exact ⟨[], [], rfl, hspan⟩
  | cons c r ih =>
      rw [occursFrom, Bool.or_eq_true, isEmpty_ends_iff, ih]
      constructor
      · rintro (⟨m, a, hrest, hspan⟩ | ⟨x, m, a, rfl, hspan⟩)
        · exact ⟨[], m, a, hrest, hspan⟩
        · exact ⟨c :: x, m, a, rfl, by simpa using hspan⟩
      · rintro ⟨x, m, a, hrest, hspan⟩
        cases x with
        | nil => exact .inl ⟨m, a, hrest, hspan⟩
        | cons d x =>
            obtain ⟨rfl, hr⟩ := List.cons.inj hrest
            exact .inr ⟨x, m, a, hr, by simpa using hspan⟩

/-- A pattern occurs in a text exactly if it spans some part of it. -/
theorem occursIn_iff {pat : Pattern} {s : String} :
    pat.occursIn s = true ↔ ∃ x m a, s.toList = x ++ m ++ a ∧ pat.Spans x.reverse m a := by
  rw [occursIn, occursFrom_iff]
  simp only [List.append_nil]

end Pattern

end Scriptorium
