import Mathlib.Algebra.Order.BigOperators.Group.Finset
import Scriptorium.Proofs.Triage

/-! # Keywords

Entries of a word list stand for words, which have no case and no blanks around them. The rule of
keywords counts the entries that occur and not their words, so a word that several entries stand
for is counted as often. Where each word that occurs has one entry the two counts are the same.
-/

namespace Scriptorium

namespace Triage

variable {r : Rules} {s : Sieve} {c : Component} {keywords : List String} {k : String}

/-! ## Words and entries -/

def word (entry : String) : String := Text.lowercase (Text.trim entry)

def occurs (c : Component) (k : String) : Bool :=
  k ≠ "" && Text.contains (Text.lowercase c.documentation) k

def occurring (keywords : List String) (c : Component) : Finset String :=
  (keywords.map word).toFinset.filter (occurs c ·)

def entries (keywords : List String) (k : String) : Nat := keywords.countP (word · = k)

def hits (keywords : List String) (c : Component) : Nat :=
  ∑ k ∈ occurring keywords c, entries keywords k

theorem mem_occurring :
    k ∈ occurring keywords c ↔ (∃ e ∈ keywords, word e = k) ∧ occurs c k = true := by
  simp [occurring]

theorem entries_pos (h : k ∈ occurring keywords c) : 0 < entries keywords k := by
  obtain ⟨e, he, hword⟩ := (mem_occurring.mp h).1
  exact List.countP_pos_iff.mpr ⟨e, he, by simpa using hword⟩

theorem hits_eq_countP (keywords : List String) (c : Component) :
    hits keywords c = keywords.countP fun e => occurs c (word e) := by
  have hfound : occurring keywords c = ((keywords.map word).filter (occurs c)).toFinset := by
    rw [occurring, List.toFinset_filter]
  have hentries : ∀ k ∈ occurring keywords c,
      entries keywords k = ((keywords.map word).filter (occurs c)).count k := by
    intro k hk
    rw [List.count_filter (mem_occurring.mp hk).2, List.count, List.countP_map, entries]
    exact List.countP_congr fun e _ => by simp
  calc hits keywords c
      = ∑ k ∈ occurring keywords c, ((keywords.map word).filter (occurs c)).count k :=
        Finset.sum_congr rfl hentries
    _ = ((keywords.map word).filter (occurs c)).length := by
        rw [hfound, List.sum_toFinset_count_eq_length]
    _ = keywords.countP fun e => occurs c (word e) := by
        rw [← List.countP_eq_length_filter, List.countP_map, Function.comp_def]

/-- The entries are as many as the words exactly if each word that occurs has one entry. -/
theorem hits_eq_card_iff :
    hits keywords c = (occurring keywords c).card ↔
      ∀ k ∈ occurring keywords c, entries keywords k = 1 := by
  have hone : ∀ k ∈ occurring keywords c, 1 ≤ entries keywords k := fun k hk => entries_pos hk
  rw [hits, Finset.card_eq_sum_ones, eq_comm, Finset.sum_eq_sum_iff_of_le hone]
  exact forall₂_congr fun k _ => eq_comm

theorem hits_insert (before after : List String) (entry : String) (c : Component) :
    hits (before ++ entry :: after) c =
      hits (before ++ after) c + if occurs c (word entry) then 1 else 0 := by
  simp only [hits_eq_countP, List.countP_append, List.countP_cons]
  omega

/-! ## The rule of keywords -/

def Rule.earlier : List Rule := [.name, .words, .lines, .phrase]

theorem Rule.mem_earlier {rule : Rule} : rule ∈ Rule.earlier ↔ rule ≠ .keywords := by
  cases rule <;> decide

def Reaches (r : Rules) (c : Component) : Prop := ∀ rule, rule ≠ .keywords → ¬ Fires r c rule

def ofHits (threshold n : Nat) : Option Outcome :=
  if threshold ≤ n then some ⟨.accept, .substantialKeywords n⟩ else none

theorem ofHits_of_le {threshold n : Nat} (h : threshold ≤ n) :
    ofHits threshold n = some ⟨.accept, .substantialKeywords n⟩ := if_pos h

theorem ofHits_succ_eq_iff {threshold n : Nat} :
    ofHits threshold (n + 1) = ofHits threshold n ↔ ¬ threshold ≤ n + 1 := by
  unfold ofHits
  by_cases hnext : threshold ≤ n + 1
  · by_cases hnow : threshold ≤ n <;> simp [hnext, hnow]
  · have hnow : ¬ threshold ≤ n := by omega
    simp [hnext, hnow]

namespace Sieve

theorem keywordHits_eq (s : Sieve) (c : Component) :
    s.keywordHits (Text.lowercase c.documentation) = hits s.rules.keywords c := by
  rw [keywordHits, searchTerms, List.countP_filter, List.countP_map, hits_eq_countP]
  refine List.countP_congr fun e _ => ?_
  rw [Function.comp_apply, word, occurs, Bool.and_comm]

theorem judge?_eq_or (s : Sieve) (c : Component) :
    s.judge? c = (Rule.earlier.findSome? (s.decided? c)).or
      (ofHits s.rules.keywordThreshold (hits s.rules.keywords c)) := by
  have hpolicy : Rule.policy = Rule.earlier ++ [.keywords] := rfl
  rw [judge?_eq_findSome?, hpolicy, List.findSome?_append, ← keywordHits_eq]
  congr 1
  simp [decided?, ofHits]

theorem reaches_iff (h : ofRules r = .ok s) :
    Reaches r c ↔ Rule.earlier.findSome? (s.decided? c) = none := by
  rw [List.findSome?_eq_none_iff]
  constructor
  · intro hreaches rule hrule
    refine Option.eq_none_iff_forall_ne_some.mpr fun o ho => ?_
    exact hreaches rule (Rule.mem_earlier.mp hrule) ⟨o, (decided?_eq_some_iff h).mp ho⟩
  · rintro hnone rule hrule ⟨o, ho⟩
    have hopen := hnone rule (Rule.mem_earlier.mpr hrule)
    rw [(decided?_eq_some_iff h).mpr ho] at hopen
    cases hopen

theorem judge?_of_reaches (h : ofRules r = .ok s) (hreaches : Reaches r c) :
    s.judge? c = ofHits r.keywordThreshold (hits r.keywords c) := by
  rw [judge?_eq_or, (reaches_iff h).mp hreaches, (ofRules_eq_ok h).1]
  rfl

theorem ofRules_keywords (h : ofRules r = .ok s) (keywords : List String) :
    ofRules { r with keywords := keywords } =
      .ok ⟨{ r with keywords := keywords }, s.patterns⟩ := by
  unfold ofRules
  rw [(ofRules_eq_ok h).2]
  rfl

/-- The rules before that of keywords do not look at the keywords. -/
theorem decided?_keywords (h : ofRules r = .ok s) (keywords : List String) :
    Rule.earlier.findSome? (decided? ⟨{ r with keywords := keywords }, s.patterns⟩ c) =
      Rule.earlier.findSome? (s.decided? c) := by
  obtain ⟨rfl, -⟩ := ofRules_eq_ok h
  rfl

theorem judge?_of_not_reaches (h : ofRules r = .ok s) (hreaches : ¬ Reaches r c)
    (keywords : List String) :
    judge? ⟨{ r with keywords := keywords }, s.patterns⟩ c = s.judge? c := by
  rw [judge?_eq_or, judge?_eq_or, decided?_keywords h]
  cases hearlier : Rule.earlier.findSome? (s.decided? c) with
  | none => exact absurd ((reaches_iff h).mpr hearlier) hreaches
  | some o => rfl

theorem reaches_keywords (h : ofRules r = .ok s) (keywords : List String) :
    Reaches { r with keywords := keywords } c ↔ Reaches r c := by
  rw [reaches_iff (ofRules_keywords h keywords), reaches_iff h, decided?_keywords h]

end Sieve

/-- A component that no earlier rule decides is judged by how many entries stand for words that
occur, and these are as many as the words exactly if each such word has one entry. An entry that is
added for a word of the list makes a difference exactly if no earlier rule decides, its word occurs
and there are enough hits with it; then the component is accepted for one hit more. -/
theorem keywords_counted_by_entry (h : Sieve.ofRules r = .ok s) (c : Component) :
    (Reaches r c → s.judge? c = ofHits r.keywordThreshold (hits r.keywords c)) ∧
    (hits r.keywords c = (occurring r.keywords c).card ↔
      ∀ k ∈ occurring r.keywords c, entries r.keywords k = 1) ∧
    ∀ before after entry, r.keywords = before ++ after →
      (∃ e ∈ r.keywords, word e = word entry) →
      ∃ s', Sieve.ofRules { r with keywords := before ++ entry :: after } = .ok s' ∧
        (s'.judge? c ≠ s.judge? c ↔ Reaches r c ∧ word entry ∈ occurring r.keywords c ∧
          r.keywordThreshold ≤ hits r.keywords c + 1) ∧
        (s'.judge? c ≠ s.judge? c →
          s'.judge? c = some ⟨.accept, .substantialKeywords (hits r.keywords c + 1)⟩) := by
  refine ⟨Sieve.judge?_of_reaches h, hits_eq_card_iff, fun before after entry hsplit hword => ?_⟩
  have hadded := Sieve.ofRules_keywords h (before ++ entry :: after)
  refine ⟨_, hadded, ?_⟩
  by_cases hreaches : Reaches r c
  · have hmem : word entry ∈ occurring r.keywords c ↔ occurs c (word entry) = true := by
      rw [mem_occurring, and_iff_right hword]
    rw [Sieve.judge?_of_reaches h hreaches,
      Sieve.judge?_of_reaches hadded ((Sieve.reaches_keywords h _).mpr hreaches), hits_insert,
      ← hsplit, hmem]
    by_cases hoccurs : occurs c (word entry) = true
    · rw [if_pos hoccurs, ne_eq, ofHits_succ_eq_iff, not_not]
      exact ⟨⟨fun henough => ⟨hreaches, hoccurs, henough⟩, fun hall => hall.2.2⟩, ofHits_of_le⟩
    · rw [if_neg hoccurs, Nat.add_zero]
      exact ⟨iff_of_false (fun hne => hne rfl) fun hall => hoccurs hall.2.1,
        fun hne => absurd rfl hne⟩
  · have hsame := Sieve.judge?_of_not_reaches h hreaches (before ++ entry :: after)
    exact ⟨iff_of_false (fun hne => hne hsame) fun hall => hreaches hall.1,
      fun hne => absurd hsame hne⟩

def Rules.paired (keywords : List String) : Rules := ⟨[], 1, 0, [], keywords, 2⟩

theorem reaches_paired (keywords : List String) :
    Reaches (Rules.paired keywords) ⟨"Reader", "They parse lines.", none⟩ := by
  have hnone : Rule.earlier.findSome? (Sieve.decided? ⟨Rules.paired [], []⟩
      ⟨"Reader", "They parse lines.", none⟩) = none := by
    decide +kernel
  exact (Sieve.reaches_keywords (r := Rules.paired []) rfl keywords).mpr
    ((Sieve.reaches_iff rfl).mpr hnone)

theorem keywords_counted_by_entry_small :
    let c : Component := ⟨"Reader", "They parse lines.", none⟩
    Sieve.judge? ⟨Rules.paired ["parse"], []⟩ c = none ∧
      ∃ s, Sieve.ofRules (Rules.paired ["parse", "Parse "]) = .ok s ∧
        s.judge? c = some ⟨.accept, .substantialKeywords 2⟩ := by
  intro c
  have hword : "parse" = word "Parse " := by decide +kernel
  have hoccurs : word "Parse " ∈ occurring ["parse"] c := by
    rw [← hword]
    exact mem_occurring.mpr ⟨⟨"parse", List.mem_cons_self, by decide +kernel⟩, by decide +kernel⟩
  have hhits : hits ["parse"] c = 1 := by
    rw [hits_eq_countP]
    decide +kernel
  have hrules : Sieve.ofRules (Rules.paired ["parse"]) = .ok ⟨Rules.paired ["parse"], []⟩ := rfl
  obtain ⟨hjudge, -, hadd⟩ := keywords_counted_by_entry hrules c
  obtain ⟨s, hs, hchanged, haccept⟩ := hadd ["parse"] [] "Parse " rfl
    ⟨"parse", List.mem_cons_self, (by decide +kernel : word "parse" = word "Parse ")⟩
  have hnow : Rules.keywordThreshold (Rules.paired ["parse"]) ≤ hits ["parse"] c + 1 := by
    rw [hhits]
    decide
  refine ⟨?_, s, hs, ?_⟩
  · rw [hjudge (reaches_paired _)]
    simp only [Rules.paired, hhits]
    rfl
  · rw [haccept (hchanged.mpr ⟨reaches_paired _, hoccurs, hnow⟩)]
    simp only [Rules.paired, hhits]

/-- Two entries for one word are two hits, where its one entry alone is not enough. -/
theorem keyword_counted_twice :
    let c : Component := ⟨"Reader", "They parse lines.", none⟩
    let r := Rules.paired ["parse", "Parse "]
    word "Parse " = word "parse" ∧ Reaches r c ∧ (occurring r.keywords c).card = 1 ∧
      Sieve.ofRules r = .ok ⟨r, []⟩ ∧
      Sieve.judge? ⟨r, []⟩ c = some ⟨.accept, .substantialKeywords 2⟩ ∧
      Sieve.ofRules (Rules.paired ["parse"]) = .ok ⟨Rules.paired ["parse"], []⟩ ∧
      Sieve.judge? ⟨Rules.paired ["parse"], []⟩ c = none := by
  intro c r
  exact ⟨by decide +kernel, reaches_paired _, by decide +kernel, rfl, by decide +kernel, rfl,
    by decide +kernel⟩

end Triage

end Scriptorium
