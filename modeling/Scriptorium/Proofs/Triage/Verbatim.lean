import Scriptorium.Proofs.Text.Lower
import Scriptorium.Proofs.Triage.Keywords

/-! # Entries letter for letter

The rules of phrases and of keywords compare words with the lower case of a whole documentation. An
entry whose own characters settle the form of each capital sigma in it occurs wherever it stands
letter for letter, and no other entry does. Where no letter is near, every entry occurs. A phrase
that occurs is rejected without a question, and an entry of the keywords that occurs is counted.
-/

namespace Scriptorium

namespace Triage

variable {r : Rules} {s : Sieve} {c : Component} {entry : String}

theorem word_ne_empty (h : Text.blank entry = false) : word entry ≠ "" := by
  intro hempty
  have hnone : Text.lowerFrom [] (Text.trim entry).toList = [] := by
    simpa [word, Text.lowercase] using congrArg String.toList hempty
  have hkept : (Text.trim entry).toList ≠ [] := by
    rw [Text.trim, String.toList_ofList, ← List.isEmpty_eq_false_iff, stripBlanks_isEmpty]
    exact h
  exact Text.lowerFrom_ne_nil [] hkept hnone

theorem occurs_word (h : Text.blank entry = false) (c : Component) :
    occurs c (word entry) =
      Text.contains (Text.lowercase c.documentation) (Text.lowercase (Text.trim entry)) := by
  rw [occurs, decide_eq_true (word_ne_empty h), Bool.true_and, word]

theorem fires_phrase_iff : Fires r c .phrase ↔
    ∃ term ∈ searchTerms r.phrases, Text.contains (Text.lowercase c.documentation) term = true := by
  constructor
  · rintro ⟨o, hholds⟩
    cases hholds with
    | phrase hfirst =>
        obtain ⟨before, after, hterms, hfound, -⟩ := hfirst
        exact ⟨_, hterms ▸ List.mem_append_right before List.mem_cons_self, hfound⟩
  · rintro ⟨term, hterm, hfound⟩
    obtain ⟨first, hfirst⟩ : ∃ first, IsFirst
        (fun s => Text.contains (Text.lowercase c.documentation) s = true) (searchTerms r.phrases)
        first := exists_isFirst_iff.mpr ⟨term, hterm, hfound⟩
    exact ⟨_, .phrase hfirst⟩

theorem fires_phrase_of_occurs (hmem : entry ∈ r.phrases) (h : occurs c (word entry) = true) :
    Fires r c .phrase := by
  rw [occurs, Bool.and_eq_true] at h
  refine fires_phrase_iff.mpr ⟨word entry, ?_, h.2⟩
  exact List.mem_filter.mpr ⟨List.mem_map.mpr ⟨entry, hmem, rfl⟩, h.1⟩

/-- The entries that are found wherever they stand letter for letter are those in which the form of
each capital sigma is settled; every entry is found that stands away from letters. A component in
which an entry of the phrases is found is rejected without a question, and an entry of the keywords
is a hit exactly if it is found. -/
theorem found_verbatim_iff_firm (h : Sieve.ofRules r = .ok s) (hentry : Text.blank entry = false) :
    (Text.Firm (Text.trim entry).toList ↔ ∀ c : Component,
      Text.contains c.documentation (Text.trim entry) = true → occurs c (word entry) = true) ∧
    (∀ (c : Component) (p q : String), c.documentation = p ++ Text.trim entry ++ q →
      Text.reachesCased p.toList.reverse = false → Text.reachesCased q.toList = false →
      occurs c (word entry) = true) ∧
    (entry ∈ r.phrases → ∀ c, occurs c (word entry) = true →
      ∃ o, s.judge? c = some o ∧ o.verdict = .reject) ∧
    ∀ before after, r.keywords = before ++ entry :: after → ∀ c,
      s.keywordHits (Text.lowercase c.documentation) =
        hits (before ++ after) c + if occurs c (word entry) = true then 1 else 0 := by
  refine ⟨?_, fun c p q hsplit hp hq => ?_, fun hmem c hfound => ?_,
    fun before after hsplit c => ?_⟩
  · simp only [occurs_word hentry, Text.firm_iff_contains]
    exact ⟨fun hall c => hall c.documentation, fun hall t => hall ⟨"", t, none⟩⟩
  · rw [occurs_word hentry, hsplit]
    exact Text.contains_lowercase_of_apart hp hq
  · exact (Sieve.judge?_reject_iff h).mpr ⟨.phrase, nofun, fires_phrase_of_occurs hmem hfound⟩
  · rw [Sieve.keywordHits_eq, (Sieve.ofRules_eq_ok h).1, hsplit, hits_insert]

def Rules.single (phrase keyword : String) : Rules := ⟨[], 1, 0, [phrase], [keyword], 1⟩

theorem firm_placeholder : Text.Firm (Text.trim " Placeholder").toList :=
  Text.firm_of_not_mem (by decide +kernel)

theorem found_verbatim_iff_firm_small :
    (∀ c : Component, Text.contains c.documentation "Placeholder" = true →
      ∃ o, Sieve.judge? ⟨Rules.single " Placeholder" "parse", []⟩ c = some o ∧
        o.verdict = .reject) ∧
    occurs ⟨"Reader", "Σ!", none⟩ (word "Σ") = true := by
  have htrim : Text.trim " Placeholder" = "Placeholder" := by decide +kernel
  have hready : ∀ phrase, Sieve.ofRules (Rules.single phrase "parse") =
      .ok ⟨Rules.single phrase "parse", []⟩ := fun _ => rfl
  have hphrase : Text.blank " Placeholder" = false := by decide +kernel
  have hsigma : Text.blank "Σ" = false := by decide +kernel
  obtain ⟨hfirm, -, hreject, -⟩ := found_verbatim_iff_firm (hready " Placeholder") hphrase
  obtain ⟨-, hapart, -⟩ := found_verbatim_iff_firm (hready "Σ") hsigma
  refine ⟨fun c hc => hreject List.mem_cons_self c (hfirm.mp firm_placeholder c ?_), ?_⟩
  · rwa [htrim]
  · exact hapart _ "" "!" (by decide +kernel) (by decide +kernel) (by decide +kernel)

/-- A phrase that ends in a capital sigma is lost where a letter follows, and its component stays
open. -/
theorem verbatim_phrase_missed :
    let c : Component := ⟨"Reader", "ΠΡΟΣΩΡΙΝΟ", none⟩
    let r := Rules.single "ΠΡΟΣ" "parse"
    "ΠΡΟΣ" ∈ r.phrases ∧ Text.blank "ΠΡΟΣ" = false ∧
      Text.contains c.documentation (Text.trim "ΠΡΟΣ") = true ∧
      occurs c (word "ΠΡΟΣ") = false ∧
      ∃ s, Sieve.ofRules r = .ok s ∧ s.judge? c = none := by
  intro c r
  exact ⟨by decide +kernel, by decide +kernel, by decide +kernel, by decide +kernel,
    ⟨r, []⟩, rfl, by decide +kernel⟩

end Triage

end Scriptorium
