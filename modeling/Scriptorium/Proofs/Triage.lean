import Scriptorium.Proofs.Text.Content
import Scriptorium.Triage

/-! # The policy of the triage

Each local rule is said on its own: when it holds of a component, and what it then decides. Rules
that are ready for use decide by the first rule of the policy that holds, and leave a component
open exactly when none does. A reply is judged by its first run of letters and digits. Rules with
higher thresholds reject whatever rules with lower ones reject.
-/

namespace Scriptorium

namespace Triage

/-! ## The first of a list -/

def IsFirst {α : Type} (q : α → Prop) (l : List α) (a : α) : Prop :=
  ∃ before after, l = before ++ a :: after ∧ q a ∧ ∀ b ∈ before, ¬ q b

theorem not_isFirst_nil {α : Type} {q : α → Prop} {a : α} : ¬ IsFirst q [] a := by
  rintro ⟨before, after, hl, -⟩
  simp at hl

theorem isFirst_cons_iff {α : Type} {q : α → Prop} {l : List α} {a b : α} :
    IsFirst q (b :: l) a ↔ b = a ∧ q a ∨ ¬ q b ∧ IsFirst q l a := by
  constructor
  · rintro ⟨before, after, hl, ha, hbefore⟩
    cases before with
    | nil => exact .inl ⟨(List.cons.inj hl).1, ha⟩
    | cons d before =>
        obtain ⟨rfl, hrest⟩ := List.cons.inj hl
        refine .inr ⟨hbefore b List.mem_cons_self, before, after, hrest, ha, fun x hx => ?_⟩
        exact hbefore x (List.mem_cons_of_mem b hx)
  · rintro (⟨rfl, hb⟩ | ⟨hb, before, after, rfl, ha, hbefore⟩)
    · exact ⟨[], l, rfl, hb, fun x hx => absurd hx List.not_mem_nil⟩
    · exact ⟨b :: before, after, rfl, ha, List.forall_mem_cons.mpr ⟨hb, hbefore⟩⟩

theorem find?_eq_some_iff_isFirst {α : Type} {q : α → Bool} {l : List α} {a : α} :
    l.find? q = some a ↔ IsFirst (fun b => q b = true) l a := by
  rw [List.find?_eq_some_iff_append]
  constructor
  · rintro ⟨ha, before, after, hl, hbefore⟩
    exact ⟨before, after, hl, ha, by simpa using hbefore⟩
  · rintro ⟨before, after, hl, ha, hbefore⟩
    exact ⟨ha, before, after, hl, by simpa using hbefore⟩

theorem findSome?_eq_some_iff_isFirst {α β : Type} {f : α → Option β} {l : List α} {b : β} :
    l.findSome? f = some b ↔ ∃ a, IsFirst (fun a => ∃ b, f a = some b) l a ∧ f a = some b := by
  rw [List.findSome?_eq_some_iff]
  constructor
  · rintro ⟨before, a, after, hl, ha, hbefore⟩
    refine ⟨a, ⟨before, after, hl, ⟨b, ha⟩, ?_⟩, ha⟩
    rintro x hx ⟨y, hy⟩
    rw [hbefore x hx] at hy
    cases hy
  · rintro ⟨a, ⟨before, after, hl, -, hbefore⟩, ha⟩
    refine ⟨before, a, after, hl, ha, fun x hx => ?_⟩
    exact Option.eq_none_iff_forall_ne_some.mpr fun y hy => hbefore x hx ⟨y, hy⟩

theorem isFirst_map_iff {α β : Type} {q : β → Prop} {f : α → β} {l : List α} {b : β} :
    IsFirst q (l.map f) b ↔ ∃ a, IsFirst (fun a => q (f a)) l a ∧ b = f a := by
  induction l with
  | nil => simp [not_isFirst_nil]
  | cons x l ih =>
      simp only [List.map_cons, isFirst_cons_iff, ih]
      constructor
      · rintro (⟨rfl, hq⟩ | ⟨hx, a, hfirst, rfl⟩)
        · exact ⟨x, .inl ⟨rfl, hq⟩, rfl⟩
        · exact ⟨a, .inr ⟨hx, hfirst⟩, rfl⟩
      · rintro ⟨a, ⟨rfl, hq⟩ | ⟨hx, hfirst⟩, rfl⟩
        · exact .inl ⟨rfl, hq⟩
        · exact .inr ⟨hx, a, hfirst, rfl⟩

theorem exists_isFirst_iff {α : Type} {q : α → Prop} {l : List α} :
    (∃ a, IsFirst q l a) ↔ ∃ a ∈ l, q a := by
  induction l with
  | nil => simp [not_isFirst_nil]
  | cons x l ih =>
      rw [List.exists_mem_cons_iff, ← ih]
      simp only [isFirst_cons_iff, exists_or, exists_eq_left', exists_and_left]
      by_cases hx : q x <;> simp [hx]

/-! ## Rules -/

/-- The local rules, in the order in which they are tried. -/
inductive Rule where
  | name | words | lines | phrase | keywords
  deriving Repr, DecidableEq

def Rule.policy : List Rule := [name, words, lines, phrase, keywords]

def matchesName (name pattern : String) : Bool :=
  (Pattern.ofText? pattern).any (·.occursIn name)

def writtenLines (text : String) : List String := (Text.lines text).filter (!Text.blank ·)

/-- A rule holds of a component, and what it decides. Phrases and keywords are searched for in
lower case; lines count only where several are written. -/
inductive Holds (r : Rules) (c : Component) : Rule → Outcome → Prop where
  | name {pattern : String}
      (h : IsFirst (fun s => matchesName c.name s = true) r.namePatterns pattern) :
      Holds r c .name ⟨.reject, .trivialName pattern⟩
  | words (h : Text.wordCount c.documentation < r.minWords) :
      Holds r c .words ⟨.reject, .tooFewWords (Text.wordCount c.documentation)⟩
  | lines (hseveral : 1 < (writtenLines c.documentation).length)
      (h : substantiveCount c.documentation < r.minLines) :
      Holds r c .lines ⟨.reject, .tooFewLines (substantiveCount c.documentation)⟩
  | phrase {term : String}
      (h : IsFirst (fun s => Text.contains (Text.lowercase c.documentation) s = true)
        (searchTerms r.phrases) term) :
      Holds r c .phrase ⟨.reject, .trivialPhrase term⟩
  | keywords (h : r.keywordThreshold ≤ ((searchTerms r.keywords).filter
        (Text.contains (Text.lowercase c.documentation))).length) :
      Holds r c .keywords ⟨.accept, .substantialKeywords ((searchTerms r.keywords).filter
        (Text.contains (Text.lowercase c.documentation))).length⟩

def Fires (r : Rules) (c : Component) (rule : Rule) : Prop := ∃ o, Holds r c rule o

variable {r r' : Rules} {c : Component} {rule : Rule} {o : Outcome} {s s' : Sieve}

theorem Holds.not_asked (h : Holds r c rule o) : o.reason.asked = false := by
  cases h <;> rfl

/-- Only enough keywords accept. -/
theorem Holds.verdict_eq (h : Holds r c rule o) :
    o.verdict = if rule = .keywords then .accept else .reject := by
  cases h <;> rfl

/-! ## Rules that are ready for use -/

theorem readPatterns_cons {pattern : String} {rest : List String}
    {patterns : List (String × Pattern)} (h : readPatterns (pattern :: rest) = .ok patterns) :
    ∃ p ps, Pattern.ofText? pattern = some p ∧ readPatterns rest = .ok ps ∧
      patterns = (pattern, p) :: ps := by
  unfold readPatterns at h
  rw [List.mapM_cons] at h
  cases hread : Pattern.ofText? pattern with
  | none =>
      rw [hread] at h
      cases h
  | some p =>
      rw [hread] at h
      cases hrest : readPatterns rest with
      | error e =>
          unfold readPatterns at hrest
          simp [hrest, bind, Except.bind] at h
      | ok ps =>
          unfold readPatterns at hrest
          simp only [hrest, bind, Except.bind, pure, Except.pure, Except.ok.injEq] at h
          exact ⟨p, ps, rfl, rfl, h.symm⟩

/-- What is found among patterns that are read is what is found among their texts. -/
theorem find?_readPatterns {texts : List String} {patterns : List (String × Pattern)}
    (h : readPatterns texts = .ok patterns) (name : String) :
    (patterns.find? fun (_, p) => p.occursIn name).map (·.1) =
      texts.find? (matchesName name) := by
  induction texts generalizing patterns with
  | nil =>
      obtain rfl : [] = patterns := Except.ok.inj h
      rfl
  | cons pattern rest ih =>
      obtain ⟨p, ps, hread, hrest, rfl⟩ := readPatterns_cons h
      have hmatches : matchesName name pattern = p.occursIn name := by
        simp [matchesName, hread]
      rw [List.find?_cons, List.find?_cons, hmatches]
      dsimp only
      cases p.occursIn name with
      | true => rfl
      | false => exact ih hrest

theorem Sieve.ofRules_eq_ok (h : ofRules r = .ok s) :
    s.rules = r ∧ readPatterns r.namePatterns = .ok s.patterns := by
  unfold ofRules at h
  cases hread : readPatterns r.namePatterns with
  | error e =>
      rw [hread] at h
      cases h
  | ok ps =>
      rw [hread] at h
      obtain rfl : (⟨r, ps⟩ : Sieve) = s := Except.ok.inj h
      exact ⟨rfl, rfl⟩

theorem stripBlanks_isEmpty (l : List Char) :
    (Text.stripBlanks l).isEmpty = l.all Text.isBlank := by
  induction l with
  | nil => rfl
  | cons a l ih =>
      by_cases ha : Text.isBlank a = true
      · rw [Text.stripBlanks_cons_of_blank ha, ih, List.all_cons, ha, Bool.true_and]
      · have hkeep : Text.dropBlanks (a :: l) = a :: l := List.dropWhile_cons_of_neg ha
        rw [Text.stripBlanks, hkeep, Text.dropBlanksEnd_cons, List.all_cons]
        by_cases hrest : Text.dropBlanksEnd l = [] <;> simp [ha, hrest]

theorem several_eq (text : String) :
    (Text.splitLines text.toList).countP (fun l => !(Text.stripBlanks l).isEmpty) =
      (writtenLines text).length := by
  rw [writtenLines, ← List.countP_eq_length_filter, Text.lines, List.countP_map]
  refine List.countP_congr fun l _ => ?_
  simp [Text.blank, stripBlanks_isEmpty]

namespace Sieve

def decided? (s : Sieve) (c : Component) : Rule → Option Outcome
  | .name => (s.trivialPattern? c.name).map fun p => ⟨.reject, .trivialName p⟩
  | .words =>
    let words := Text.wordCount c.documentation
    if words < s.rules.minWords then some ⟨.reject, .tooFewWords words⟩ else none
  | .lines => (s.fewLines? c.documentation).map fun n => ⟨.reject, .tooFewLines n⟩
  | .phrase =>
    (s.phrase? (Text.lowercase c.documentation)).map fun p => ⟨.reject, .trivialPhrase p⟩
  | .keywords =>
    let hits := s.keywordHits (Text.lowercase c.documentation)
    if s.rules.keywordThreshold ≤ hits then some ⟨.accept, .substantialKeywords hits⟩ else none

theorem judge?_eq_findSome? (s : Sieve) (c : Component) :
    s.judge? c = Rule.policy.findSome? (s.decided? c) := by
  unfold judge? Rule.policy
  simp only [List.findSome?_cons, List.findSome?_nil, decided?]
  cases s.trivialPattern? c.name with
  | some p => rfl
  | none =>
      dsimp only [Option.map_none]
      by_cases hwords : Text.wordCount c.documentation < s.rules.minWords
      · rw [if_pos hwords, if_pos hwords]
      · rw [if_neg hwords, if_neg hwords]
        cases s.fewLines? c.documentation with
        | some n => rfl
        | none =>
            dsimp only [Option.map_none]
            cases s.phrase? (Text.lowercase c.documentation) with
            | some p => rfl
            | none =>
                dsimp only [Option.map_none]
                split <;> rfl

theorem decided?_eq_some_iff (h : ofRules r = .ok s) :
    s.decided? c rule = some o ↔ Holds r c rule o := by
  obtain ⟨hrules, hpatterns⟩ := ofRules_eq_ok h
  cases rule with
  | name =>
      have hname : ∀ p, s.trivialPattern? c.name = some p ↔
          IsFirst (fun t => matchesName c.name t = true) r.namePatterns p := by
        intro p
        rw [trivialPattern?, find?_readPatterns hpatterns, find?_eq_some_iff_isFirst]
      simp only [decided?, Option.map_eq_some_iff, hname]
      constructor
      · rintro ⟨p, hp, rfl⟩
        exact .name hp
      · rintro ⟨hp⟩
        exact ⟨_, hp, rfl⟩
  | words =>
      simp only [decided?, hrules, Option.ite_none_right_eq_some, Option.some.injEq]
      constructor
      · rintro ⟨hwords, rfl⟩
        exact .words hwords
      · rintro ⟨⟩
        exact ⟨by assumption, rfl⟩
  | lines =>
      simp only [decided?, fewLines?, several_eq, hrules, Option.map_eq_some_iff,
        Option.ite_none_right_eq_some, Option.some.injEq]
      constructor
      · rintro ⟨n, ⟨⟨hseveral, hlines⟩, rfl⟩, rfl⟩
        exact .lines hseveral hlines
      · rintro ⟨⟩
        exact ⟨_, ⟨⟨by assumption, by assumption⟩, rfl⟩, rfl⟩
  | phrase =>
      simp only [decided?, phrase?, hrules, Option.map_eq_some_iff, find?_eq_some_iff_isFirst]
      constructor
      · rintro ⟨p, hp, rfl⟩
        exact .phrase hp
      · rintro ⟨⟩
        exact ⟨_, by assumption, rfl⟩
  | keywords =>
      simp only [decided?, keywordHits, hrules, List.countP_eq_length_filter,
        Option.ite_none_right_eq_some, Option.some.injEq]
      constructor
      · rintro ⟨hhits, rfl⟩
        exact .keywords hhits
      · rintro ⟨⟩
        exact ⟨by assumption, rfl⟩

/-- A component is decided by the first rule of the policy that holds of it. -/
theorem judge?_eq_some_iff (h : ofRules r = .ok s) :
    s.judge? c = some o ↔ ∃ rule, IsFirst (Fires r c) Rule.policy rule ∧ Holds r c rule o := by
  rw [judge?_eq_findSome?, findSome?_eq_some_iff_isFirst]
  simp only [decided?_eq_some_iff h]
  rfl

theorem judge?_eq_none_iff (h : ofRules r = .ok s) :
    s.judge? c = none ↔ ∀ rule, ¬ Fires r c rule := by
  have hall : ∀ rule : Rule, rule ∈ Rule.policy := by
    intro rule
    cases rule <;> decide
  rw [judge?_eq_findSome?, List.findSome?_eq_none_iff]
  constructor
  · rintro hnone rule ⟨o, ho⟩
    have hopen := hnone rule (hall rule)
    rw [(decided?_eq_some_iff h).mpr ho] at hopen
    cases hopen
  · intro hnone rule _
    refine Option.eq_none_iff_forall_ne_some.mpr fun o ho => hnone rule ⟨o, ?_⟩
    exact (decided?_eq_some_iff h).mp ho

end Sieve

/-! ## Replies -/

/-- The first run of ASCII letters and digits in a text, which ends where the text does or before
another character. -/
structure LeadingToken (cs token : List Char) : Prop where
  nonempty : token ≠ []
  plain : ∀ a ∈ token, isPlain a = true
  split : ∃ before after, cs = before ++ token ++ after ∧ (∀ a ∈ before, isPlain a = false) ∧
    ∀ a ∈ after.head?, isPlain a = false

theorem firstToken_of_leadingToken {cs token : List Char} (h : LeadingToken cs token) :
    firstToken cs = token := by
  obtain ⟨hne, hplain, before, after, rfl, hbefore, hafter⟩ := h
  obtain ⟨a, rest, rfl⟩ := List.exists_cons_of_ne_nil hne
  have hdrop : (before ++ (a :: rest) ++ after).dropWhile (!isPlain ·) = a :: rest ++ after := by
    rw [List.append_assoc, List.dropWhile_append_of_pos (by simpa using hbefore), List.cons_append,
      List.dropWhile_cons_of_neg (by simp [hplain a List.mem_cons_self])]
  have hstop : after.takeWhile isPlain = [] := by
    cases after with
    | nil => rfl
    | cons b after => exact List.takeWhile_cons_of_neg (by simp [hafter b rfl])
  rw [firstToken, hdrop, List.takeWhile_append_of_pos hplain, hstop, List.append_nil]

theorem leadingToken_firstToken {cs : List Char} (h : firstToken cs ≠ []) :
    LeadingToken cs (firstToken cs) where
  nonempty := h
  plain _ ha := List.mem_takeWhile_imp ha
  split := by
    refine ⟨cs.takeWhile (!isPlain ·), (cs.dropWhile (!isPlain ·)).dropWhile isPlain, ?_,
      fun a ha => ?_, fun a ha => ?_⟩
    · rw [firstToken, List.append_assoc, List.takeWhile_append_dropWhile,
        List.takeWhile_append_dropWhile]
    · simpa using List.mem_takeWhile_imp ha
    · have hhead := List.head?_dropWhile_not isPlain (cs.dropWhile (!isPlain ·))
      rw [ha] at hhead
      simpa using hhead

/-- A reply begins with one of several words, in letters of any case. -/
def Says (words : List String) (reply : String) : Prop :=
  ∃ token, LeadingToken reply.toList token ∧ String.ofList (token.map Text.asciiUpper) ∈ words

def approvals : List String := ["DOCUMENT", "ACCEPT", "YES"]

def refusals : List String := ["SKIP", "REJECT", "NO"]

theorem says_iff {words : List String} (hwords : "" ∉ words) {reply : String} :
    Says words reply ↔
      String.ofList ((firstToken reply.toList).map Text.asciiUpper) ∈ words := by
  constructor
  · rintro ⟨token, htoken, hmem⟩
    rwa [firstToken_of_leadingToken htoken]
  · intro hmem
    refine ⟨_, leadingToken_firstToken fun hnil => hwords ?_, hmem⟩
    rw [hnil] at hmem
    exact hmem

theorem readVerdict_eq_accept_iff {reply : String} :
    readVerdict reply = some .accept ↔ Says approvals reply := by
  rw [says_iff (by decide), approvals, readVerdict]
  split
  next h => simp only [h]
  next h =>
    simp only [h, iff_false]
    split <;> simp

theorem readVerdict_eq_reject_iff {reply : String} :
    readVerdict reply = some .reject ↔ Says refusals reply := by
  rw [says_iff (by decide), refusals, readVerdict]
  generalize String.ofList ((firstToken reply.toList).map Text.asciiUpper) = token
  split
  next h =>
    simp only [List.mem_cons, List.not_mem_nil, or_false] at h
    rcases h with rfl | rfl | rfl <;> decide
  next h =>
    split
    next hr => simp [hr]
    next hr => simp [hr]

/-- What the answer to a question decides: a clear word decides as it says, and all else accepts. -/
inductive Settled (answer : Except Assistant.Failure String) : Outcome → Prop where
  | refused {reply : String} (h : answer = .ok reply) (hword : Says refusals reply) :
      Settled answer ⟨.reject, .verdict (Text.trim reply)⟩
  | approved {reply : String} (h : answer = .ok reply) (hword : Says approvals reply) :
      Settled answer ⟨.accept, .verdict (Text.trim reply)⟩
  | unclear {reply : String} (h : answer = .ok reply) (hrefusal : ¬ Says refusals reply)
      (happroval : ¬ Says approvals reply) :
      Settled answer ⟨.accept, .failedOpen
        ("unrecognized verdict '" ++ Text.preview 40 (Text.trim reply) ++ "'")⟩
  | failed {f : Assistant.Failure} (h : answer = .error f) :
      Settled answer ⟨.accept, .failedOpen f.message⟩

theorem ofReply_eq_iff {answer : Except Assistant.Failure String} :
    ofReply answer = o ↔ Settled answer o := by
  constructor
  · rintro rfl
    cases answer with
    | error f => exact .failed rfl
    | ok reply =>
        unfold ofReply
        dsimp only
        cases hread : readVerdict reply with
        | none =>
            refine .unclear rfl (fun hword => ?_) (fun hword => ?_)
            · rw [readVerdict_eq_reject_iff.mpr hword] at hread
              cases hread
            · rw [readVerdict_eq_accept_iff.mpr hword] at hread
              cases hread
        | some v =>
            cases v with
            | accept => exact .approved rfl (readVerdict_eq_accept_iff.mp hread)
            | reject => exact .refused rfl (readVerdict_eq_reject_iff.mp hread)
  · intro h
    cases h with
    | refused h hword => simp [h, ofReply, readVerdict_eq_reject_iff.mpr hword]
    | approved h hword => simp [h, ofReply, readVerdict_eq_accept_iff.mpr hword]
    | @unclear reply h hrefusal happroval =>
        have hread : readVerdict reply = none := by
          cases hread : readVerdict reply with
          | none => rfl
          | some v =>
              cases v with
              | accept => exact absurd (readVerdict_eq_accept_iff.mp hread) happroval
              | reject => exact absurd (readVerdict_eq_reject_iff.mp hread) hrefusal
        simp [h, ofReply, hread]
    | failed h => simp [h, ofReply]

theorem Settled.asked {answer : Except Assistant.Failure String} (h : Settled answer o) :
    o.reason.asked = true := by
  cases h <;> rfl

theorem not_says_refusals {reply : String} (h : Says approvals reply) : ¬ Says refusals reply := by
  intro hrefusal
  have hread := readVerdict_eq_accept_iff.mpr h
  rw [readVerdict_eq_reject_iff.mpr hrefusal] at hread
  cases hread

/-- A clear refusal rejects, and nothing else does. -/
theorem Settled.reject_iff {answer : Except Assistant.Failure String} (h : Settled answer o) :
    o.verdict = .reject ↔ ∃ reply, answer = .ok reply ∧ Says refusals reply := by
  have hother : ∀ reply, answer = .ok reply → ¬ Says refusals reply →
      ¬ ∃ reply, answer = .ok reply ∧ Says refusals reply := by
    rintro reply hreply hno ⟨reply', hreply', hword⟩
    obtain rfl : reply = reply' := Except.ok.inj (hreply.symm.trans hreply')
    exact hno hword
  cases h with
  | refused h hword => exact ⟨fun _ => ⟨_, h, hword⟩, fun _ => rfl⟩
  | approved h hword =>
      exact ⟨nofun, fun hrefusal => (hother _ h (not_says_refusals hword) hrefusal).elim⟩
  | unclear h hno _ => exact ⟨nofun, fun hrefusal => (hother _ h hno hrefusal).elim⟩
  | failed h => exact ⟨nofun, fun ⟨_, hreply, _⟩ => by cases h.symm.trans hreply⟩

/-! ## Strictness -/

/-- Rules with the same lists and with thresholds that are at least as high. -/
structure Rules.Stricter (r r' : Rules) : Prop where
  namePatterns : r'.namePatterns = r.namePatterns
  phrases : r'.phrases = r.phrases
  keywords : r'.keywords = r.keywords
  minWords : r.minWords ≤ r'.minWords
  minLines : r.minLines ≤ r'.minLines
  keywordThreshold : r.keywordThreshold ≤ r'.keywordThreshold

/-- A rule that rejects does so under stricter rules too. -/
theorem Holds.stricter (hs : r.Stricter r') (h : Holds r c rule o) (hrule : rule ≠ .keywords) :
    Holds r' c rule o := by
  cases h with
  | name h => exact .name (hs.namePatterns ▸ h)
  | words h => exact .words (Nat.lt_of_lt_of_le h hs.minWords)
  | lines hseveral h => exact .lines hseveral (Nat.lt_of_lt_of_le h hs.minLines)
  | phrase h => exact .phrase (hs.phrases ▸ h)
  | keywords h => exact absurd rfl hrule

/-- Keywords that are enough under stricter rules are enough. -/
theorem Fires.keywords_of_stricter (hs : r.Stricter r') (h : Fires r' c .keywords) :
    Fires r c .keywords := by
  obtain ⟨o, ⟨⟩⟩ := h
  rename_i hhits
  rw [hs.keywords] at hhits
  exact ⟨_, .keywords (Nat.le_trans hs.keywordThreshold hhits)⟩

/-- The keywords decide only where no other rule holds. -/
theorem not_fires_of_isFirst_keywords (h : IsFirst (Fires r c) Rule.policy .keywords)
    (hrule : rule ≠ .keywords) : ¬ Fires r c rule := by
  simp only [Rule.policy, isFirst_cons_iff, not_isFirst_nil, reduceCtorEq, false_and, false_or,
    true_and, and_false, or_false] at h
  obtain ⟨hname, hwords, hlines, hphrase, -⟩ := h
  cases rule with
  | name => exact hname
  | words => exact hwords
  | lines => exact hlines
  | phrase => exact hphrase
  | keywords => exact absurd rfl hrule

/-- A component is rejected without a question exactly when a rule that rejects holds of it. -/
theorem Sieve.judge?_reject_iff (h : ofRules r = .ok s) :
    (∃ o, s.judge? c = some o ∧ o.verdict = .reject) ↔
      ∃ rule, rule ≠ .keywords ∧ Fires r c rule := by
  constructor
  · rintro ⟨o, ho, hreject⟩
    obtain ⟨rule, -, hholds⟩ := (judge?_eq_some_iff h).mp ho
    refine ⟨rule, fun hkeywords => ?_, o, hholds⟩
    rw [hholds.verdict_eq, if_pos hkeywords] at hreject
    cases hreject
  · rintro ⟨rule, hrule, hfires⟩
    cases hjudge : s.judge? c with
    | none => exact absurd hfires ((judge?_eq_none_iff h).mp hjudge rule)
    | some o =>
        obtain ⟨first, hfirst, hholds⟩ := (judge?_eq_some_iff h).mp hjudge
        have hne : first ≠ .keywords := by
          rintro rfl
          exact not_fires_of_isFirst_keywords hfirst hrule hfires
        exact ⟨o, rfl, hholds.verdict_eq.trans (if_neg hne)⟩

/-- Where the question that rules leave open is answered alike, stricter rules reject all that more
lenient ones reject. -/
theorem Sieve.reject_of_stricter (hs : r.Stricter r') (h : ofRules r = .ok s)
    (h' : ofRules r' = .ok s') (answered : Outcome)
    (hreject : ((s.judge? c).getD answered).verdict = .reject) :
    ((s'.judge? c).getD answered).verdict = .reject := by
  by_cases hlocal : ∃ rule, rule ≠ .keywords ∧ Fires r c rule
  · obtain ⟨rule, hrule, o, ho⟩ := hlocal
    obtain ⟨o', ho', hreject'⟩ :=
      (judge?_reject_iff h').mpr ⟨rule, hrule, o, ho.stricter hs hrule⟩
    rw [ho', Option.getD_some, hreject']
  · -- No local rule rejects here, so it was the answer that did, and no rule holds at all.
    have hopen : s.judge? c = none := by
      cases hjudge : s.judge? c with
      | none => rfl
      | some o =>
          rw [hjudge, Option.getD_some] at hreject
          exact absurd ((judge?_reject_iff h).mp ⟨o, hjudge, hreject⟩) hlocal
    rw [hopen, Option.getD_none] at hreject
    cases hjudge' : s'.judge? c with
    | none => exact hreject
    | some o' =>
        obtain ⟨rule, -, hholds⟩ := (judge?_eq_some_iff h').mp hjudge'
        have hne : rule ≠ .keywords := by
          rintro rfl
          have hfires := Fires.keywords_of_stricter hs ⟨o', hholds⟩
          exact (judge?_eq_none_iff h).mp hopen _ hfires
        exact hholds.verdict_eq.trans (if_neg hne)

end Triage

end Scriptorium
