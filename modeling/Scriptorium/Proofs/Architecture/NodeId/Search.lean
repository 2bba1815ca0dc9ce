import Scriptorium.Proofs.Architecture.NodeId

/-! # The search for identifiers

A name that has no identifier looks for one without a bound on its steps: while the candidate is in
use, the next numbered form is the candidate. The search always ends, and what it finds can stand in
a drawing. So whatever names ask one after the other, each call answers, equal names get equal
identifiers and different names different ones.
-/

namespace Scriptorium.Architecture.NodeIds

variable {ids later : NodeIds} {name id found : String} {used : List String} {base : String}
  {n last : Nat}

/-! ## Searching -/

/-- From a candidate, with the number of the next one, the search ends in an identifier and is left
with the number that would have been next. -/
inductive Finds (used : List String) (base : String) : String → Nat → String → Nat → Prop
  | free {id : String} {n : Nat} (h : id ∉ used) : Finds used base id n id n
  | next {id found : String} {n last : Nat} (h : id ∈ used)
      (rest : Finds used base (numbered base n) (n + 1) found last) :
      Finds used base id n found last

theorem Finds.unique {other : String} {stop : Nat} (h : Finds used base id n found last)
    (hother : Finds used base id n other stop) : found = other ∧ last = stop := by
  induction h with
  | free hfree =>
      cases hother with
      | free => exact ⟨rfl, rfl⟩
      | next hused => exact absurd hused hfree
  | next hused _ ih =>
      cases hother with
      | free hfree => exact absurd hused hfree
      | next _ hrest => exact ih hrest

/-- What is found is the first candidate or a numbered form. -/
theorem Finds.form (h : Finds used base id n found last) :
    found = id ∨ ∃ k, found = numbered base k := by
  induction h with
  | free => exact .inl rfl
  | next _ _ ih =>
      rcases ih with hfirst | hlater
      · exact .inr ⟨_, hfirst⟩
      · exact .inr hlater

/-- A search among so many numbers is the search without a bound, if what it ends in is free. -/
theorem finds_freeFrom {fuel : Nat} (h : freeFrom used base fuel n ∉ used) :
    ∃ last ≤ n + fuel + 1,
      Finds used base (numbered base n) (n + 1) (freeFrom used base fuel n) last := by
  induction fuel generalizing n with
  | zero => exact ⟨n + 1, le_rfl, .free h⟩
  | succ fuel ih =>
      by_cases hused : numbered base n ∈ used
      · have hstep : freeFrom used base (fuel + 1) n = freeFrom used base fuel (n + 1) :=
          if_pos hused
        rw [hstep] at h ⊢
        obtain ⟨last, hlast, hfinds⟩ := ih h
        exact ⟨last, by omega, .next hused hfinds⟩
      · have hstep : freeFrom used base (fuel + 1) n = numbered base n := if_neg hused
        rw [hstep]
        exact ⟨n + 1, by omega, .free hused⟩

/-- The search of a name ends, after at most one step more than there are identifiers in use. -/
theorem finds_fresh (ids : NodeIds) (name : String) :
    ∃ last ≤ ids.taken.length + 3, Finds ids.taken (wish name) (wish name) 2 (ids.fresh name) last := by
  unfold fresh
  dsimp only
  by_cases h : wish name ∈ ids.taken
  · rw [if_pos h]
    obtain ⟨last, hlast, hfinds⟩ := finds_freeFrom (freeFrom_not_mem ids.taken (wish name) 2)
    exact ⟨last, by omega, .next h hfinds⟩
  · rw [if_neg h]
    exact ⟨2, by omega, .free h⟩

/-! ## Calls -/

/-- A call for a name: one that has an identifier is told it, and any other is given what its search
finds. -/
inductive Call (ids : NodeIds) (name : String) : NodeIds → String → Prop
  | known {id : String} (h : ids.given.lookup name = some id) : Call ids name ids id
  | new {id : String} {last : Nat} (h : ids.given.lookup name = none)
      (search : Finds ids.taken (wish name) (wish name) 2 id last) :
      Call ids name ⟨ids.given ++ [(name, id)]⟩ id

/-- Every call ends, and in one way only. -/
theorem call_iff : Call ids name later id ↔ (later, id) = ids.get name := by
  unfold get
  cases hlookup : ids.given.lookup name with
  | some known =>
      constructor
      · rintro (h | h)
        · rw [h] at hlookup
          obtain rfl := Option.some.inj hlookup
          rfl
        · rw [h] at hlookup
          cases hlookup
      · intro h
        obtain ⟨rfl, rfl⟩ := Prod.mk.inj h
        exact .known hlookup
  | none =>
      obtain ⟨last, -, hfresh⟩ := finds_fresh ids name
      constructor
      · rintro (h | ⟨-, hsearch⟩)
        · rw [h] at hlookup
          cases hlookup
        · obtain ⟨rfl, -⟩ := hsearch.unique hfresh
          rfl
      · intro h
        obtain ⟨rfl, rfl⟩ := Prod.mk.inj h
        exact .new hlookup hfresh

/-- Calls one after the other, with the names and what they were told. -/
inductive Calls : NodeIds → List (String × String) → NodeIds → Prop
  | done {ids : NodeIds} : Calls ids [] ids
  | call {ids mid later : NodeIds} {name id : String} {log : List (String × String)}
      (first : Call ids name mid id) (rest : Calls mid log later) :
      Calls ids ((name, id) :: log) later

def answers (ids : NodeIds) : List String → List (String × String)
  | [] => []
  | name :: asking => (name, (ids.get name).2) :: (ids.get name).1.answers asking

theorem answers_names (ids : NodeIds) (asking : List String) :
    (ids.answers asking).map (·.1) = asking := by
  induction asking generalizing ids with
  | nil => rfl
  | cons name asking ih => rw [answers, List.map_cons, ih]

theorem calls_answers (ids : NodeIds) (asking : List String) :
    Calls ids (ids.answers asking) (ids.getAll asking) := by
  induction asking generalizing ids with
  | nil => exact .done
  | cons name asking ih => exact .call (call_iff.mpr rfl) (ih _)

theorem Calls.eq_answers {log : List (String × String)} (h : Calls ids log later) :
    log = ids.answers (log.map (·.1)) ∧ later = ids.getAll (log.map (·.1)) := by
  induction h with
  | done => exact ⟨rfl, rfl⟩
  | call hfirst _ ih =>
      obtain ⟨hlog, hlater⟩ := ih
      obtain ⟨rfl, rfl⟩ := Prod.mk.inj (call_iff.mp hfirst)
      exact ⟨congrArg (List.cons _) hlog, hlater⟩

/-- Names that ask are told, all of them, and in one way only. -/
theorem calls_iff {asking : List String} {log : List (String × String)} :
    Calls ids log later ∧ log.map (·.1) = asking ↔
      log = ids.answers asking ∧ later = ids.getAll asking := by
  constructor
  · rintro ⟨hcalls, rfl⟩
    exact hcalls.eq_answers
  · rintro ⟨rfl, rfl⟩
    exact ⟨calls_answers ids asking, answers_names ids asking⟩

/-! ## What names are told -/

/-- What a name is told is its identifier from then on. -/
theorem answer_eq_idOf (h : ids.Proper) {asking : List String} {entry : String × String}
    (hentry : entry ∈ ids.answers asking) :
    entry.1 ∈ asking ∧ entry.2 = (ids.getAll asking).idOf entry.1 := by
  induction asking generalizing ids with
  | nil => exact absurd hentry List.not_mem_nil
  | cons name asking ih =>
      obtain ⟨hproper, -, hid, hnames⟩ := get_spec h name
      rcases List.mem_cons.mp hentry with rfl | hlater
      · have hkept := (getAll_spec hproper asking).2.1.idOf ((hnames name).mpr (.inr rfl))
        exact ⟨List.mem_cons_self, hid.trans hkept.symm⟩
      · obtain ⟨hmem, heq⟩ := ih hproper hlater
        exact ⟨List.mem_cons_of_mem name hmem, heq⟩

theorem given_get_length_le (ids : NodeIds) (name : String) :
    (ids.get name).1.given.length ≤ ids.given.length + 1 := by
  unfold get
  cases ids.given.lookup name <;> simp

theorem given_getAll_length_le (ids : NodeIds) (asking : List String) :
    (ids.getAll asking).given.length ≤ ids.given.length + asking.length := by
  induction asking generalizing ids with
  | nil => exact le_rfl
  | cons name asking ih =>
      have hfirst := given_get_length_le ids name
      have hrest := ih (ids.get name).1
      rw [getAll_cons, List.length_cons]
      omega

/-! ## What an identifier looks like -/

def Plain (id : String) : Prop :=
  ∃ first rest, id.toList = first :: rest ∧ (first.isAlpha = true ∨ first = '_') ∧
    ∀ c ∈ rest, c.isAlphanum = true ∨ c = '_'

/-- What can stand for a node in a drawing: a plain word that stands for no layer and that the
language of drawings does not keep for itself. -/
structure Usable (id : String) : Prop where
  plain : Plain id
  layer : id ∉ ["PRESENTATION", "APPLICATION", "BUSINESS", "DATA", "INFRASTRUCTURE", "EXTERNAL",
    "OTHER"]
  word : id ∉ ["end", "graph", "subgraph", "style", "class"]

theorem Plain.append (h : Plain id) (tail : String)
    (htail : ∀ c ∈ tail.toList, c.isAlphanum = true ∨ c = '_') : Plain (id ++ tail) := by
  obtain ⟨first, rest, hid, hfirst, hrest⟩ := h
  refine ⟨first, rest ++ tail.toList, ?_, hfirst, fun c hc => ?_⟩
  · rw [String.toList_append, hid, List.cons_append]
  · rcases List.mem_append.mp hc with hc | hc
    · exact hrest c hc
    · exact htail c hc

theorem Plain.numbered (h : Plain id) (n : Nat) : Plain (numbered id n) := by
  refine (h.append "_" (by simp)).append _ fun c hc => .inl ?_
  rw [Nat.toString_eq_repr, Nat.toList_repr] at hc
  have hdigit := Nat.isDigit_of_mem_toDigits (by decide) (by decide) hc
  simp [Char.isAlphanum, hdigit]

/-- A word with an underscore in it is none that is kept. -/
theorem not_mem_reserved_of_mark (h : '_' ∈ id.toList) : id ∉ reserved := by
  have hall : ∀ word ∈ reserved, '_' ∉ word.toList := by decide
  exact fun hid => hall id hid h

theorem not_mem_reserved_numbered (base : String) (n : Nat) : numbered base n ∉ reserved :=
  not_mem_reserved_of_mark (by simp [numbered])

theorem wish_not_mem_reserved (name : String) : wish name ∉ reserved := by
  unfold wish
  dsimp only
  generalize String.ofList _ = plain
  split
  · exact not_mem_reserved_of_mark (by simp)
  · assumption

/-- Characters that a plain word may go on with make one, once no digit is the first of them. -/
theorem plain_led (cs : List Char) : (∀ c ∈ cs, c.isAlphanum = true ∨ c = '_') →
    Plain (String.ofList (match cs with
      | [] => ['n', '_']
      | c :: r => if c.isDigit then 'n' :: '_' :: c :: r else c :: r)) := by
  intro h
  cases cs with
  | nil => exact ⟨'n', ['_'], by simp, by decide, by simp⟩
  | cons c r =>
      by_cases hdigit : c.isDigit = true
      · refine ⟨'n', '_' :: c :: r, by simp [hdigit], by decide, fun d hd => ?_⟩
        rcases List.mem_cons.mp hd with rfl | hd
        · exact .inr rfl
        · exact h d hd
      · refine ⟨c, r, by simp [hdigit], ?_, fun d hd => h d (List.mem_cons_of_mem c hd)⟩
        simpa [Char.isAlphanum, hdigit] using h c List.mem_cons_self

theorem Plain.set_apart (h : Plain id) : Plain (if id ∈ reserved then id ++ "_" else id) := by
  by_cases hword : id ∈ reserved
  · rw [if_pos hword]
    exact h.append "_" (by simp)
  · rwa [if_neg hword]

theorem plain_wish (name : String) : Plain (wish name) := by
  have hchars : ∀ c ∈ name.toList.map (fun c => if Text.isAscii c && c.isAlphanum then c else '_'),
      c.isAlphanum = true ∨ c = '_' := by
    intro c hc
    obtain ⟨d, -, rfl⟩ := List.mem_map.mp hc
    by_cases hd : (Text.isAscii d && d.isAlphanum) = true
    · rw [if_pos hd]
      exact .inl (Bool.and_eq_true_iff.mp hd).2
    · rw [if_neg hd]
      exact .inr rfl
  exact (plain_led _ hchars).set_apart

/-- A name that has no identifier yet is given one that it can use. -/
theorem usable_fresh (ids : NodeIds) (name : String) : Usable (ids.fresh name) := by
  obtain ⟨last, -, hfinds⟩ := finds_fresh ids name
  have hshape : Plain (ids.fresh name) ∧ ids.fresh name ∉ reserved := by
    rcases hfinds.form with hwish | ⟨k, hnumbered⟩
    · rw [hwish]
      exact ⟨plain_wish name, wish_not_mem_reserved name⟩
    · rw [hnumbered]
      exact ⟨(plain_wish name).numbered k, not_mem_reserved_numbered _ k⟩
  refine ⟨hshape.1, fun hlayer => ?_, hshape.2⟩
  exact fresh_not_mem ids name (List.mem_append_left _ hlayer)

/-- Every call keeps all given identifiers usable. -/
theorem usable_get (h : ∀ entry ∈ ids.given, Usable entry.2) (name : String) :
    ∀ entry ∈ (ids.get name).1.given, Usable entry.2 := by
  by_cases hname : name ∈ ids.names
  · rw [get_of_mem hname]
    exact h
  · rw [get_of_not_mem hname]
    intro entry hentry
    rcases List.mem_append.mp hentry with hold | hnew
    · exact h entry hold
    · obtain rfl := List.mem_singleton.mp hnew
      exact usable_fresh ids name

theorem usable_getAll (h : ∀ entry ∈ ids.given, Usable entry.2) (asking : List String) :
    ∀ entry ∈ (ids.getAll asking).given, Usable entry.2 := by
  induction asking generalizing ids with
  | nil => exact h
  | cons name asking ih => exact ih (usable_get h name)

/-- Names that ask from the beginning, in any order and any number of times, are all told an
identifier: every search ends, and its number is at most ten above that of the names before, so that
32 bits hold it for two thousand million names. Two of them are told the same identifier exactly when
they are the same name, and what they are told can stand in a drawing. -/
theorem answers_apart_and_usable (asking : List String) :
    (∀ log later, Calls {} log later ∧ log.map (·.1) = asking ↔
      log = answers {} asking ∧ later = getAll {} asking) ∧
    (∀ front name back, asking = front ++ name :: back →
      ∃ id last, Finds (getAll {} front).taken (wish name) (wish name) 2 id last ∧
        last ≤ front.length + 10) ∧
    (∀ p ∈ answers {} asking, ∀ q ∈ answers {} asking, p.2 = q.2 ↔ p.1 = q.1) ∧
    ∀ p ∈ answers {} asking, Usable p.2 := by
  obtain ⟨hproper, -, hnames⟩ := getAll_spec proper_empty asking
  have htold {p : String × String} (hp : p ∈ answers {} asking) :
      p.1 ∈ (getAll {} asking).names ∧ p.2 = (getAll {} asking).idOf p.1 := by
    obtain ⟨hmem, heq⟩ := answer_eq_idOf proper_empty hp
    exact ⟨(hnames p.1).mpr (.inr hmem), heq⟩
  refine ⟨fun log later => calls_iff, fun front name _ _ => ?_, fun p hp q hq => ?_, fun p hp => ?_⟩
  · obtain ⟨last, hlast, hfinds⟩ := finds_fresh (getAll {} front) name
    have hgiven := given_getAll_length_le {} front
    have htaken : (getAll {} front).taken.length = 7 + (getAll {} front).given.length := by
      rw [taken, List.length_append, List.length_map, List.length_map]
      rfl
    refine ⟨_, last, hfinds, ?_⟩
    simp only [List.length_nil] at hgiven
    omega
  · obtain ⟨hpmem, hpid⟩ := htold hp
    obtain ⟨hqmem, hqid⟩ := htold hq
    constructor
    · intro heq
      exact hproper.idOf_injOn hpmem hqmem (by rw [← hpid, ← hqid, heq])
    · intro heq
      rw [hpid, hqid, heq]
  · obtain ⟨hmem, hid⟩ := htold hp
    have husable : ∀ entry ∈ (getAll {} asking).given, Usable entry.2 :=
      usable_getAll (fun _ h => absurd h List.not_mem_nil) asking
    rw [hid]
    exact husable _ (mem_given hmem)

/-- Names that turn into one word, one that turns into the numbered form of another, one that a digit
leads, a kept word and the tag of a layer. -/
theorem answers_apart_and_usable_small :
    answers {} ["a.b", "a-b", "a.b", "1st", "end", "DATA", "a_b_2"] =
      [("a.b", "a_b"), ("a-b", "a_b_2"), ("a.b", "a_b"), ("1st", "n_1st"), ("end", "end_"),
        ("DATA", "DATA_2"), ("a_b_2", "a_b_2_2")] ∧
    Usable "a_b_2_2" ∧
    ∃ later, Calls {} [("DATA", "DATA_2"), ("DATA_2", "DATA_2_2"), ("DATA", "DATA_2")] later := by
  have hanswers : answers {} ["a.b", "a-b", "a.b", "1st", "end", "DATA", "a_b_2"] =
      [("a.b", "a_b"), ("a-b", "a_b_2"), ("a.b", "a_b"), ("1st", "n_1st"), ("end", "end_"),
        ("DATA", "DATA_2"), ("a_b_2", "a_b_2_2")] := by decide +kernel
  obtain ⟨-, -, -, husable⟩ :=
    answers_apart_and_usable ["a.b", "a-b", "a.b", "1st", "end", "DATA", "a_b_2"]
  obtain ⟨hcalls, -⟩ := answers_apart_and_usable ["DATA", "DATA_2", "DATA"]
  refine ⟨hanswers, husable ("a_b_2", "a_b_2_2") (by rw [hanswers]; decide),
    getAll {} ["DATA", "DATA_2", "DATA"], ?_⟩
  exact ((hcalls _ _).mpr ⟨by decide +kernel, rfl⟩).1

end Scriptorium.Architecture.NodeIds
