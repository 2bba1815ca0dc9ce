import Scriptorium.Proofs.Run.Replay

/-! # The document of a run

A completed run has compiled the texts that it ends with. If that gave some text, the store was
given this text under the name in the settings and kept it, and the run tells where; otherwise the
store was given no document.
-/

namespace Scriptorium

namespace Run

open Archive

/-- What became of a compiled document between two moments of a store: an empty one is not given to
the store, and any other is kept where the run says. -/
inductive Kept {σ : Type} [Store σ] (p : Plan) (a b : σ) : Option String → String → Prop where
  | empty : Kept p a b none ""
  | saved {before after : σ} {path text : String} (htext : text ≠ "")
      (hbefore : Store.Becomes a before)
      (hsave : Store.saveDocument before p.settings.output.documentName text = (.ok path, after))
      (hafter : Store.Becomes after b) : Kept p a b (some path) text

namespace Kept

variable {σ : Type} [Store σ] {p : Plan} {a b c : σ} {place : Option String} {text : String}

theorem later (h : Kept p a b place text) (hbc : Store.Becomes b c) : Kept p a c place text := by
  cases h with
  | empty => exact .empty
  | saved htext hbefore hsave hafter => exact .saved htext hbefore hsave (hafter.trans hbc)

theorem earlier (h : Kept p b c place text) (hab : Store.Becomes a b) : Kept p a c place text := by
  cases h with
  | empty => exact .empty
  | saved htext hbefore hsave hafter => exact .saved htext (hab.trans hbefore) hsave hafter

theorem isSome_iff (h : Kept p a b place text) : place.isSome = true ↔ text ≠ "" := by
  cases h with
  | empty => simp
  | saved htext _ _ _ => simpa using htext

end Kept

namespace Session

variable {σ : Type} [Store σ] {p : Plan} {k : Catalog} {s : Session σ}

/-! ## Work that leaves the document alone -/

/-- Only compiling decides on the document. -/
theorem act_document (h : s.machine.phase ≠ .compiling) :
    (s.act p).2.document = s.document := by
  by_cases hfinalizing : s.machine.phase = .finalizing
  · simp only [act, hfinalizing, finalize]
    split <;> rfl
  · exact (act_gathers p h hfinalizing).document

/-- After the work a step only keeps a checkpoint. -/
theorem step_after (s : Session σ) :
    (s.step p).2.document = (s.act p).2.document ∧
      Store.Becomes (s.act p).2.store (s.step p).2.store := by
  rcases step_cases p s with hstep | ⟨m, machine, hstep⟩
  · rw [hstep]
    exact ⟨rfl, .same⟩
  · rw [hstep]
    exact ⟨rfl, .checkpoint _ .same⟩

/-! ## Compiling -/

theorem act_compiling {text : String} (hphase : s.machine.phase = .compiling)
    (hnone : s.document = none)
    (htext : Document.compile p.settings.taxonomy p.settings.output.title s.work.manuscript =
      .ok text) {m : Move} (hok : (s.act p).1 = .ok m) :
    Kept p s.store (s.act p).2.store (s.act p).2.document text := by
  have hact : s.act p = s.compile p := by simp only [act, hphase]
  rw [hact] at hok ⊢
  by_cases hempty : text = ""
  · have hcompile : s.compile p = (.ok ⟨.finalizing, "compile", none⟩, s) := by
      simp only [compile, htext, if_pos hempty]
    rw [hcompile, hempty]
    dsimp only
    rw [hnone]
    exact .empty
  · rcases hsave : Store.saveDocument s.store p.settings.output.documentName text
      with ⟨answer, store⟩
    cases answer with
    | error fault => simp [compile, htext, hempty, hsave] at hok
    | ok path =>
        simp only [compile, htext, if_neg hempty, hsave]
        exact .saved hempty .same hsave .same

/-- What a run has made of its document by a phase, beginning with a store. -/
structure Shelved (p : Plan) (a : σ) (s : Session σ) : Prop where
  store : Store.Becomes a s.store
  before : s.machine.phase ≠ .finalizing → s.machine.phase ≠ .done → s.document = none
  after : s.machine.phase = .finalizing ∨ s.machine.phase = .done →
    ∃ text, Document.compile p.settings.taxonomy p.settings.output.title s.work.manuscript =
      .ok text ∧ Kept p a s.store s.document text

theorem Shelved.step {a : σ} (hp : p.Grounded) (hstanding : Standing p k s) (h : Shelved p a s)
    (hok : (s.step p).1 = .ok ()) : Shelved p a (s.step p).2 := by
  have hdone : s.machine.phase ≠ .done := by
    intro hdone
    simp only [Session.step, act, hdone] at hok
    cases hok
  rcases acts_or_fails (hstanding.reach.fits hp) hdone with ⟨m, w, asked, hacts, hturn⟩ |
    ⟨fault, hfails, -⟩
  · have hcap : s.machine.steps < s.machine.cap := by
      by_contra hcap
      rw [hacts.step_of_le hturn.allows (Nat.not_lt.mp hcap)] at hok
      cases hok
    obtain ⟨-, -, hmachine, hwork, -, -, hstore⟩ := hacts.step_of_lt hturn.allows hcap
    obtain ⟨hdocument, hchecked⟩ := step_after (p := p) s
    have htarget : (s.step p).2.machine.phase = m.target := by rw [hmachine]
    refine ⟨h.store.trans hstore, ?_, ?_⟩
    · intro hfinalizing hend
      rw [htarget] at hfinalizing hend
      have hcompiling : s.machine.phase ≠ .compiling := by
        intro hat
        rw [hat] at hturn
        cases hturn
        exact hfinalizing rfl
      have hfirst : s.machine.phase ≠ .finalizing := by
        intro hat
        rw [hat] at hturn
        cases hturn
        exact hend rfl
      rw [hdocument, act_document hcompiling, h.before hfirst hdone]
    · intro hlast
      rw [htarget] at hlast
      rw [hwork, hdocument]
      -- Only the last two turns lead to these phases; the first of them compiles.
      generalize hat : s.machine.phase = phase at hturn
      cases hturn with
      | compile =>
          have hnone : s.document = none := h.before (by simp [hat]) (by simp [hat])
          have hids : ∀ id ∈ p.settings.taxonomy.sectionIds,
              s.work.manuscript.contains id = true := by
            obtain ⟨texts, hm⟩ := (hstanding.reach.fits hp).manuscript
            intro id hid
            rw [hm, Manuscript.contains_ofTexts]
            exact decide_eq_true (List.mem_eraseDups.mpr hid)
          obtain ⟨text, htext⟩ := Document.compile_isOk p.settings.output.title hids
          have hkept := act_compiling hat hnone htext hacts.move
          exact ⟨text, htext, (hkept.earlier h.store).later hchecked⟩
      | finalize =>
          obtain ⟨text, htext, hkept⟩ := h.after (.inl hat)
          rw [act_document (by simp [hat])]
          exact ⟨text, htext, hkept.later hstore⟩
      | @filter c o _ _ => cases hv : o.verdict <;> simp [phaseAfter, hv] at hlast
      | _ => simp at hlast
  · rw [hfails.step] at hok
    cases hok

theorem Shelved.drive {a : σ} (hp : p.Grounded) (hstanding : Standing p k s) (h : Shelved p a s)
    (n : Nat) (hok : (s.drive p n).1 = .ok ()) : Shelved p a (s.drive p n).2 :=
  (drive_ok_induction (q := fun t => Standing p k t ∧ Shelved p a t)
    (fun _ ht hdone hok => ⟨ht.1.step_of_ok hp hdone hok, ht.2.step hp ht.1 hok⟩) n
    ⟨hstanding, h⟩ hok).2

/-- A completed run has compiled its last texts and kept the document that they gave. -/
theorem run_document (hp : p.Grounded) {id : RunId} {clock : Clock} {store : σ} {tally : Tally}
    (hok : (run p k id clock store tally).1 = .ok ()) :
    let r := run p k id clock store tally
    ∃ text, Document.compile p.settings.taxonomy p.settings.output.title r.2.work.manuscript =
      .ok text ∧ Kept p store r.2.store r.2.document text := by
  have hphase := (run_ended hp k id clock store tally).phase_of_ok hok
  have hstart : Standing p k (start p k id clock store tally) := ⟨.start, rfl, Nat.zero_le _⟩
  have hnothing : Shelved p store (start p k id clock store tally) := by
    refine ⟨.same, fun _ _ => rfl, fun hlast => ?_⟩
    rcases hlast with hlast | hlast <;> cases hlast
  exact (hnothing.drive hp hstart (moves k.size) hok).after (.inr hphase)

end Session

end Run

end Scriptorium
