import Scriptorium.Proofs.Run.Delivery
import Scriptorium.Proofs.Run.Turn

/-! # How runs end

Every step of a run is a turn, except the last one where the cap refuses the move or where the
document or the drawing is not kept. So a run ends when it is done or in one of these two ways,
whatever the assistant answers and whatever becomes of checkpoints and snapshots.
-/

namespace Scriptorium

namespace Run

open Archive

namespace Session

variable {σ : Type} [Store σ] {p : Plan} {k : Catalog} {s : Session σ}

/-! ## One step -/

/-- Before the document is compiled, the work of a phase is that of a turn. -/
theorem acts_before_closing {n : Nat} (h : Fits p n s.machine.phase s.work)
    (hphase : s.machine.phase ≠ .compiling ∧ s.machine.phase ≠ .finalizing ∧
      s.machine.phase ≠ .done) :
    ∃ m w asked, Acts p s m w asked ∧
      Turn p s.work s.requests.length s.machine.phase m w asked := by
  obtain ⟨texts, hm⟩ := h.manuscript
  cases hat : s.machine.phase with
  | loading =>
      cases hqueue : s.work.queue with
      | nil => exact ⟨_, _, _, acts_loading_nil hat hqueue, .close hqueue⟩
      | cons c rest => exact ⟨_, _, _, acts_loading_cons hat hqueue, .load hqueue⟩
  | filtering =>
      obtain ⟨c, hc⟩ := h.current (.inl hat)
      exact ⟨_, _, _, acts_filtering hat hc, .filter hc rfl⟩
  | rejected => exact ⟨_, _, _, acts_rejected hat, .reject⟩
  | selecting =>
      obtain ⟨c, hc⟩ := h.current (.inr (.inl hat))
      exact ⟨_, _, _, acts_selecting hat hc, .select hc⟩
  | processing =>
      rw [hat] at h
      obtain ⟨c, hc⟩ := h.current (.inr (.inr rfl))
      obtain ⟨f, -, hf, hwritten⟩ := h.fanout hm c s.requests.length
      exact ⟨_, _, _, acts_processing hat hc hf hwritten, .process hc hf hwritten⟩
  | compiling => exact absurd hat hphase.1
  | finalizing => exact absurd hat hphase.2.1
  | done => exact absurd hat hphase.2.2

/-- The work of a phase is that of a turn, or the store does not keep what it must. -/
theorem acts_or_fails {n : Nat} (h : Fits p n s.machine.phase s.work)
    (hphase : s.machine.phase ≠ .done) :
    (∃ m w asked, Acts p s m w asked ∧
      Turn p s.work s.requests.length s.machine.phase m w asked) ∨
    ∃ fault, Fails p s fault ∧ Unkept p s (s.act p).2.store fault := by
  by_cases hcompiling : s.machine.phase = .compiling
  · obtain ⟨texts, hm⟩ := h.manuscript
    obtain ⟨text, htext⟩ := Document.compile_isOk (t := p.settings.taxonomy)
      (m := s.work.manuscript) p.settings.output.title fun id hid => by
        rw [hm, Manuscript.contains_ofTexts]
        exact decide_eq_true (List.mem_eraseDups.mpr hid)
    rcases acts_compiling hcompiling htext with hacts | ⟨hne, fault, hfails, hsave⟩
    · exact .inl ⟨_, _, _, hacts, hcompiling ▸ .compile⟩
    · exact .inr ⟨fault, hfails,
        .document text (documentDue_of_compiling hcompiling htext hne) hsave⟩
  by_cases hfinalizing : s.machine.phase = .finalizing
  · rcases acts_finalizing (p := p) hfinalizing with hacts | ⟨fault, hfails, hsave⟩
    · exact .inl ⟨_, _, _, hacts, hfinalizing ▸ .finalize⟩
    · exact .inr ⟨fault, hfails,
        .drawing s.drawn (drawingDue_eq_some_iff.mpr ⟨hfinalizing, rfl⟩) hsave⟩
  exact .inl (acts_before_closing h ⟨hcompiling, hfinalizing, hphase⟩)

/-- A run between two steps: it stands where turns lead to, and has kept a checkpoint of each. -/
structure Standing (p : Plan) (k : Catalog) (s : Session σ) : Prop where
  reach : Reach p k s.machine.phase s.work (s.trail.checkpoints.map Checkpoint.undated) s.requests
  steps : s.machine.steps = s.trail.checkpoints.length
  cap : s.machine.steps ≤ s.machine.cap

/-- How a run over a catalog may end, its cap and the store it began with being given. -/
inductive Ended (p : Plan) (k : Catalog) (cap : Nat) (a : σ) : Result σ → Prop where
  | finished {s : Session σ} (hcap : s.machine.cap = cap) (hphase : s.machine.phase = .done)
      (hstanding : Standing p k s) : Ended p k cap a (.ok (), s)
  | capped {s : Session σ} {w : Worklist} {requests asked : List Assistant.Request} {m : Move}
      (hcap : s.machine.steps = cap) (hsteps : s.machine.steps = s.trail.checkpoints.length)
      (hreach : Reach p k s.machine.phase w (s.trail.checkpoints.map Checkpoint.undated) requests)
      (hturn : Turn p w requests.length s.machine.phase m s.work asked) :
      Ended p k cap a (.error (.refused (.capReached cap s.machine.phase)), s)
  | unkept {s t : Session σ} {fault : Fault} (hbecomes : Store.Becomes a t.store)
      (hunkept : Unkept p t s.store fault) (hstanding : Standing p k s) :
      Ended p k cap a (.error (.archive fault), s)

theorem Ended.of_becomes {cap : Nat} {a b : σ} {r : Result σ} (hab : Store.Becomes a b)
    (h : Ended p k cap b r) : Ended p k cap a r := by
  cases h with
  | finished hcap hphase hstanding => exact .finished hcap hphase hstanding
  | capped hcap hsteps hreach hturn => exact .capped hcap hsteps hreach hturn
  | unkept hbecomes hunkept hstanding => exact .unkept (hab.trans hbecomes) hunkept hstanding

theorem Ended.reach_of_ok {cap : Nat} {a : σ} {r : Result σ} (h : Ended p k cap a r)
    (hok : r.1 = .ok ()) :
    Reach p k .done r.2.work (r.2.trail.checkpoints.map Checkpoint.undated) r.2.requests := by
  cases h with
  | finished _ hphase hstanding => exact hphase ▸ hstanding.reach
  | capped _ _ _ _ => cases hok
  | unkept _ _ _ => cases hok

theorem Ended.steps_eq {cap : Nat} {a : σ} {r : Result σ} (h : Ended p k cap a r) :
    r.2.machine.steps = r.2.trail.checkpoints.length := by
  cases h with
  | finished _ _ hstanding => exact hstanding.steps
  | capped _ hsteps _ _ => exact hsteps
  | unkept _ _ hstanding => exact hstanding.steps

theorem Ended.phase_of_ok {cap : Nat} {a : σ} {r : Result σ} (h : Ended p k cap a r)
    (hok : r.1 = .ok ()) : r.2.machine.phase = .done := by
  cases h with
  | finished _ hphase _ => exact hphase
  | capped _ _ _ _ => cases hok
  | unkept _ _ _ => cases hok

/-- A step leads a run on, or the run ends there. -/
theorem Standing.step (hp : p.Grounded) (h : Standing p k s) (hphase : s.machine.phase ≠ .done) :
    ((s.step p).1 = .ok () ∧ Standing p k (s.step p).2 ∧
      (s.step p).2.machine.cap = s.machine.cap ∧
      (s.step p).2.machine.steps = s.machine.steps + 1 ∧
      Store.Becomes s.store (s.step p).2.store) ∨
    ∃ e, (s.step p).1 = .error e ∧ Ended p k s.machine.cap s.store (s.step p) := by
  rcases acts_or_fails (h.reach.fits hp) hphase with ⟨m, w, asked, hacts, hturn⟩ |
    ⟨fault, hfails, hunkept⟩
  -- The work is done before the cap is looked at: a refused move leaves the worklist of the turn.
  · by_cases hcap : s.machine.steps < s.machine.cap
    · left
      obtain ⟨hok, -, hmachine, hwork, hrequests, htrail, hstore⟩ :=
        hacts.step_of_lt hturn.allows hcap
      refine ⟨hok, ⟨?_, ?_, ?_⟩, ?_, ?_, hstore⟩
      · rw [hmachine, hwork, hrequests, htrail, List.map_append]
        exact h.reach.turn hturn
      · rw [hmachine, htrail, List.length_append, ← h.steps]
        rfl
      · rw [hmachine]
        exact hcap
      · rw [hmachine]
      · rw [hmachine]
    · right
      have hfull := Nat.le_antisymm h.cap (Nat.not_lt.mp hcap)
      have hframe := hacts.frame
      have hreach : Reach p k (s.act p).2.machine.phase s.work
          ((s.act p).2.trail.checkpoints.map Checkpoint.undated) s.requests := by
        rw [hframe.machine, hframe.checkpoints]
        exact h.reach
      have hlast : Turn p s.work s.requests.length (s.act p).2.machine.phase m (s.act p).2.work
          asked := by
        rw [hframe.machine, hacts.work]
        exact hturn
      rw [hacts.step_of_le hturn.allows (Nat.not_lt.mp hcap), ← hframe.machine]
      refine ⟨_, rfl, .capped ?_ ?_ hreach hlast⟩
      · rw [hframe.machine, hfull]
      · rw [hframe.machine, hframe.checkpoints, h.steps]
  · right
    obtain ⟨herror, hframe, hwork, hrequests⟩ := hfails
    have hstanding : Standing p k (s.act p).2 := by
      refine ⟨?_, ?_, ?_⟩
      · rw [hframe.machine, hframe.checkpoints, hwork, hrequests]
        exact h.reach
      · rw [hframe.machine, hframe.checkpoints, h.steps]
      · rw [hframe.machine]
        exact h.cap
    rw [Fails.step ⟨herror, hframe, hwork, hrequests⟩]
    exact ⟨_, rfl, .unkept .same hunkept hstanding⟩

/-! ## Whole runs -/

/-- Enough steps bring a run to its end. -/
theorem Standing.drive (hp : p.Grounded) (fuel : Nat) (h : Standing p k s)
    (hfuel : moves k.size ≤ s.machine.steps + fuel) :
    Ended p k s.machine.cap s.store (s.drive p fuel) := by
  induction fuel generalizing s with
  | zero =>
      -- All moves of the catalog are made, and only a run that is done has made them all.
      have hdone : s.machine.phase = .done := by
        by_contra hphase
        have hlt := h.reach.length_lt hp hphase
        rw [List.length_map, ← h.steps] at hlt
        omega
      exact .finished rfl hdone h
  | succ fuel ih =>
      by_cases hdone : s.machine.phase = .done
      · rw [drive_of_done hdone]
        exact .finished rfl hdone h
      · rw [drive_succ hdone]
        have hstep := h.step hp hdone
        rcases hr : s.step p with ⟨answer, t⟩
        rw [hr] at hstep
        rcases hstep with ⟨hok, hstanding, hcap, hsteps, hstore⟩ | ⟨e, he, hended⟩
        · obtain rfl : answer = .ok () := hok
          have henough : moves k.size ≤ t.machine.steps + fuel := by
            rw [hsteps]
            omega
          rw [← hcap]
          exact (ih hstanding henough).of_becomes hstore
        · obtain rfl : answer = .error e := he
          exact hended

theorem Standing.step_of_ok (hp : p.Grounded) (h : Standing p k s)
    (hphase : s.machine.phase ≠ .done) (hok : (s.step p).1 = .ok ()) :
    Standing p k (s.step p).2 := by
  rcases h.step hp hphase with ⟨-, hstanding, -⟩ | ⟨e, he, -⟩
  · exact hstanding
  · cases he.symm.trans hok

/-- Any number of steps without an error leads to where turns lead to. -/
theorem Standing.drive_of_ok (hp : p.Grounded) (n : Nat) (h : Standing p k s)
    (hok : (s.drive p n).1 = .ok ()) : Standing p k (s.drive p n).2 :=
  drive_ok_induction (fun _ h => h.step_of_ok hp) n h hok

/-- Where what is due is kept, no fault of the store ends a step. -/
theorem Standing.step_ne_archive (hp : p.Grounded) (h : Standing p k s)
    (hphase : s.machine.phase ≠ .done) (hdelivers : s.Delivers p) (fault : Fault) :
    (s.step p).1 ≠ .error (.archive fault) := by
  intro herror
  rcases acts_or_fails (h.reach.fits hp) hphase with ⟨m, w, asked, hacts, hturn⟩ |
    ⟨found, -, hunkept⟩
  · by_cases hcap : s.machine.steps < s.machine.cap
    · rw [(hacts.step_of_lt hturn.allows hcap).ok] at herror
      cases herror
    · rw [hacts.step_of_le hturn.allows (Nat.not_lt.mp hcap)] at herror
      cases herror
  · exact hunkept.not_delivers hdelivers

theorem Standing.drive_ne_archive (hp : p.Grounded) (h : Standing p k s)
    (hdelivering : s.Delivering p) (n : Nat) (fault : Fault) :
    (s.drive p n).1 ≠ .error (.archive fault) := by
  induction n generalizing s with
  | zero =>
      intro herror
      cases herror
  | succ n ih =>
      by_cases hdone : s.machine.phase = .done
      · rw [drive_of_done hdone]
        intro herror
        cases herror
      · rw [drive_succ hdone]
        have hstep := h.step_ne_archive hp hdone hdelivering.delivers fault
        have hstanding := h.step_of_ok hp hdone
        rcases hr : s.step p with ⟨answer, t⟩
        rw [hr] at hstep hstanding
        cases answer with
        | error e => exact hstep
        | ok _ => exact ih (hstanding rfl) (hdelivering.step hdone hr)

/-- What every step from where a run stands preserves holds wherever the run ends. -/
theorem run_induction {q : Session σ → Prop} (hp : p.Grounded) {id : RunId} {clock : Clock}
    {store : σ} {tally : Tally} (hstart : q (start p k id clock store tally))
    (hstep : ∀ s, Standing p k s → s.machine.phase ≠ .done → q s → q (s.step p).2) :
    q (run p k id clock store tally).2 :=
  drive_induction (i := Standing p k) (fun _ h => h.step_of_ok hp) hstep (moves k.size)
    ⟨.start, rfl, Nat.zero_le _⟩ hstart

/-- How a run ends, whatever the assistant and the store do. -/
theorem run_ended (hp : p.Grounded) (k : Catalog) (id : RunId) (clock : Clock) (store : σ)
    (tally : Tally) :
    Ended p k (p.settings.stepCap k.size) store (run p k id clock store tally) :=
  Standing.drive (s := start p k id clock store tally) hp (moves k.size)
    ⟨.start, rfl, Nat.zero_le _⟩ (Nat.le_add_left _ _)

/-- A moment at which a run is not done comes before its last step. -/
theorem lt_moves_of_not_done (hp : p.Grounded) {id : RunId} {clock : Clock} {store : σ}
    {tally : Tally} {n : Nat} {t : Session σ}
    (ht : (start p k id clock store tally).drive p n = (.ok (), t))
    (hphase : t.machine.phase ≠ .done) : n < moves k.size := by
  by_contra hle
  obtain ⟨more, rfl⟩ := Nat.exists_eq_add_of_le (Nat.not_lt.mp hle)
  rw [drive_add] at ht
  have hended := run_ended hp k id clock store tally
  rw [run] at hended
  rcases hr : (start p k id clock store tally).drive p (moves k.size) with ⟨answer, u⟩
  rw [hr] at hended ht
  cases answer with
  | error e => cases ht
  | ok _ =>
      have hdone : u.machine.phase = .done := hended.phase_of_ok rfl
      have hlater : u.drive p more = (.ok (), t) := ht
      rw [drive_of_done hdone] at hlater
      cases hlater
      exact hphase hdone

/-- All that a run gives to its store for good is kept exactly if no fault of the store ends it. -/
theorem delivering_iff (hp : p.Grounded) (k : Catalog) (id : RunId) (clock : Clock) (store : σ)
    (tally : Tally) : (start p k id clock store tally).Delivering p ↔
      ∀ fault, (run p k id clock store tally).1 ≠ .error (.archive fault) := by
  constructor
  · intro h
    have hstart : Standing p k (start p k id clock store tally) := ⟨.start, rfl, Nat.zero_le _⟩
    exact hstart.drive_ne_archive hp h (moves k.size)
  · intro hrun n t ht
    by_contra hnot
    obtain ⟨b, fault, hunkept⟩ := exists_unkept hnot
    obtain ⟨rest, hrest⟩ := Nat.exists_eq_add_of_lt
      (lt_moves_of_not_done hp ht hunkept.not_done)
    apply hrun fault
    rw [run, hrest, Nat.add_assoc, drive_add, ht]
    dsimp only
    rw [drive_succ hunkept.not_done]
    have hstep := hunkept.step
    rcases hr : t.step p with ⟨answer, u⟩
    rw [hr] at hstep
    obtain rfl : answer = .error (.archive fault) := hstep
    rfl

/-- A run of checked settings ends when it is done, when its cap is reached, or where the store
did not keep the document or the drawing. No failure of the assistant ends it, and no checkpoint
or snapshot that was not kept. -/
theorem run_ends {settings : Settings} {graph : Option CallGraph} {answers : Assistant.Answering}
    (hp : Plan.ofSettings settings graph answers = .ok p) (k : Catalog) (id : RunId)
    (clock : Clock) (store : σ) (tally : Tally) :
    let r := run p k id clock store tally
    (r.1 = .ok () ∧ r.2.machine.phase = .done) ∨
    (∃ phase, r.1 = .error (.refused (.capReached (settings.stepCap k.size) phase))) ∨
    ∃ fault before, r.1 = .error (.archive fault) ∧ Store.Becomes store before ∧
      ((∃ text, Store.saveDocument before settings.output.documentName text =
          (.error fault, r.2.store)) ∨
        ∃ drawing, Store.saveDrawing before drawing = (.error fault, r.2.store)) := by
  have hended := run_ended (Plan.grounded_of_ofSettings hp) k id clock store tally
  obtain ⟨rfl, -⟩ := Plan.fields_of_ofSettings hp
  generalize run p k id clock store tally = r at hended
  cases hended with
  | finished _ hphase _ => exact .inl ⟨rfl, hphase⟩
  | capped _ _ _ _ => exact .inr (.inl ⟨_, rfl⟩)
  | @unkept s before fault hbecomes hunkept _ =>
      refine .inr (.inr ⟨fault, before.store, rfl, hbecomes, ?_⟩)
      cases hunkept with
      | document text _ h => exact .inl ⟨text, h⟩
      | drawing d _ h => exact .inr ⟨d, h⟩

/-- Where every call breaks off and nothing but the document is kept, a small run still goes on to
its cap. -/
theorem run_ends_small :
    ∃ phase, (run (.small (fun _ _ => .panic "lost") (some 5)) .small default default
      { failCheckpoints := true, failSnapshots := true : Shelf } {}).1 =
        .error (.refused (.capReached 5 phase)) := by
  have hp := Plan.ofSettings_small (fun _ _ => .panic "lost") (some 5) (by decide)
  rcases run_ends hp .small default default
    { failCheckpoints := true, failSnapshots := true : Shelf } {} with
    ⟨-, hdone⟩ | hcapped | ⟨fault, before, -, -, ⟨text, hsave⟩ | ⟨drawing, hsave⟩⟩
  · have hphase : (run (.small (fun _ _ => .panic "lost") (some 5)) .small default default
        { failCheckpoints := true, failSnapshots := true : Shelf } {}).2.machine.phase =
          .filtering := by
      decide +kernel
    cases hphase.symm.trans hdone
  · exact hcapped
  · have hkept := before.saveDocument_isOk Settings.small.output.documentName text
    rw [hsave] at hkept
    cases hkept
  · have hkept := before.saveDrawing_isOk drawing
    rw [hsave] at hkept
    cases hkept

end Session

end Run

end Scriptorium
