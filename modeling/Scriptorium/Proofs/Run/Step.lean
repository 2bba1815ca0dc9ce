import Scriptorium.Proofs.Run.Act

/-! # Steps

A step is the work of a phase with the move that it asks for. Below the cap the move is made and
its checkpoint is kept; at the cap it is refused, and what the work has done by then stays done.
Any number of steps can be cut in two anywhere, and what every step preserves they preserve.
-/

namespace Scriptorium

namespace Run

open Archive

/-- What the checkpoint of a move tells of the worklist, apart from run and time. -/
def recorded (w : Worklist) (m : Move) : Checkpoint where
  run := default
  time := default
  operation := m.operation
  phase := m.target.name
  component := w.currentName
  decision := m.outcome.map fun o => Session.verdictName o.verdict
  reason := m.outcome.map fun o => o.reason.message
  counts := w.counts
  selected := w.targets
  lengths := w.manuscript.lengths
  extent := w.model.extent

namespace Session

variable {σ : Type} [Store σ] {p : Plan} {s : Session σ} {m : Move} {w : Worklist}
  {asked : List Assistant.Request}

/-- A step moves: the worklist and the requests after it and the checkpoint that it adds. -/
structure Steps (p : Plan) (s : Session σ) (m : Move) (w : Worklist)
    (asked : List Assistant.Request) : Prop where
  ok : (s.step p).1 = .ok ()
  id : (s.step p).2.id = s.id
  machine : (s.step p).2.machine = ⟨s.machine.cap, m.target, s.machine.steps + 1⟩
  work : (s.step p).2.work = w
  requests : (s.step p).2.requests = s.requests ++ asked
  checkpoints : (s.step p).2.trail.checkpoints = s.trail.checkpoints ++
    [{ recorded w m with run := s.id, time := (s.act p).2.now }]
  store : Store.Becomes s.store (s.step p).2.store

/-- A step leaves a run as its work does, or moves it then and keeps a checkpoint. -/
theorem step_cases (p : Plan) (s : Session σ) : (s.step p).2 = (s.act p).2 ∨
    ∃ m machine, (s.step p).2 = { (s.act p).2 with machine := machine }.keepCheckpoint m := by
  unfold step
  rcases s.act p with ⟨answer, t⟩
  cases answer with
  | error e => exact .inl rfl
  | ok m =>
      simp only [advance]
      cases t.machine.advance m.target with
      | error r => exact .inl rfl
      | ok machine => exact .inr ⟨m, machine, rfl⟩

/-- A step that succeeds is work, and then the move that it asks for. -/
theorem step_eq_ok {t : Session σ} (h : s.step p = (.ok (), t)) :
    ∃ m u machine, s.act p = (.ok m, u) ∧ u.machine.advance m.target = .ok machine ∧
      t = { u with machine := machine }.keepCheckpoint m := by
  unfold step at h
  rcases hact : s.act p with ⟨answer, u⟩
  rw [hact] at h
  cases answer with
  | error e => cases h
  | ok m =>
      simp only [advance] at h
      cases hadvance : u.machine.advance m.target with
      | error r =>
          rw [hadvance] at h
          cases h
      | ok machine =>
          rw [hadvance] at h
          exact ⟨m, u, machine, rfl, hadvance, (Prod.mk.inj h).2.symm⟩

theorem Acts.step_of_lt (h : Acts p s m w asked)
    (hallows : s.machine.phase.allows m.target = true)
    (hcap : s.machine.steps < s.machine.cap) : Steps p s m w asked := by
  have hadvance : s.machine.advance m.target =
      .ok ⟨s.machine.cap, m.target, s.machine.steps + 1⟩ := by
    simp [Machine.advance, Machine.request, hallows, Nat.not_le.mpr hcap]
  obtain ⟨t, ht⟩ : ∃ t, s.act p = (.ok m, t) := ⟨(s.act p).2, Prod.ext h.move rfl⟩
  obtain ⟨-, hframe, hwork, hreq⟩ := h
  simp only [ht] at hframe hwork hreq
  have hstep : s.step p = (.ok (),
      { t with machine := ⟨s.machine.cap, m.target, s.machine.steps + 1⟩ }.keepCheckpoint m) := by
    simp only [step, ht, advance, hframe.machine, hadvance]
  constructor <;> rw [hstep]
  · exact hframe.id
  · rfl
  · exact hwork
  · exact hreq
  · simp only [keepCheckpoint, Trail.withCheckpoint, checkpoint, now, recorded, hframe.checkpoints,
      hframe.id, ht, ← hwork]
  · exact hframe.store.trans (.checkpoint _ .same)

theorem Acts.step_of_le (h : Acts p s m w asked)
    (hallows : s.machine.phase.allows m.target = true)
    (hcap : s.machine.cap ≤ s.machine.steps) :
    s.step p =
      (.error (.refused (.capReached s.machine.cap s.machine.phase)), (s.act p).2) := by
  have hadvance : s.machine.advance m.target =
      .error (.capReached s.machine.cap s.machine.phase) := by
    simp [Machine.advance, Machine.request, hallows, hcap]
  obtain ⟨t, ht⟩ : ∃ t, s.act p = (.ok m, t) := ⟨(s.act p).2, Prod.ext h.move rfl⟩
  have hmachine := h.frame.machine
  simp only [ht] at hmachine
  simp only [step, ht, advance, hmachine, hadvance]

/-- Whether its move is made or refused, the work of a step stays done. -/
theorem Acts.step_work (h : Acts p s m w asked)
    (hallows : s.machine.phase.allows m.target = true) : (s.step p).2.work = w := by
  by_cases hcap : s.machine.steps < s.machine.cap
  · exact (h.step_of_lt hallows hcap).work
  · rw [h.step_of_le hallows (Nat.not_lt.mp hcap)]
    exact h.work

theorem Fails.step {fault : Fault} (h : Fails p s fault) :
    s.step p = (.error (.archive fault), (s.act p).2) := by
  obtain ⟨t, ht⟩ : ∃ t, s.act p = (.error (.archive fault), t) :=
    ⟨(s.act p).2, Prod.ext h.error rfl⟩
  simp only [Session.step, ht]

/-! ## Any number of steps -/

theorem drive_of_done (h : s.machine.phase = .done) (n : Nat) : s.drive p n = (.ok (), s) := by
  cases n with
  | zero => rfl
  | succ n =>
      unfold drive
      rw [if_pos (by simp [Phase.terminal, h])]

theorem drive_succ (h : s.machine.phase ≠ .done) (n : Nat) :
    s.drive p (n + 1) = match s.step p with
      | (.error e, t) => (.error e, t)
      | (.ok (), t) => t.drive p n :=
  if_neg (by simpa [Phase.terminal] using h)

/-- A run can be cut at any moment. -/
theorem drive_add (a b : Nat) (s : Session σ) :
    s.drive p (a + b) = match s.drive p a with
      | (.error e, t) => (.error e, t)
      | (.ok (), t) => t.drive p b := by
  induction a generalizing s with
  | zero => rw [Nat.zero_add, drive]
  | succ a ih =>
      by_cases hdone : s.machine.phase = .done
      · simp only [drive_of_done hdone]
      · rw [Nat.succ_add, drive_succ hdone, drive_succ hdone]
        rcases s.step p with ⟨answer, t⟩
        cases answer with
        | error e => rfl
        | ok _ => exact ih t

/-- A run that is done at some moment has met no error before it and does nothing after it. -/
theorem drive_of_finished {a : Nat} (hok : (s.drive p a).1 = .ok ())
    (hdone : (s.drive p a).2.machine.phase = .done) (n : Nat) :
    (s.drive p n).1 = .ok () ∧ (s.drive p (a + n)) = s.drive p a := by
  have hlater : s.drive p (a + n) = s.drive p a := by
    rw [drive_add]
    rcases hr : s.drive p a with ⟨answer, t⟩
    rw [hr] at hok hdone
    obtain rfl : answer = .ok () := hok
    exact drive_of_done hdone n
  refine ⟨?_, hlater⟩
  have hback : s.drive p (n + a) = s.drive p a := by rw [Nat.add_comm, hlater]
  rw [drive_add] at hback
  rcases hr : s.drive p n with ⟨answer, t⟩
  cases answer with
  | ok _ => rfl
  | error e =>
      rw [hr] at hback
      rw [← hback] at hok
      cases hok

/-- What every step that succeeds preserves holds after any number of steps without an error. -/
theorem drive_ok_induction {q : Session σ → Prop}
    (hstep : ∀ s, q s → s.machine.phase ≠ .done → (s.step p).1 = .ok () → q (s.step p).2) (n : Nat)
    (hs : q s) (hok : (s.drive p n).1 = .ok ()) : q (s.drive p n).2 := by
  induction n generalizing s with
  | zero => exact hs
  | succ n ih =>
      by_cases hdone : s.machine.phase = .done
      · rw [drive_of_done hdone]
        exact hs
      · rw [drive_succ hdone] at hok ⊢
        have hnext := hstep s hs hdone
        rcases hr : s.step p with ⟨answer, t⟩
        rw [hr] at hnext hok
        cases answer with
        | error e => cases hok
        | ok _ => exact ih (hnext rfl) hok

/-- What every step preserves holds after any number of steps, also where an error ends them; `i` is
what may be assumed of a run before each step. -/
theorem drive_induction {i q : Session σ → Prop}
    (hi : ∀ s, i s → s.machine.phase ≠ .done → (s.step p).1 = .ok () → i (s.step p).2)
    (hstep : ∀ s, i s → s.machine.phase ≠ .done → q s → q (s.step p).2) (n : Nat) (h : i s)
    (hs : q s) : q (s.drive p n).2 := by
  induction n generalizing s with
  | zero => exact hs
  | succ n ih =>
      by_cases hdone : s.machine.phase = .done
      · rw [drive_of_done hdone]
        exact hs
      · rw [drive_succ hdone]
        have hnext := hstep s h hdone hs
        have hassumed := hi s h hdone
        rcases hr : s.step p with ⟨answer, t⟩
        rw [hr] at hnext hassumed
        cases answer with
        | error e => exact hnext
        | ok _ => exact ih (hassumed rfl) hnext

end Session

end Run

end Scriptorium
