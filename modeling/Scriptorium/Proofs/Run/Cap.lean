import Scriptorium.Proofs.Run.Ending
import Scriptorium.Proofs.Run.Steady

/-! # Caps

A cap cuts a run off and changes nothing before the cut. The run that has no cap of its own takes
four moves for each accepted component, three for each rejected one and three to close; its
derived cap is never in the way.
-/

namespace Scriptorium

namespace Run

open Archive

namespace Session

variable {σ τ : Type} [Store σ] [Store τ] {p q : Plan} {k : Catalog}

/-- The run of a plan whose cap is out of the way is done at the end. -/
theorem Ended.finished_of_moves_le (hp : p.Grounded) {cap : Nat} {a : σ} {r : Result σ}
    (h : Ended p k cap a r) (hkept : ∀ fault, r.1 ≠ .error (.archive fault))
    (hcap : moves k.size ≤ cap) :
    r.1 = .ok () ∧ r.2.machine.phase = .done ∧ Standing p k r.2 ∧ r.2.machine.steps ≤ cap := by
  cases h with
  | finished hcap hphase hstanding => exact ⟨rfl, hphase, hstanding, hcap ▸ hstanding.cap⟩
  | @capped s _ _ _ _ hfull hsteps hreach hturn =>
      have hlt := hreach.length_lt hp hturn.not_done
      rw [List.length_map, ← hsteps, hfull] at hlt
      omega
  | unkept _ _ _ => exact absurd rfl (hkept _)

/-- A run whose store keeps what is due, and whose cap is out of the way, is done at the end. -/
theorem run_done (hp : p.Grounded) {id : RunId} {clock : Clock} {store : σ} {tally : Tally}
    (hdelivering : (start p k id clock store tally).Delivering p)
    (hcap : moves k.size ≤ p.settings.stepCap k.size) :
    let r := run p k id clock store tally
    r.1 = .ok () ∧ r.2.machine.phase = .done ∧ Standing p k r.2 ∧
      r.2.machine.steps ≤ p.settings.stepCap k.size :=
  (run_ended hp k id clock store tally).finished_of_moves_le hp
    ((delivering_iff hp k id clock store tally).mp hdelivering) hcap

/-- A shelf lets every run be done whose cap is out of the way. -/
theorem run_ok_of_shelf (hp : p.Grounded) (k : Catalog) (id : RunId) (clock : Clock)
    (shelf : Shelf) (tally : Tally) (hcap : moves k.size ≤ p.settings.stepCap k.size) :
    (run p k id clock shelf tally).1 = .ok () :=
  (run_done hp (delivering_of_shelf p _) hcap).1

/-- How a run ends does not depend on the cap in its settings, only on the cap itself. -/
theorem Ended.of_withCap {o : Option Nat} {cap : Nat} {a : σ} {r : Result σ}
    (h : Ended (p.withCap o) k cap a r) : Ended p k cap a r := by
  cases h with
  | finished hcap hphase hstanding =>
      exact .finished hcap hphase
        ⟨hstanding.reach.of_withCap, hstanding.steps, hstanding.cap⟩
  | capped hcap hsteps hreach hturn =>
      exact .capped hcap hsteps hreach.of_withCap hturn.of_withCap
  | unkept hbecomes hunkept hstanding =>
      refine .unkept hbecomes ?_ ⟨hstanding.reach.of_withCap, hstanding.steps, hstanding.cap⟩
      cases hunkept with
      | document text hdue h => exact .document text hdue h
      | drawing d hdue h => exact .drawing d hdue h

end Session

end Run

end Scriptorium
