import Scriptorium.CommandLine.Program
import Scriptorium.Proofs.Run.Cap
import Scriptorium.Proofs.Run.Judging

/-! # Inspection and runs

Inspection prints the verdict of the local rules on each component, and a question mark where they
say nothing. A run over the same settings asks about exactly the components with a question mark
and keeps the printed verdicts on all others.
-/

namespace Scriptorium.CommandLine

open Archive Run Session

variable {p : Plan} {sieve : Triage.Sieve} {c : Component}

/-! ## Lines -/

def lineOf (c : Component) (verdict reason : String) : String :=
  padRight 8 verdict ++ " " ++ c.name ++ "  (" ++ reason ++ ")\n"

def questioned (sieve : Triage.Sieve) (c : Component) : Bool :=
  (verdictLine sieve c).toList.head? = some '?'

theorem verdictLine_of_decided {o : Triage.Outcome} (h : sieve.judge? c = some o) :
    verdictLine sieve c = lineOf c (verdictName o.verdict) o.reason.message := by
  unfold verdictLine
  rw [h]
  rfl

theorem verdictLine_of_open (h : sieve.judge? c = none) :
    verdictLine sieve c = lineOf c "?" "classifier" := by
  unfold verdictLine
  rw [h]
  simp [lineOf, String.append_assoc]

theorem head?_lineOf {verdict reason : String} {a : Char} (h : verdict.toList.head? = some a) :
    (lineOf c verdict reason).toList.head? = some a := by
  simp [lineOf, padRight, h]

/-- Exactly the components that the local rules leave open are questioned. -/
theorem questioned_eq (sieve : Triage.Sieve) (c : Component) :
    questioned sieve c = (sieve.judge? c).isNone := by
  unfold questioned
  cases h : sieve.judge? c with
  | some o =>
      have hverdict : (verdictName o.verdict).toList.head? ≠ some '?' := by
        cases o.verdict <;> decide
      obtain ⟨a, ha⟩ : ∃ a, (verdictName o.verdict).toList.head? = some a := by
        cases o.verdict <;> exact ⟨_, rfl⟩
      rw [verdictLine_of_decided h, head?_lineOf ha, ← ha, decide_eq_false hverdict]
      rfl
  | none =>
      rw [verdictLine_of_open h, head?_lineOf (rfl : "?".toList.head? = some '?')]
      rfl

theorem inspect_of_catalog {w : World} {s : Settings} {path : String} {k : Catalog}
    (hk : catalogOf w path = .ok k) (hs : Triage.Sieve.ofRules s.triage = .ok sieve) :
    inspect w s path = .ok { exit := 0,
                             out := String.join (k.components.map (verdictLine sieve)),
                             tree := w.tree } := by
  unfold inspect
  rw [hk, hs]
  rfl

/-! ## Runs -/

/-- A checkpoint of a verdict, against the line about its component: unless it is questioned, the
line tells what the checkpoint tells. -/
structure Foretold (sieve : Triage.Sieve) (c : Component) (x : Checkpoint) : Prop where
  component : x.component = some c.name
  line : questioned sieve c = false → ∃ verdict reason, x.decision = some verdict ∧
    x.reason = some reason ∧ verdictLine sieve c = lineOf c verdict reason

variable {σ : Type} [Store σ]

omit [Store σ] in
theorem foretold_of_tells {x : Checkpoint} (h : p.Tells c x.undated) :
    Foretold p.sieve c x where
  component := h.component
  line hdecided := by
    rw [questioned_eq] at hdecided
    obtain ⟨o, ho⟩ := Option.isSome_iff_exists.mp (Option.isNone_eq_false_iff.mp hdecided)
    obtain ⟨hdecision, hreason⟩ := h.told o ho
    exact ⟨_, _, hdecision, hreason, verdictLine_of_decided ho⟩

/-- A completed run asks about the questioned components, once each and in order, and its
checkpoints tell the verdicts on the others as they are printed. -/
theorem run_foretold (hp : p.Grounded) {k : Catalog} {id : RunId} {clock : Clock} {store : σ}
    {tally : Tally} (hok : (run p k id clock store tally).1 = .ok ()) :
    (run p k id clock store tally).2.requests.filter (·.task = .filter) =
        (k.components.filter (questioned p.sieve)).map p.question ∧
      List.Forall₂ (Foretold p.sieve) k.components
        ((run p k id clock store tally).2.trail.checkpoints.filter (·.operation = "filter")) := by
  have hreach := (run_ended hp k id clock store tally).reach_of_ok hok
  obtain ⟨-, hasked, htold⟩ := hreach.judged_of_done
  refine ⟨?_, ?_⟩
  · have hopen : questioned p.sieve = fun c => (p.sieve.judge? c).isNone :=
      funext (questioned_eq p.sieve)
    rw [hasked, hopen]
    rfl
  · rw [List.filter_map, List.forall₂_map_right_iff] at htold
    exact htold.imp fun _ _ => foretold_of_tells

/-- Settings whose name patterns can be read. At any moment of a run a component is judged by the
policy; its line asks exactly where the run does, and says how it is judged otherwise; and a
completed run over a catalog goes by the lines that inspection prints for it. -/
theorem inspect_as_judged (hp : Triage.Sieve.ofRules p.settings.triage = .ok p.sieve) :
    (∀ (s : Session σ) (c : Component), ByPolicy p s c ∧
      verdictLine p.sieve c =
        if (judge p s c).1.reason.asked then lineOf c "?" "classifier"
        else lineOf c (verdictName (judge p s c).1.verdict) (judge p s c).1.reason.message) ∧
    (∀ w path k, catalogOf w path = .ok k →
      inspect w p.settings path = .ok { exit := 0,
                                        out := String.join (k.components.map (verdictLine p.sieve)),
                                        tree := w.tree }) ∧
    ∀ k id clock (store : σ) tally, Plan.ofSettings p.settings p.graph p.answers = .ok p →
      (run p k id clock store tally).1 = .ok () →
        (run p k id clock store tally).2.requests.filter (·.task = .filter) =
            (k.components.filter (questioned p.sieve)).map p.question ∧
          List.Forall₂ (Foretold p.sieve) k.components
            ((run p k id clock store tally).2.trail.checkpoints.filter
              (·.operation = "filter")) := by
  refine ⟨fun s c => ⟨judge_byPolicy hp s c, ?_⟩, fun w path k hk => inspect_of_catalog hk hp,
    fun k id clock store tally hplan hok =>
      run_foretold (Plan.grounded_of_ofSettings hplan) hok⟩
  cases hjudge : p.sieve.judge? c with
  | some o =>
      obtain ⟨rule, -, hholds⟩ := (Triage.Sieve.judge?_eq_some_iff hp).mp hjudge
      rw [verdictLine_of_decided hjudge, judge_of_decided hjudge, hholds.not_asked]
      rfl
  | none =>
      obtain ⟨houtcome, -⟩ := judge_of_open (s := s) hjudge
      have hasked := (Triage.ofReply_eq_iff.mp houtcome.symm).asked
      rw [verdictLine_of_open hjudge, hasked]
      rfl

def undecided : Catalog where
  components := [⟨"Lexer", "It parses words.", none⟩, ⟨"Index", "Reads lines.", none⟩,
    ⟨"Blank", "", none⟩]
  distinct := by decide

/-- The component with a question mark is the one that is asked about. -/
theorem inspect_as_judged_small :
    ∃ r, r = run (.small (.steady fun _ => .ok "Skip it.") none) undecided default default
        ({} : Shelf) {} ∧
      r.2.requests.filter (·.task = .filter) = [Plan.question
        (.small (.steady fun _ => .ok "Skip it.") none) ⟨"Index", "Reads lines.", none⟩] ∧
      undecided.components.map (verdictLine ⟨Settings.small.triage, []⟩) =
        ["accept   Lexer  (1 substantial keywords)\n", "?        Index  (classifier)\n",
          "reject   Blank  (only 0 words)\n"] ∧
      (r.2.trail.checkpoints.filter (·.operation = "filter")).map (·.decision) =
        [some "accept", some "reject", some "reject"] := by
  have hp := Plan.ofSettings_small (.steady fun _ => .ok "Skip it.") none (by decide)
  have hok := run_ok_of_shelf (Plan.grounded_of_ofSettings hp) undecided default default {} {}
    (by decide)
  obtain ⟨-, -, hrun⟩ := inspect_as_judged (σ := Shelf)
    (p := .small (.steady fun _ => .ok "Skip it.") none) rfl
  obtain ⟨hasked, -⟩ := hrun undecided default default {} {} hp hok
  refine ⟨_, rfl, hasked.trans ?_, ?_, ?_⟩
  · decide +kernel
  · decide +kernel
  · decide +kernel

end Scriptorium.CommandLine
