import Mathlib.Data.List.Chain
import Scriptorium.Run.Phase

/-! # Requests to a machine

A machine answers requests for phases one after the other, and what one request does is told once.
Over any requests the granted phases lead along the table of moves. Three moves belong to a
component that is rejected and four to one that is processed, so each phase is a fixed number of
moves ahead of those that the components counted so far take: that is the invariant, in one form for
all phases.
-/

namespace Scriptorium.Run

namespace Phase

inductive Leads : Phase → Phase → Prop where
  | load : Leads loading filtering
  | close : Leads loading compiling
  | reject : Leads filtering rejected
  | accept : Leads filtering selecting
  | dismiss : Leads rejected loading
  | place : Leads selecting processing
  | finish : Leads processing loading
  | compile : Leads compiling finalizing
  | finalize : Leads finalizing done

theorem allows_iff_leads {p q : Phase} : p.allows q = true ↔ Leads p q := by
  constructor
  · intro h
    cases p <;> cases q <;> first | constructor | exact absurd h (by decide)
  · intro h
    cases h <;> rfl

namespace Leads

variable {p : Phase}

theorem eq_finalizing (h : Leads compiling p) : p = finalizing := by
  cases h
  rfl

theorem eq_done (h : Leads finalizing p) : p = done := by
  cases h
  rfl

theorem eq_compiling (h : Leads p finalizing) : p = compiling := by
  cases h
  rfl

end Leads

/-- The moves made when a phase is entered, less those of the components that were rejected or
processed by then. In these two phases the component is counted before its last move. -/
def ahead : Phase → Int
  | loading => 0
  | filtering => 1
  | rejected => -1
  | selecting => 2
  | processing => -1
  | compiling => 1
  | finalizing => 2
  | done => 3

def unsettled : Phase → Nat
  | filtering | selecting => 1
  | _ => 0

end Phase

namespace Machine

/-! ## One request -/

/-- All that a request can do. -/
inductive Requested (m : Machine) (target : Phase) : Except Refusal Unit × Machine → Prop where
  | granted (h : m.phase.Leads target) (hcap : m.steps < m.cap) :
      Requested m target (.ok (), ⟨m.cap, target, m.steps + 1⟩)
  | notAllowed (h : ¬ m.phase.Leads target) :
      Requested m target (.error (.notAllowed m.phase target), m)
  | capReached (h : m.phase.Leads target) (hcap : m.cap ≤ m.steps) :
      Requested m target (.error (.capReached m.cap m.phase), m)

theorem request_requested (m : Machine) (target : Phase) :
    Requested m target (m.request target) := by
  unfold request
  by_cases hallows : m.phase.allows target = true
  · have hleads := Phase.allows_iff_leads.mp hallows
    by_cases hcap : m.cap ≤ m.steps
    · simp only [hallows, Bool.not_true, Bool.false_eq_true, if_false, if_pos hcap]
      exact .capReached hleads hcap
    · simp only [hallows, Bool.not_true, Bool.false_eq_true, if_false, if_neg hcap]
      exact .granted hleads (Nat.lt_of_not_le hcap)
  · simp only [Bool.eq_false_iff.mpr hallows, Bool.not_false, if_true]
    exact .notAllowed (mt Phase.allows_iff_leads.mpr hallows)

theorem advance_eq_ok {m n : Machine} {target : Phase} (h : m.advance target = .ok n) :
    m.phase.Leads target ∧ n.phase = target := by
  have hrequested := request_requested m target
  unfold advance at h
  generalize m.request target = answer at h hrequested
  cases hrequested with
  | granted hleads hcap =>
      cases h
      exact ⟨hleads, rfl⟩
  | notAllowed => cases h
  | capReached => cases h

/-! ## Many requests -/

def requestAll (m : Machine) : List Phase → List (Except Refusal Unit) × Machine
  | [] => ([], m)
  | target :: targets =>
    ((m.request target).1 :: ((m.request target).2.requestAll targets).1,
      ((m.request target).2.requestAll targets).2)

def granted (m : Machine) (targets : List Phase) : List Phase :=
  ((targets.zip (m.requestAll targets).1).filter (·.2.isOk)).map (·.1)

theorem granted_cons (m : Machine) (target : Phase) (targets : List Phase) :
    m.granted (target :: targets) =
      (if (m.request target).1.isOk then [target] else []) ++
        (m.request target).2.granted targets := by
  unfold granted
  rw [requestAll, List.zip_cons_cons, List.filter_cons]
  split <;> rfl

/-- What holds of a machine that came this way from its start. -/
structure Counted (m : Machine) (way : List Phase) : Prop where
  steps : m.steps = way.length
  capped : m.steps ≤ m.cap
  path : (Phase.loading :: way).IsChain Phase.Leads
  here : (Phase.loading :: way).getLast? = some m.phase
  weighed : (m.steps : Int) = 3 * way.count .rejected + 4 * way.count .processing + m.phase.ahead
  filtered : way.count .filtering = way.count .rejected + way.count .processing + m.phase.unsettled

theorem counted_start (cap : Nat) : Counted { cap := cap } [] :=
  ⟨rfl, Nat.zero_le _, .singleton _, rfl, rfl, rfl⟩

variable {m : Machine} {way : List Phase}

theorem Counted.step (h : Counted m way) {target : Phase} (hleads : m.phase.Leads target)
    (hcap : m.steps < m.cap) : Counted ⟨m.cap, target, m.steps + 1⟩ (way ++ [target]) := by
  obtain ⟨hsteps, -, hpath, hhere, hweighed, hfiltered⟩ := h
  obtain ⟨cap, phase, steps⟩ := m
  refine ⟨by simpa using hsteps, hcap, ?_, ?_, ?_, ?_⟩
  · refine List.isChain_append.mpr ⟨hpath, .singleton _, fun last hlast next hnext => ?_⟩
    obtain rfl : phase = last := Option.some.inj (hhere.symm.trans hlast)
    obtain rfl : target = next := Option.some.inj hnext
    exact hleads
  · rw [← List.cons_append, List.getLast?_concat]
  · simp only [List.count_append, List.count_singleton]
    cases hleads <;> simp [Phase.ahead] at hweighed ⊢ <;> omega
  · simp only [List.count_append, List.count_singleton]
    cases hleads <;> simp [Phase.unsettled] at hfiltered ⊢ <;> omega

theorem Counted.requestAll (h : Counted m way) (targets : List Phase) :
    Counted (m.requestAll targets).2 (way ++ m.granted targets) := by
  induction targets generalizing m way with
  | nil => simpa [Machine.requestAll, granted] using h
  | cons target targets ih =>
      have hrequest := request_requested m target
      rw [Machine.requestAll, granted_cons]
      generalize m.request target = answer at hrequest ⊢
      cases hrequest with
      | granted hleads hcap =>
          have hstep := ih (h.step hleads hcap)
          rwa [List.append_assoc] at hstep
      | notAllowed => exact ih h
      | capReached => exact ih h

theorem requestAll_cap (m : Machine) (targets : List Phase) :
    (m.requestAll targets).2.cap = m.cap := by
  induction targets generalizing m with
  | nil => rfl
  | cons target targets ih =>
      have hrequest := request_requested m target
      rw [Machine.requestAll]
      generalize m.request target = answer at hrequest ⊢
      cases hrequest <;> exact ih _

/-- Nothing leads out of the last phase. -/
theorem requestAll_of_done (h : m.phase = .done) (targets : List Phase) :
    m.requestAll targets = (targets.map fun t => .error (.notAllowed .done t), m) := by
  have hrefused (target : Phase) : m.request target = (.error (.notAllowed .done target), m) := by
    have hrequest := request_requested m target
    generalize m.request target = answer at hrequest ⊢
    cases hrequest with
    | granted hleads => rw [h] at hleads; cases hleads
    | notAllowed => rw [h]
    | capReached hleads => rw [h] at hleads; cases hleads
  induction targets with
  | nil => rfl
  | cons target targets ih => rw [requestAll, hrefused, ih, List.map_cons]

/-- After any requests, the next one is granted or leaves the machine as it is, by the table first
and then by the cap. The steps count the phases that were granted; these are a path of the table,
and at loading and at the end they fix the number of steps. The last phase is left no more. -/
theorem requests_counted (cap : Nat) (targets : List Phase) :
    let m := (requestAll { cap := cap } targets).2
    let way := granted { cap := cap } targets
    m.cap = cap ∧ (∀ target, Requested m target (m.request target)) ∧
    m.steps = way.length ∧ m.steps ≤ cap ∧
    (Phase.loading :: way).IsChain (fun p q => p.allows q = true) ∧
    (Phase.loading :: way).getLast? = some m.phase ∧
    (m.phase = .loading →
      m.steps = 3 * way.count .rejected + 4 * way.count .processing ∧
      way.count .filtering = way.count .rejected + way.count .processing) ∧
    (m.phase = .done →
      m.steps = 3 * way.count .rejected + 4 * way.count .processing + 3 ∧
      ∀ more, m.requestAll more = (more.map fun t => .error (.notAllowed .done t), m)) := by
  intro m way
  have hcap : m.cap = cap := requestAll_cap _ targets
  have hcounted : Counted m way := (counted_start cap).requestAll targets
  obtain ⟨hsteps, hcapped, hpath, hhere, hweighed, hfiltered⟩ := hcounted
  refine ⟨hcap, request_requested m, hsteps, hcap ▸ hcapped, ?_, hhere, fun hloading => ?_,
    fun hdone => ⟨?_, requestAll_of_done hdone⟩⟩
  · exact hpath.imp fun _ _ => Phase.allows_iff_leads.mpr
  · rw [hloading] at hweighed hfiltered
    simp only [Phase.ahead, Phase.unsettled] at hweighed hfiltered
    exact ⟨by omega, hfiltered⟩
  · rw [hdone] at hweighed
    simp only [Phase.ahead] at hweighed
    omega

/-- A request that the table refuses, then one that the cap refuses. -/
example : requestAll { cap := 3 } [.filtering, .done, .rejected, .loading, .filtering] =
    ([.ok (), .error (.notAllowed .filtering .done), .ok (), .ok (),
        .error (.capReached 3 .loading)],
      ⟨3, .loading, 3⟩) := by
  rfl

end Machine

end Scriptorium.Run
