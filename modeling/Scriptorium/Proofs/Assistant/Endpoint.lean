import Scriptorium.Assistant.Endpoint
import Scriptorium.Proofs.Settings

/-! # Attempts of a call

A call ends with the first outcome that another attempt cannot mend, or when the retries are used
up. It is the call that plain numbers describe if and only if the numbers of the endpoint fit their
widths; the check of settings lets every endpoint pass.
-/

namespace Scriptorium.Assistant

def settles : Except Failure String → Bool
  | .ok _ => true
  | .error f => !f.retryable

/-- The last attempt of a call that goes on with attempt `n` and has `left` retries: the first of
attempts `n` to `n + left` that settles the call, or attempt `n + left` if none does. -/
def lastAttempt (outcome : Nat → Except Failure String) (left n : Nat) : Nat :=
  ((List.range' n (left + 1)).find? fun i => settles (outcome i)).getD (n + left)

def callSteps (pause : Nat → Nat) (n k : Nat) : List CallStep :=
  ((List.range' n (k - n)).flatMap fun i => [.attempt i, .pause (pause i)]) ++ [.attempt k]

def CallStep.pause? : CallStep → Option Nat
  | .attempt _ => none
  | .pause ms => some ms

variable {outcome : Nat → Except Failure String} {left n k : Nat}

/-! ## The last attempt -/

theorem lastAttempt_of_settles (h : settles (outcome n) = true) :
    lastAttempt outcome left n = n := by
  simp [lastAttempt, List.range'_succ, h]

theorem lastAttempt_zero : lastAttempt outcome 0 n = n := by
  cases h : settles (outcome n) <;> simp [lastAttempt, h]

theorem lastAttempt_succ (h : settles (outcome n) = false) :
    lastAttempt outcome (left + 1) n = lastAttempt outcome left (n + 1) := by
  have hend : n + (left + 1) = n + 1 + left := by omega
  simp only [lastAttempt, hend]
  rw [List.range'_succ, List.find?_cons_of_neg (by simp [h])]

theorem lastAttempt_mem :
    n ≤ lastAttempt outcome left n ∧ lastAttempt outcome left n ≤ n + left := by
  unfold lastAttempt
  cases h : (List.range' n (left + 1)).find? fun i => settles (outcome i) with
  | none => exact ⟨Nat.le_add_right n left, Nat.le_refl _⟩
  | some k =>
      obtain ⟨hle, hlt⟩ := List.mem_range'_1.mp (List.mem_of_find?_eq_some h)
      exact ⟨hle, Nat.le_of_lt_succ hlt⟩

/-- When no attempt settles a call, all its retries are used. -/
theorem lastAttempt_of_unsettled (h : ∀ i, settles (outcome i) = false) :
    lastAttempt outcome left n = n + left := by
  have hnone : ((List.range' n (left + 1)).find? fun i => settles (outcome i)) = none :=
    List.find?_eq_none.mpr fun i _ => by simp [h]
  rw [lastAttempt, hnone, Option.getD_none]

/-! ## The steps of a call -/

section Steps

variable {p q : Nat → Nat}

theorem callSteps_self : callSteps p n n = [.attempt n] := by
  simp [callSteps]

theorem callSteps_of_lt (h : n < k) :
    callSteps p n k = .attempt n :: .pause (p n) :: callSteps p (n + 1) k := by
  have hlen : k - n = (k - (n + 1)) + 1 := by omega
  simp [callSteps, hlen, List.range'_succ]

theorem getLast?_callSteps : (callSteps p n k).getLast? = some (.attempt k) := by
  simp [callSteps]

theorem pauses_callSteps :
    (callSteps p n k).filterMap CallStep.pause? = (List.range' n (k - n)).map p := by
  have hone (i : Nat) :
      [CallStep.attempt i, .pause (p i)].filterMap CallStep.pause? = [p i] := rfl
  rw [callSteps, List.filterMap_append, List.filterMap_flatMap]
  simp only [hone, List.map_eq_flatMap]
  exact List.append_nil _

theorem callSteps_congr (h : ∀ i, n ≤ i → i < k → p i = q i) :
    callSteps p n k = callSteps q n k := by
  have hsteps : (List.range' n (k - n)).map (fun i => [CallStep.attempt i, .pause (p i)]) =
      (List.range' n (k - n)).map fun i => [.attempt i, .pause (q i)] := by
    refine List.map_congr_left fun i hi => ?_
    obtain ⟨hle, hlt⟩ := List.mem_range'_1.mp hi
    rw [h i hle (by omega)]
  rw [callSteps, callSteps, List.flatMap_def, List.flatMap_def, hsteps]

/-- Two calls take the same steps only if they end with the same attempt and pause alike. -/
theorem callSteps_inj {j : Nat} (h : callSteps p n j = callSteps q n k) :
    j = k ∧ ∀ i, n ≤ i → i < k → p i = q i := by
  have hlast := congrArg List.getLast? h
  simp only [getLast?_callSteps, Option.some.injEq, CallStep.attempt.injEq] at hlast
  subst hlast
  have hpauses := congrArg (List.filterMap CallStep.pause?) h
  rw [pauses_callSteps, pauses_callSteps, List.map_inj_left] at hpauses
  exact ⟨rfl, fun i hi hlt => hpauses i (List.mem_range'_1.mpr ⟨hi, by omega⟩)⟩

end Steps

/-- A call makes its attempts up to the last one, with the outcome of that one. -/
theorem attempts_eq (backoff : UInt64) (outcome : Nat → Except Failure String) (left n : Nat) :
    attempts backoff outcome left n =
      (callSteps (fun i => (backoff * UInt64.ofNat i).toNat) n (lastAttempt outcome left n),
        outcome (lastAttempt outcome left n)) := by
  induction left generalizing n with
  | zero => rw [lastAttempt_zero, callSteps_self, attempts]
  | succ left ih =>
      unfold attempts
      cases h : outcome n with
      | ok text =>
          rw [lastAttempt_of_settles (by rw [h]; rfl), callSteps_self, h]
      | error f =>
          cases hf : f.retryable with
          | false =>
              rw [lastAttempt_of_settles (by simp [settles, h, hf]), callSteps_self, h]
              simp [hf]
          | true =>
              have hgoes : settles (outcome n) = false := by simp [settles, h, hf]
              have hlast : n < lastAttempt outcome left (n + 1) := lastAttempt_mem.1
              rw [lastAttempt_succ hgoes, callSteps_of_lt hlast]
              simp [hf, ih]

namespace Endpoint

/-- The retries that are made: none when one more than they are does not fit in 32 bits. -/
def retries (e : Endpoint) : Nat :=
  if e.maxRetries.toNat + 1 < UInt32.size then e.maxRetries.toNat else 0

theorem maxAttempts_sub_one (e : Endpoint) : e.maxAttempts.toNat - 1 = e.retries := by
  have hlt : e.maxRetries.toNat < UInt32.size := e.maxRetries.toNat_lt
  have hsum : e.maxAttempts.toNat = (e.maxRetries.toNat + 1) % UInt32.size :=
    UInt32.toNat_add _ _
  rw [hsum, retries]
  split
  · rename_i hfits
    rw [Nat.mod_eq_of_lt hfits, Nat.add_sub_cancel]
  · have hwraps : e.maxRetries.toNat + 1 = UInt32.size := by omega
    rw [hwraps, Nat.mod_self]

theorem toNat_pause (e : Endpoint) (i : Nat) :
    (e.backoffMilliseconds * UInt64.ofNat i).toNat = e.backoffMilliseconds.toNat * i % UInt64.size := by
  rw [UInt64.toNat_mul, UInt64.toNat_ofNat', Nat.mul_mod_mod]

theorem toNat_patience (e : Endpoint) :
    e.patience.toNat = e.timeoutSeconds.toNat * 1000 % UInt64.size := by
  rw [patience, UInt64.toNat_mul]
  rfl

theorem invoke_eq (e : Endpoint) (outcome : Nat → Except Failure String) :
    e.invoke outcome =
      (callSteps (fun i => e.backoffMilliseconds.toNat * i % UInt64.size) 1
        (lastAttempt outcome e.retries 1), outcome (lastAttempt outcome e.retries 1)) := by
  rw [invoke, attempts_eq, maxAttempts_sub_one]
  simp only [toNat_pause]

structure Fits (e : Endpoint) : Prop where
  attempts : e.maxRetries.toNat + 1 < UInt32.size
  pauses : e.backoffMilliseconds.toNat * e.maxRetries.toNat < UInt64.size
  patience : e.timeoutSeconds.toNat * 1000 < UInt64.size

/-- The calls of the endpoint are those that plain numbers describe. -/
structure Exact (e : Endpoint) : Prop where
  invoke (outcome : Nat → Except Failure String) :
    e.invoke outcome =
      (callSteps (fun i => e.backoffMilliseconds.toNat * i) 1
        (lastAttempt outcome e.maxRetries.toNat 1),
        outcome (lastAttempt outcome e.maxRetries.toNat 1))
  patience : e.patience.toNat = e.timeoutSeconds.toNat * 1000

theorem Fits.retries {e : Endpoint} (h : e.Fits) : e.retries = e.maxRetries.toNat :=
  if_pos h.attempts

theorem Fits.exact {e : Endpoint} (h : e.Fits) : e.Exact where
  invoke outcome := by
    have hpause (i : Nat) (_ : 1 ≤ i) (hi : i < lastAttempt outcome e.maxRetries.toNat 1) :
        e.backoffMilliseconds.toNat * i % UInt64.size = e.backoffMilliseconds.toNat * i := by
      have hlast : lastAttempt outcome e.maxRetries.toNat 1 ≤ 1 + e.maxRetries.toNat :=
        lastAttempt_mem.2
      have hle : i ≤ e.maxRetries.toNat := by omega
      have hmul := Nat.mul_le_mul_left e.backoffMilliseconds.toNat hle
      exact Nat.mod_eq_of_lt (Nat.lt_of_le_of_lt hmul h.pauses)
    rw [invoke_eq, h.retries, callSteps_congr hpause]
  patience := by rw [toNat_patience, Nat.mod_eq_of_lt h.patience]

theorem settles_noConnection (e : Endpoint) (i : Nat) : settles (e.noConnection i) = false := rfl

theorem Exact.fits {e : Endpoint} (h : e.Exact) : e.Fits := by
  have hcall := h.invoke e.noConnection
  rw [invoke_eq, lastAttempt_of_unsettled e.settles_noConnection,
    lastAttempt_of_unsettled e.settles_noConnection] at hcall
  obtain ⟨hend, hpauses⟩ := callSteps_inj (congrArg Prod.fst hcall)
  have hretries : e.retries = e.maxRetries.toNat := by omega
  constructor
  case attempts =>
    unfold retries at hretries
    split at hretries
    · assumption
    · rw [← hretries]
      decide
  case pauses =>
    by_cases hzero : e.maxRetries.toNat = 0
    · simp [hzero]
    · rw [← hpauses e.maxRetries.toNat (by omega) (by omega)]
      exact Nat.mod_lt _ (by decide)
  case patience =>
    rw [← h.patience]
    exact e.patience.toNat_lt

/-- The check of settings does not depend on the endpoint. A call goes on until an attempt settles
it or the retries are used, and waits longer after each attempt; it is the call that plain numbers
describe if and only if the numbers of the endpoint fit their widths. -/
theorem calls_exact_iff_fits (s : Settings) (e : Endpoint) :
    { s with endpoint := e }.check = s.check ∧
    (∀ outcome, e.invoke outcome =
      (callSteps (fun i => e.backoffMilliseconds.toNat * i % UInt64.size) 1
        (lastAttempt outcome e.retries 1), outcome (lastAttempt outcome e.retries 1))) ∧
    e.patience.toNat = e.timeoutSeconds.toNat * 1000 % UInt64.size ∧
    (e.Exact ↔ e.Fits) :=
  ⟨rfl, e.invoke_eq, e.toNat_patience, Exact.fits, Fits.exact⟩

/-- Two attempts that time out before one that answers. -/
example : invoke {} (fun n => if n < 3 then .error (.timeout 120000) else .ok "text") =
    ([.attempt 1, .pause 1000, .attempt 2, .pause 2000, .attempt 3], .ok "text") := by
  rfl

def tireless : Settings :=
  { Settings.small with endpoint := { maxRetries := 4294967295, backoffMilliseconds := 86400000 } }

/-- The settings pass the check. A call that fails for want of a connection ends with its first
attempt, where plain numbers give it 4294967296 attempts. -/
theorem tireless_gives_up_at_once :
    tireless.check = .ok () ∧
    tireless.endpoint.invoke tireless.endpoint.noConnection =
      ([.attempt 1], tireless.endpoint.noConnection 1) ∧
    lastAttempt tireless.endpoint.noConnection tireless.endpoint.maxRetries.toNat 1 = 4294967296 ∧
    ¬ tireless.endpoint.Exact := by
  have hplan := Run.Plan.ofSettings_small (fun _ _ => .failure .empty) none (by decide)
  refine ⟨(Run.Plan.ofSettings_eq_ok_iff.mp hplan).1, ?_, ?_, fun h => ?_⟩
  · have hretries : tireless.endpoint.retries = 0 := by decide
    rw [invoke_eq, hretries, lastAttempt_zero, callSteps_self]
  · rw [lastAttempt_of_unsettled (settles_noConnection _)]
    rfl
  · exact absurd h.fits.attempts (by decide)

end Endpoint

end Scriptorium.Assistant
