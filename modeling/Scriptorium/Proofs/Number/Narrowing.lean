import Scriptorium.Proofs.Number.Rounding

/-! # Singles by way of doubles

A single that is read as a double first is rounded twice. What lies between the midpoints around a
single still lies between them, or on one of them, once it is rounded to a double, because every
such midpoint is a double. So the second rounding goes to the same single, but for one case: the
pattern is odd and the first rounding went to a midpoint, from which the second one goes to the
neighbour.
-/

namespace Scriptorium.Number

namespace Format

variable {f : Format} {p num den : Nat}

/-- A number lies where it is rounded to a pattern other than zero. -/
structure Nearest (f : Format) (p : Nat) (x : ℚ) : Prop where
  lower : f.midpoint (p - 1) < x ∨ f.midpoint (p - 1) = x ∧ p % 2 = 0
  upper : x < f.midpoint p ∨ x = f.midpoint p ∧ p % 2 = 0

/-- A number of few bits that is not small is a number of the format. -/
theorem exists_value_eq (hprecision : 1 ≤ f.precision) {m : Nat} (hm : 0 < m)
    (hupper : m < 2 * f.unit) {e : Int} (he : f.least + f.precision ≤ e) :
    ∃ p, f.value p = m * 2 ^ e ∧ p < ((e - f.least).toNat + 2) * f.unit := by
  obtain ⟨k, hk⟩ := Nat.exists_eq_add_of_le' hprecision
  have hunit : f.unit = 2 ^ k := by rw [unit, hk, Nat.add_sub_cancel]
  have hlog : m.log2 ≤ k := by
    have hlt : m < 2 ^ (k + 1) := by
      rw [Nat.pow_succ, Nat.mul_comm, ← hunit]
      exact hupper
    exact Nat.le_of_lt_succ ((Nat.log2_lt hm.ne').mpr hlt)
  -- The multiplier is shifted until it has as many bits as the format keeps.
  obtain ⟨s, hs⟩ := Nat.exists_eq_add_of_le hlog
  have hlarge : f.unit ≤ m * 2 ^ s := by
    rw [hunit, hs, Nat.pow_add]
    exact Nat.mul_le_mul_right _ (Nat.log2_self_le hm.ne')
  have hsmall : m * 2 ^ s < 2 * f.unit := by
    have hlt := Nat.mul_lt_mul_of_pos_right (Nat.lt_log2_self (n := m)) (Nat.two_pow_pos s)
    rw [← Nat.pow_add, show m.log2 + 1 + s = k + 1 by omega, Nat.pow_succ, Nat.mul_comm _ 2,
      ← hunit] at hlt
    exact hlt
  obtain ⟨j, hj⟩ := Int.eq_ofNat_of_zero_le (show 0 ≤ e - s - f.least by omega)
  have hcell : f.Cell (j * f.unit + m * 2 ^ s) j (m * 2 ^ s) := ⟨rfl, hsmall, .inr hlarge⟩
  refine ⟨j * f.unit + m * 2 ^ s, ?_, ?_⟩
  · rw [hcell.value_eq, show f.least + j = e - s by omega, zpow_sub₀ (by norm_num), zpow_natCast]
    push_cast
    field_simp
  · have hle : j * f.unit ≤ (e - f.least).toNat * f.unit := Nat.mul_le_mul_right _ (by omega)
    rw [Nat.add_mul]
    omega

end Format

/-! ## Midpoints of singles -/

theorem single_precision : 2 ≤ single.precision := by decide

theorem double_precision : 2 ≤ double.precision := by decide

/-- The midpoints of singles are doubles. -/
theorem exists_double {p : Nat} (hp : p < single.infinite) :
    ∃ q < double.infinite, double.value q = single.midpoint p := by
  obtain ⟨j, m, hcell⟩ := single.exists_cell p
  have hunit : single.unit = 2 ^ 23 := rfl
  have hupper := hcell.upper
  have hj : j < 255 := by
    have hpattern := hcell.pattern
    have hinfinite : single.infinite = 255 * 2 ^ 23 := rfl
    rw [hunit] at hpattern
    omega
  obtain ⟨q, hvalue, hq⟩ := Format.exists_value_eq (f := double) (m := 2 * m + 1)
    (e := single.least + j - 1) (by decide) (by omega)
    (by
      have hwide : double.unit = 2 ^ 52 := rfl
      omega)
    (by
      have hleast : single.least = -149 := rfl
      have hleast' : double.least = -1074 := rfl
      have hprecision : double.precision = 53 := rfl
      omega)
  refine ⟨q, ?_, ?_⟩
  · have hwide : double.unit = 2 ^ 52 := rfl
    have hleast : single.least = -149 := rfl
    have hleast' : double.least = -1074 := rfl
    have hinfinite : double.infinite = 2047 * 2 ^ 52 := rfl
    have hrange : (single.least + j - 1 - double.least).toNat + 2 ≤ 2047 := by omega
    rw [hinfinite, ← hwide]
    exact hq.trans_le (Nat.mul_le_mul_right _ hrange)
  · rw [hvalue, hcell.midpoint_eq, zpow_sub_one₀ (by norm_num)]
    push_cast
    ring

/-! ## Reading a single by way of a double -/

def narrow (num den : Nat) : Nat :=
  single.round (double.ratio (double.round num den)).1 (double.ratio (double.round num den)).2

section

variable {p num den : Nat}

theorem narrow_le_iff (hp : p < single.infinite) :
    narrow num den ≤ p ↔ double.value (double.round num den) < single.midpoint p ∨
      double.value (double.round num den) = single.midpoint p ∧ p % 2 = 0 := by
  rw [narrow, Format.round_le_iff single_precision (double.ratio_den_pos _) hp, double.ratio_eq]

/-- Rounding to a double does not go beyond a midpoint of singles. -/
theorem round_le_midpoint (hden : 0 < den) (hp : p < single.infinite)
    (h : (num / den : ℚ) ≤ single.midpoint p) : double.round num den < double.infinite ∧
      double.value (double.round num den) ≤ single.midpoint p := by
  obtain ⟨q, hq, hvalue⟩ := exists_double hp
  have hround := Format.round_of_eq_value double_precision (double.ratio_den_pos q) hq
    (double.ratio_eq q)
  have hmono := Format.round_mono double_precision hden (double.ratio_den_pos q)
    (by rw [double.ratio_eq, hvalue]; exact h)
  rw [hround] at hmono
  exact ⟨hmono.trans_lt hq, hvalue ▸ double.value_strictMono.monotone hmono⟩

theorem midpoint_le_round (hden : 0 < den) (hp : p < single.infinite)
    (h : single.midpoint p ≤ (num / den : ℚ)) :
      single.midpoint p ≤ double.value (double.round num den) := by
  obtain ⟨q, hq, hvalue⟩ := exists_double hp
  have hround := Format.round_of_eq_value double_precision (double.ratio_den_pos q) hq
    (double.ratio_eq q)
  have hmono := Format.round_mono double_precision (double.ratio_den_pos q) hden
    (by rw [double.ratio_eq, hvalue]; exact h)
  rw [hround] at hmono
  exact hvalue ▸ double.value_strictMono.monotone hmono

/-- From the midpoint above an odd pattern the second rounding goes up. -/
theorem narrow_of_midpoint (hp : p < single.infinite) (hodd : p % 2 = 1)
    (h : double.value (double.round num den) = single.midpoint p) : narrow num den = p + 1 := by
  have hnot : ¬ narrow num den ≤ p := by
    rw [narrow_le_iff hp, h]
    rintro (hlt | ⟨-, heven⟩)
    · exact lt_irrefl _ hlt
    · omega
  have hnext : narrow num den ≤ p + 1 := by
    by_cases hend : p + 1 < single.infinite
    · rw [narrow_le_iff hend, h]
      exact .inl (single.midpoint_strictMono (Nat.lt_succ_self p))
    · exact (single.round_le_infinite _ _).trans (Nat.not_lt.mp hend)
  omega

/-- From the midpoint below an odd pattern it goes down. -/
theorem narrow_of_midpoint_pred (hp : p < single.infinite) (hodd : p % 2 = 1)
    (h : double.value (double.round num den) = single.midpoint (p - 1)) :
    narrow num den = p - 1 := by
  have hback : narrow num den ≤ p - 1 := by
    rw [narrow_le_iff (by omega), h]
    exact .inr ⟨rfl, by omega⟩
  by_cases hone : p = 1
  · omega
  have hnot : ¬ narrow num den ≤ p - 2 := by
    rw [narrow_le_iff (by omega), h]
    have hlt : single.midpoint (p - 2) < single.midpoint (p - 1) :=
      single.midpoint_strictMono (by omega)
    rintro (h | ⟨h, -⟩) <;> linarith
  omega

/-- A double lies half way between a single with an odd pattern and the one above or below it. -/
structure Astray (p : Nat) (x : ℚ) : Prop where
  odd : p % 2 = 1
  halfway : x = single.midpoint p ∨ x = single.midpoint (p - 1)

/-- What is rounded to a single is rounded to the same one by way of a double, unless the double
lies half way to a neighbour of an odd pattern; then it is rounded to the neighbour. -/
theorem narrow_spec (hden : 0 < den) (hpos : 0 < p) (hp : p < single.infinite)
    (h : single.Nearest p (num / den)) :
    double.round num den < double.infinite ∧
    (narrow num den = p ↔ ¬ Astray p (double.value (double.round num den))) ∧
    (p % 2 = 1 → double.value (double.round num den) = single.midpoint p →
      narrow num den = p + 1) ∧
    (p % 2 = 1 → double.value (double.round num den) = single.midpoint (p - 1) →
      narrow num den = p - 1) := by
  have hpred : p - 1 < single.infinite := by omega
  have hle : (num / den : ℚ) ≤ single.midpoint p := h.upper.elim le_of_lt fun h => h.1.le
  have hge : single.midpoint (p - 1) ≤ (num / den : ℚ) := h.lower.elim le_of_lt fun h => h.1.le
  obtain ⟨hfinite, hhigh⟩ := round_le_midpoint hden hp hle
  have hlow := midpoint_le_round hden hpred hge
  refine ⟨hfinite, ⟨fun heq hastray => ?_, fun hnot => ?_⟩, narrow_of_midpoint hp,
    narrow_of_midpoint_pred hp⟩
  · rcases hastray.halfway with hx | hx
    · have hnext := narrow_of_midpoint hp hastray.odd hx
      omega
    · have hback := narrow_of_midpoint_pred hp hastray.odd hx
      omega
  · have hup : narrow num den ≤ p := by
      rw [narrow_le_iff hp]
      rcases hhigh.lt_or_eq with hlt | heq
      · exact .inl hlt
      · exact .inr ⟨heq, by by_contra hodd; exact hnot ⟨by omega, .inl heq⟩⟩
    have hdown : ¬ narrow num den ≤ p - 1 := by
      rw [narrow_le_iff hpred]
      rintro (hlt | ⟨heq, heven⟩)
      · exact absurd hlt hlow.not_gt
      · exact hnot ⟨by omega, .inr heq⟩
    omega

end

end Scriptorium.Number
