import Mathlib.Algebra.Order.Field.Power
import Mathlib.Data.Nat.Log
import Mathlib.Data.Rat.Cast.Order
import Mathlib.Tactic.FieldSimp
import Mathlib.Tactic.Linarith
import Mathlib.Tactic.Positivity
import Mathlib.Tactic.Ring
import Scriptorium.Number.Binary

/-! # Rounding

The numbers of a format in the order of their patterns, the midpoints between them, and rounding as
the one map that these decide: a quotient is rounded to a pattern or below exactly if it lies below
the midpoint above that pattern, or on it and the pattern is even. So rounding depends on the value
of a quotient only, is monotone, and leaves the numbers of the format where they are.
-/

namespace Scriptorium.Number

/-! ## Quotients -/

theorem roundDiv_le_iff {n d m : Nat} (hd : 0 < d) :
    roundDiv n d ≤ m ↔ 2 * n < (2 * m + 1) * d ∨ 2 * n = (2 * m + 1) * d ∧ m % 2 = 0 := by
  have hsplit := Nat.div_add_mod n d
  have hlt := Nat.mod_lt n hd
  unfold roundDiv
  generalize n / d = q at hsplit
  generalize n % d = r at hsplit hlt
  have hmiddle : (2 * q + 1) * d = 2 * (d * q) + d := by ring
  dsimp only
  rcases Nat.lt_trichotomy m q with hm | rfl | hm
  · have hbelow : (2 * m + 1) * d < 2 * (d * q) := by
      have hle : (2 * m + 2) * d ≤ 2 * q * d := Nat.mul_le_mul_right d (by omega)
      nlinarith only [hle, hd]
    have hup : q ≤ if 2 * r < d then q else if d < 2 * r then q + 1 else
        if q % 2 = 0 then q else q + 1 := by
      split_ifs <;> omega
    constructor
    · exact fun h => absurd (hup.trans h) (Nat.not_le.mpr hm)
    · rintro (h | ⟨h, -⟩) <;> omega
  · split_ifs <;> omega
  · have habove : 2 * (d * q) + 2 * d ≤ 2 * m * d := by
      have hle : (2 * q + 2) * d ≤ 2 * m * d := Nat.mul_le_mul_right d (by omega)
      nlinarith only [hle]
    have hbound : (2 * m + 1) * d = 2 * m * d + d := by ring
    constructor
    · intro
      left
      omega
    · intro
      split_ifs <;> omega

/-- Quotients are compared crosswise. -/
theorem ratio_le_iff {n d n' d' : Nat} (hd : 0 < d) (hd' : 0 < d') :
    (n / d : ℚ) ≤ n' / d' ↔ n * d' ≤ n' * d := by
  rw [div_le_div_iff₀ (by exact_mod_cast hd) (by exact_mod_cast hd')]
  exact_mod_cast Iff.rfl

theorem ratio_lt_iff {n d n' d' : Nat} (hd : 0 < d) (hd' : 0 < d') :
    (n / d : ℚ) < n' / d' ↔ n * d' < n' * d := by
  rw [div_lt_div_iff₀ (by exact_mod_cast hd) (by exact_mod_cast hd')]
  exact_mod_cast Iff.rfl

theorem scale_den_pos {num den : Nat} (hden : 0 < den) (e : Int) : 0 < (scale num den e).2 := by
  unfold scale
  split
  · exact hden
  · exact Nat.mul_pos hden (Nat.pow_pos (by decide))

/-- Scaling multiplies the value of a quotient. -/
theorem scale_eq (num den : Nat) (e : Int) :
    ((scale num den e).1 : ℚ) / (scale num den e).2 = num / den * 2 ^ e := by
  unfold scale
  split
  next he =>
    obtain ⟨k, rfl⟩ := Int.eq_ofNat_of_zero_le he
    simp [mul_div_right_comm]
  next he =>
    obtain ⟨k, hk⟩ := Int.eq_ofNat_of_zero_le (Int.neg_nonneg.mpr (Int.not_le.mp he).le)
    obtain rfl : e = -(k : Int) := by omega
    simp [div_mul_eq_div_div]
    rfl

/-- A quotient is about as large as the lengths of its parts tell. -/
theorem log2_bounds {num den : Nat} (hnum : num ≠ 0) (hden : 0 < den) :
    (2 : ℚ) ^ ((num.log2 : Int) - den.log2 - 1) < num / den ∧
      (num / den : ℚ) < 2 ^ ((num.log2 : Int) - den.log2 + 1) := by
  have hpos : (0 : ℚ) < den := by exact_mod_cast hden
  have hnumlow : (2 : ℚ) ^ (num.log2 : Int) ≤ num := by exact_mod_cast Nat.log2_self_le hnum
  have hnumhigh : (num : ℚ) < 2 ^ ((num.log2 : Int) + 1) := by
    exact_mod_cast Nat.lt_log2_self (n := num)
  have hdenlow : (2 : ℚ) ^ (den.log2 : Int) ≤ den := by
    exact_mod_cast Nat.log2_self_le hden.ne'
  have hdenhigh : (den : ℚ) < 2 ^ ((den.log2 : Int) + 1) := by
    exact_mod_cast Nat.lt_log2_self (n := den)
  constructor
  · rw [lt_div_iff₀ hpos]
    calc (2 : ℚ) ^ ((num.log2 : Int) - den.log2 - 1) * den
        < 2 ^ ((num.log2 : Int) - den.log2 - 1) * 2 ^ ((den.log2 : Int) + 1) := by gcongr
      _ = 2 ^ (num.log2 : Int) := by
        rw [← zpow_add₀ (by norm_num)]
        congr 1
        ring
      _ ≤ num := hnumlow
  · rw [div_lt_iff₀ hpos]
    calc (num : ℚ) < 2 ^ ((num.log2 : Int) + 1) := hnumhigh
      _ = 2 ^ ((num.log2 : Int) - den.log2 + 1) * 2 ^ (den.log2 : Int) := by
        rw [← zpow_add₀ (by norm_num)]
        congr 1
        ring
      _ ≤ 2 ^ ((num.log2 : Int) - den.log2 + 1) * den := by gcongr

/-! ## The numbers of a format -/

namespace Format

variable {f : Format} {j m p : Nat}

def unit (f : Format) : Nat := 2 ^ (f.precision - 1)

/-- The number of a finite pattern; beyond, numbers go on in the same way. -/
def value (f : Format) (p : Nat) : ℚ := (f.parts p).1 * 2 ^ (f.parts p).2

def midpoint (f : Format) (p : Nat) : ℚ := (f.value p + f.value (p + 1)) / 2

theorem unit_pos : 0 < f.unit := Nat.two_pow_pos _

/-- A pattern lies in a range of equal distances, from one power of two to the next one or from zero
on: the number of the range, and the multiple of its distance. -/
structure Cell (f : Format) (p j m : Nat) : Prop where
  pattern : p = j * f.unit + m
  upper : m < 2 * f.unit
  lower : j = 0 ∨ f.unit ≤ m

theorem exists_cell (f : Format) (p : Nat) : ∃ j m, f.Cell p j m := by
  have hpos : 0 < f.unit := unit_pos
  have hsplit := Nat.div_add_mod p f.unit
  have hlt := Nat.mod_lt p hpos
  cases hk : p / f.unit with
  | zero =>
      rw [hk, Nat.mul_zero, Nat.zero_add] at hsplit
      exact ⟨0, p, by simp, by omega, .inl rfl⟩
  | succ k =>
      rw [hk] at hsplit
      have hmul : f.unit * (k + 1) = k * f.unit + f.unit := by ring
      exact ⟨k, f.unit + p % f.unit, by omega, by omega, .inr (Nat.le_add_right _ _)⟩

theorem Cell.parts (h : f.Cell p j m) : f.parts p = (m, f.least + j) := by
  obtain ⟨rfl, hupper, hlower⟩ := h
  have hpos : 0 < f.unit := unit_pos
  have hunit : Nat.pow 2 (f.precision - 1) = f.unit := rfl
  unfold Format.parts
  simp only [hunit]
  by_cases hm : f.unit ≤ m
  · obtain ⟨r, rfl⟩ := Nat.exists_eq_add_of_le hm
    have hr : r < f.unit := by omega
    have hrearrange : j * f.unit + (f.unit + r) = r + f.unit * (j + 1) := by ring
    rw [hrearrange, Nat.add_mul_div_left _ _ hpos, Nat.add_mul_mod_self_left,
      Nat.div_eq_of_lt hr, Nat.mod_eq_of_lt hr, if_neg (by omega)]
    simp [Nat.add_comm]
  · obtain rfl : j = 0 := hlower.resolve_right hm
    have hlt : m < f.unit := Nat.not_le.mp hm
    rw [Nat.zero_mul, Nat.zero_add, Nat.div_eq_of_lt hlt, if_pos rfl]
    simp

theorem Cell.value_eq (h : f.Cell p j m) : f.value p = m * 2 ^ (f.least + j) := by
  rw [value, h.parts]

/-- The number at the upper end of a range is also told by the distance of the range. -/
theorem Cell.value_succ (h : f.Cell p j m) : f.value (p + 1) = (m + 1) * 2 ^ (f.least + j) := by
  by_cases hend : m + 1 < 2 * f.unit
  · have hnext : f.Cell (p + 1) j (m + 1) :=
      ⟨by rw [h.pattern, Nat.add_assoc], hend, h.lower.imp_right (Nat.le_succ_of_le)⟩
    rw [hnext.value_eq]
    push_cast
    rfl
  · have hm : m + 1 = 2 * f.unit := Nat.le_antisymm h.upper (Nat.not_lt.mp hend)
    have hnext : f.Cell (p + 1) (j + 1) f.unit := by
      refine ⟨?_, ?_, .inr (Nat.le_refl _)⟩
      · rw [h.pattern, Nat.add_assoc, hm]
        ring
      · have := f.unit_pos
        omega
    have hcast : (m : ℚ) + 1 = 2 * f.unit := by exact_mod_cast hm
    rw [hnext.value_eq, hcast]
    push_cast
    rw [← add_assoc, zpow_add_one₀ (by norm_num)]
    ring

theorem Cell.midpoint_eq (h : f.Cell p j m) :
    f.midpoint p = (2 * m + 1) / 2 * 2 ^ (f.least + j) := by
  rw [midpoint, h.value_eq, h.value_succ]
  ring

theorem value_strictMono (f : Format) : StrictMono f.value := by
  refine strictMono_nat_of_lt_succ fun p => ?_
  obtain ⟨j, m, h⟩ := f.exists_cell p
  have hpos : (0 : ℚ) < 2 ^ (f.least + j) := by positivity
  rw [h.value_eq, h.value_succ]
  nlinarith only [hpos]

theorem value_zero (f : Format) : f.value 0 = 0 := by
  have h : f.Cell 0 0 0 := ⟨by simp, by have := f.unit_pos; omega, .inl rfl⟩
  rw [h.value_eq]
  simp

theorem value_nonneg (f : Format) (p : Nat) : 0 ≤ f.value p := by
  rw [← f.value_zero]
  exact f.value_strictMono.monotone (Nat.zero_le p)

theorem value_lt_midpoint (f : Format) (p : Nat) : f.value p < f.midpoint p := by
  have h := f.value_strictMono (Nat.lt_succ_self p)
  rw [Nat.succ_eq_add_one] at h
  rw [midpoint]
  linarith

theorem midpoint_lt_value (f : Format) (p : Nat) : f.midpoint p < f.value (p + 1) := by
  have h := f.value_strictMono (Nat.lt_succ_self p)
  rw [Nat.succ_eq_add_one] at h
  rw [midpoint]
  linarith

theorem midpoint_strictMono (f : Format) : StrictMono f.midpoint :=
  strictMono_nat_of_lt_succ fun p => (f.midpoint_lt_value p).trans (f.value_lt_midpoint (p + 1))

/-! ## Rounding -/

def low (f : Format) (num den : Nat) : Int := (num.log2 : Int) - den.log2 - f.precision

/-- The distance at which a quotient has as many bits as the format keeps. -/
def fit (f : Format) (num den : Nat) : Int :=
  if Nat.pow 2 f.precision * (scale num den (-f.low num den)).2 ≤
    (scale num den (-f.low num den)).1 then f.low num den + 1 else f.low num den

theorem round_eq {num : Nat} (hnum : num ≠ 0) (den : Nat) :
    let e := if f.fit num den < f.least then f.least else f.fit num den
    f.round num den = min f.infinite ((e - f.least).toNat * f.unit +
      roundDiv (scale num den (-e)).1 (scale num den (-e)).2) := by
  unfold round
  rw [if_neg hnum]
  rfl

theorem unit_cast (h : 1 ≤ f.precision) : (2 : ℚ) ^ (f.precision : Int) = 2 * f.unit := by
  obtain ⟨k, hk⟩ := Nat.exists_eq_add_of_le' h
  rw [unit, hk, Nat.add_sub_cancel]
  push_cast
  rw [zpow_add_one₀ (by norm_num)]
  simp [mul_comm]

theorem fit_spec (hprecision : 1 ≤ f.precision) {num den : Nat} (hnum : num ≠ 0)
    (hden : 0 < den) : (f.unit : ℚ) ≤ num / den * 2 ^ (-f.fit num den) ∧
      (num / den : ℚ) * 2 ^ (-f.fit num den) < 2 * f.unit := by
  obtain ⟨hlower, hupper⟩ := log2_bounds hnum hden
  have hdistance : (0 : ℚ) < 2 ^ (-f.low num den) := by positivity
  have hunit := unit_cast hprecision
  -- At the first choice the quotient has as many bits as the format keeps, or one more.
  have hfirst : (f.unit : ℚ) < num / den * 2 ^ (-f.low num den) := by
    have h := mul_lt_mul_of_pos_right hlower hdistance
    rw [← zpow_add₀ (by norm_num)] at h
    have hexponent : (num.log2 : Int) - den.log2 - 1 + -f.low num den = f.precision - 1 := by
      unfold low
      ring
    rw [hexponent, zpow_sub_one₀ (by norm_num), hunit] at h
    linarith
  have hsecond : (num / den : ℚ) * 2 ^ (-f.low num den) < 4 * f.unit := by
    have h := mul_lt_mul_of_pos_right hupper hdistance
    rw [← zpow_add₀ (by norm_num)] at h
    have hexponent : (num.log2 : Int) - den.log2 + 1 + -f.low num den = f.precision + 1 := by
      unfold low
      ring
    rw [hexponent, zpow_add_one₀ (by norm_num), hunit] at h
    linarith
  have hscaled := scale_eq num den (-f.low num den)
  have hdpos : (0 : ℚ) < (scale num den (-f.low num den)).2 := by
    exact_mod_cast scale_den_pos hden _
  unfold fit
  split
  next hlong =>
    have hge : 2 * (f.unit : ℚ) ≤ num / den * 2 ^ (-f.low num den) := by
      rw [← hscaled, le_div_iff₀ hdpos, ← hunit]
      exact_mod_cast hlong
    have hhalf : (2 : ℚ) ^ (-(f.low num den + 1)) = 2 ^ (-f.low num den) / 2 := by
      rw [neg_add, ← sub_eq_add_neg, zpow_sub_one₀ (by norm_num)]
      rfl
    rw [hhalf]
    constructor <;> linarith
  next hshort =>
    refine ⟨hfirst.le, ?_⟩
    rw [← hscaled, div_lt_iff₀ hdpos, ← hunit]
    exact_mod_cast Nat.not_le.mp hshort

/-- A quotient in a range of equal distances, up to the end of that: the number of the range, and
the quotient in multiples of its distance. -/
structure Spans (f : Format) (q : ℚ) (j n d : Nat) : Prop where
  den_pos : 0 < d
  value_eq : q = n / d * 2 ^ (f.least + j)
  upper : (n : ℚ) / d < 2 * f.unit
  lower : j = 0 ∨ (f.unit : ℚ) ≤ n / d

/-- A quotient is rounded in the range that it falls into: to the nearest multiple of its
distance. -/
theorem exists_spans (hprecision : 1 ≤ f.precision) {num den : Nat} (hnum : num ≠ 0)
    (hden : 0 < den) : ∃ j n d : Nat, f.Spans (num / den) j n d ∧
      f.round num den = min f.infinite (j * f.unit + roundDiv n d) := by
  obtain ⟨hlower, hupper⟩ := fit_spec hprecision hnum hden
  have hround := round_eq (f := f) hnum den
  dsimp only at hround
  obtain ⟨e, he⟩ : ∃ e, (if f.fit num den < f.least then f.least else f.fit num den) = e := ⟨_, rfl⟩
  rw [he] at hround
  have hleast : f.least ≤ e := by
    rw [← he]
    split <;> omega
  have hj : f.least + ((e - f.least).toNat : Int) = e := by omega
  have hback : (num / den : ℚ) = num / den * 2 ^ (-e) * 2 ^ e := by
    rw [mul_assoc, ← zpow_add₀ (by norm_num)]
    simp
  refine ⟨(e - f.least).toNat, _, _, ⟨scale_den_pos hden (-e), ?_, ?_, ?_⟩, hround⟩
  · rw [hj, scale_eq]
    exact hback
  · rw [scale_eq]
    have hle : (2 : ℚ) ^ (-e) ≤ 2 ^ (-f.fit num den) := by
      refine zpow_le_zpow_right₀ (by norm_num) (neg_le_neg ?_)
      rw [← he]
      split <;> omega
    have hnonneg : (0 : ℚ) ≤ num / den := by positivity
    exact (mul_le_mul_of_nonneg_left hle hnonneg).trans_lt hupper
  · rw [scale_eq]
    split at he
    next => exact .inl (by omega)
    next => exact .inr (he ▸ hlower)

theorem roundDiv_le_iff_rat {n d m : Nat} (hd : 0 < d) :
    roundDiv n d ≤ m ↔ (n / d : ℚ) < (2 * m + 1) / 2 ∨
      (n / d : ℚ) = (2 * m + 1) / 2 ∧ m % 2 = 0 := by
  have hpos : (0 : ℚ) < d := by exact_mod_cast hd
  have hlt : (n / d : ℚ) < (2 * m + 1) / 2 ↔ 2 * n < (2 * m + 1) * d := by
    rw [div_lt_div_iff₀ hpos (by norm_num)]
    rw [mul_comm (n : ℚ)]
    exact_mod_cast Iff.rfl
  have heq : (n / d : ℚ) = (2 * m + 1) / 2 ↔ 2 * n = (2 * m + 1) * d := by
    rw [div_eq_div_iff hpos.ne' (by norm_num), mul_comm (n : ℚ)]
    exact_mod_cast Iff.rfl
  rw [roundDiv_le_iff hd, hlt, heq]

theorem two_dvd_unit (h : 2 ≤ f.precision) : f.unit % 2 = 0 := by
  obtain ⟨k, hk⟩ := Nat.exists_eq_add_of_le' h
  have hexponent : f.precision - 1 = k + 1 := by omega
  rw [unit, hexponent, Nat.pow_succ]
  exact Nat.mul_mod_left _ 2

theorem Cell.even_iff (h : f.Cell p j m) (hprecision : 2 ≤ f.precision) :
    p % 2 = 0 ↔ m % 2 = 0 := by
  rw [h.pattern, Nat.add_mod, Nat.mul_mod, two_dvd_unit hprecision]
  simp

section Spans

variable {q : ℚ} {n d : Nat}

theorem Spans.value_le (h : f.Spans q j n d) (hj : j ≠ 0) :
    f.value (j * f.unit + f.unit) ≤ q := by
  have hpos : 0 < f.unit := f.unit_pos
  have hcell : f.Cell (j * f.unit + f.unit) j f.unit := ⟨rfl, by omega, .inr (Nat.le_refl _)⟩
  rw [hcell.value_eq, h.value_eq]
  exact mul_le_mul_of_nonneg_right (h.lower.resolve_left hj) (by positivity)

theorem Spans.unit_le_roundDiv (h : f.Spans q j n d) (hj : j ≠ 0) : f.unit ≤ roundDiv n d := by
  have hge := h.lower.resolve_left hj
  have hpos : 0 < f.unit := f.unit_pos
  have hnot : ¬ roundDiv n d ≤ f.unit - 1 := by
    rw [roundDiv_le_iff_rat h.den_pos, Nat.cast_sub hpos, Nat.cast_one]
    rintro (h | ⟨h, -⟩) <;> linarith
  omega

theorem Spans.lt_value (h : f.Spans q j n d) : q < f.value (j * f.unit + 2 * f.unit) := by
  have hpos : 0 < f.unit := f.unit_pos
  have hcell : f.Cell (j * f.unit + 2 * f.unit) (j + 1) f.unit :=
    ⟨by ring, by omega, .inr (Nat.le_refl _)⟩
  have hdistance : (0 : ℚ) < 2 ^ (f.least + j) := by positivity
  calc q < 2 * f.unit * 2 ^ (f.least + j) := by
        rw [h.value_eq]
        exact mul_lt_mul_of_pos_right h.upper hdistance
    _ = f.value (j * f.unit + 2 * f.unit) := by
        rw [hcell.value_eq]
        push_cast
        rw [← add_assoc, zpow_add_one₀ (by norm_num)]
        ring

theorem Spans.roundDiv_le (h : f.Spans q j n d) : roundDiv n d ≤ 2 * f.unit := by
  have hupper := h.upper
  rw [roundDiv_le_iff_rat h.den_pos]
  left
  push_cast
  linarith

/-- Rounding compared with a pattern of the same range. -/
theorem Spans.le_iff (h : f.Spans q j n d) (hcell : f.Cell p j m) (hprecision : 2 ≤ f.precision) :
    j * f.unit + roundDiv n d ≤ p ↔ q < f.midpoint p ∨ q = f.midpoint p ∧ p % 2 = 0 := by
  have hdistance : (0 : ℚ) < 2 ^ (f.least + j) := by positivity
  rw [hcell.midpoint_eq, hcell.even_iff hprecision, h.value_eq,
    mul_lt_mul_iff_of_pos_right hdistance, mul_left_inj' hdistance.ne',
    ← roundDiv_le_iff_rat h.den_pos, hcell.pattern]
  exact Nat.add_le_add_iff_left

end Spans

/-- A pattern lies below a range, in it or above it. -/
theorem below_or_cell_or_above (f : Format) (p j : Nat) :
    (p < j * f.unit + f.unit ∧ j ≠ 0) ∨ (∃ m, f.Cell p j m) ∨ j * f.unit + 2 * f.unit ≤ p := by
  by_cases hbelow : p < j * f.unit + f.unit ∧ j ≠ 0
  · exact .inl hbelow
  by_cases habove : j * f.unit + 2 * f.unit ≤ p
  · exact .inr (.inr habove)
  have hlower : j = 0 ∨ j * f.unit + f.unit ≤ p := by
    by_cases hj : j = 0
    · exact .inl hj
    · exact .inr (Nat.not_lt.mp fun h => hbelow ⟨h, hj⟩)
  obtain ⟨m, rfl⟩ : ∃ m, p = j * f.unit + m := by
    refine Nat.exists_eq_add_of_le ?_
    rcases hlower with rfl | hlower
    · simp
    · omega
  exact .inr (.inl ⟨m, rfl, by omega, hlower.imp_right fun h => by omega⟩)

/-- A quotient is rounded to a pattern or below it exactly if it lies below the midpoint above the
pattern, or on it and the pattern is even. -/
theorem round_le_iff (hprecision : 2 ≤ f.precision) {num den : Nat} (hden : 0 < den)
    (hp : p < f.infinite) :
    f.round num den ≤ p ↔
      (num / den : ℚ) < f.midpoint p ∨ (num / den : ℚ) = f.midpoint p ∧ p % 2 = 0 := by
  by_cases hnum : num = 0
  · have hpositive : (0 : ℚ) < f.midpoint p := (f.value_nonneg p).trans_lt (f.value_lt_midpoint p)
    simp [hnum, Format.round, hpositive]
  obtain ⟨j, n, d, hspans, hround⟩ := exists_spans (f := f) (by omega) hnum hden
  have hfinite : f.round num den ≤ p ↔ j * f.unit + roundDiv n d ≤ p := by
    rw [hround]
    omega
  rw [hfinite]
  rcases f.below_or_cell_or_above p j with ⟨hlt, hj⟩ | ⟨m, hcell⟩ | hle
  · have hlarge := hspans.unit_le_roundDiv hj
    have hvalue : f.value (p + 1) ≤ num / den :=
      (f.value_strictMono.monotone hlt).trans (hspans.value_le hj)
    have hmidpoint := f.midpoint_lt_value p
    constructor
    · intro h
      omega
    · rintro (h | ⟨h, -⟩) <;> linarith
  · exact hspans.le_iff hcell hprecision
  · have hsmall := hspans.roundDiv_le
    have hvalue : (num / den : ℚ) < f.value p :=
      hspans.lt_value.trans_le (f.value_strictMono.monotone hle)
    have hmidpoint := f.value_lt_midpoint p
    constructor
    · intro
      left
      linarith
    · intro
      omega

theorem round_le_infinite (f : Format) (num den : Nat) : f.round num den ≤ f.infinite := by
  unfold round
  split
  · exact Nat.zero_le _
  · exact Nat.min_le_left _ _

/-- Rounding depends on the value of a quotient only, and is monotone in it. -/
theorem round_mono (hprecision : 2 ≤ f.precision) {num den num' den' : Nat} (hden : 0 < den)
    (hden' : 0 < den') (h : (num / den : ℚ) ≤ num' / den') :
    f.round num den ≤ f.round num' den' := by
  by_cases hp : f.round num' den' < f.infinite
  · rw [round_le_iff hprecision hden hp]
    rcases (round_le_iff hprecision hden' hp).mp (Nat.le_refl _) with hlt | ⟨heq, heven⟩
    · exact .inl (h.trans_lt hlt)
    · rcases h.lt_or_eq with hlt | hsame
      · exact .inl (hlt.trans_eq heq)
      · exact .inr ⟨hsame.trans heq, heven⟩
  · exact (f.round_le_infinite num den).trans (Nat.not_lt.mp hp)

theorem round_congr (hprecision : 2 ≤ f.precision) {num den num' den' : Nat} (hden : 0 < den)
    (hden' : 0 < den') (h : (num / den : ℚ) = num' / den') :
    f.round num den = f.round num' den' :=
  Nat.le_antisymm (round_mono hprecision hden hden' h.le) (round_mono hprecision hden' hden h.ge)

/-- The numbers of a format are rounded to themselves. -/
theorem round_of_eq_value (hprecision : 2 ≤ f.precision) {num den : Nat} (hden : 0 < den)
    (hp : p < f.infinite) (h : (num / den : ℚ) = f.value p) : f.round num den = p := by
  refine Nat.le_antisymm ?_ ?_
  · rw [round_le_iff hprecision hden hp]
    exact .inl (h.trans_lt (f.value_lt_midpoint p))
  · cases p with
    | zero => exact Nat.zero_le _
    | succ k =>
        have hbelow := f.midpoint_lt_value k
        have hnot : ¬ f.round num den ≤ k := by
          rw [round_le_iff hprecision hden (Nat.lt_of_succ_lt hp), h]
          rintro (hlt | ⟨heq, -⟩) <;> linarith
        exact Nat.not_le.mp hnot

theorem ratio_den_pos (f : Format) (p : Nat) : 0 < (f.ratio p).2 := by
  unfold ratio
  exact scale_den_pos Nat.one_pos _

/-- A finite pattern as a quotient has the value of the pattern. -/
theorem ratio_eq (f : Format) (p : Nat) : ((f.ratio p).1 : ℚ) / (f.ratio p).2 = f.value p := by
  have hscale := scale_eq (f.parts p).1 1 (f.parts p).2
  rw [Nat.cast_one, div_one] at hscale
  exact hscale

end Format

end Scriptorium.Number
