import Mathlib.Data.Nat.Cast.Order.Field
import Scriptorium.Number.Shortest
import Scriptorium.Proofs.Number.Narrowing

/-! # The shortest decimal

Where the distances of a format are large enough for seventeen digits, the search for the shortest
decimal of a number ends with one that rounds to the number.
-/

namespace Scriptorium.Number

/-! ## Powers of ten -/

def Decimal.value (x : Decimal) : ℚ := x.digits * 10 ^ x.exponent

theorem scaleTen_den_pos {num den : Nat} (hden : 0 < den) (k : Int) :
    0 < (scaleTen num den k).2 := by
  unfold scaleTen
  split
  · exact hden
  · exact Nat.mul_pos hden (Nat.pow_pos (by decide))

theorem scaleTen_eq (num den : Nat) (k : Int) :
    ((scaleTen num den k).1 : ℚ) / (scaleTen num den k).2 = num / den * 10 ^ k := by
  unfold scaleTen
  split
  next hk =>
    obtain ⟨n, rfl⟩ := Int.eq_ofNat_of_zero_le hk
    simp [mul_div_right_comm]
  next hk =>
    obtain ⟨n, hn⟩ := Int.eq_ofNat_of_zero_le (Int.neg_nonneg.mpr (Int.not_le.mp hk).le)
    obtain rfl : k = -(n : Int) := by omega
    simp [div_mul_eq_div_div]
    rfl

theorem digitCount_bounds {n : Nat} (hn : 0 < n) :
    0 < digitCount n ∧ 10 ^ (digitCount n - 1) ≤ n ∧ n < 10 ^ digitCount n := by
  have hlength : digitCount n = (Nat.toDigits 10 n).length := if_neg hn.ne'
  have hpos : 0 < (Nat.toDigits 10 n).length := Nat.length_toDigits_pos
  have hupper := (Nat.length_toDigits_le_iff (b := 10) (n := n) (by decide) hpos).mp (Nat.le_refl _)
  refine ⟨by omega, ?_, by rwa [hlength]⟩
  rw [hlength]
  by_cases hone : (Nat.toDigits 10 n).length = 1
  · rw [hone]
    exact hn
  · by_contra hlt
    have hle := (Nat.length_toDigits_le_iff (b := 10) (n := n) (by decide)
      (show 0 < (Nat.toDigits 10 n).length - 1 by omega)).mpr (Nat.not_le.mp hlt)
    omega

/-- The magnitude of a quotient tells the powers of ten around it. -/
theorem magnitude_bounds {num den : Nat} (hnum : 0 < num) (hden : 0 < den) :
    (10 : ℚ) ^ (magnitude num den - 1) ≤ num / den ∧
      (num / den : ℚ) < 10 ^ magnitude num den := by
  have hdenpos : (0 : ℚ) < den := by exact_mod_cast hden
  unfold magnitude
  split
  next hle =>
    obtain ⟨hpos, hlower, hupper⟩ := digitCount_bounds (Nat.div_pos hle hden)
    constructor
    · rw [le_div_iff₀ hdenpos, show ((digitCount (num / den) : Nat) : Int) - 1 =
        ((digitCount (num / den) - 1 : Nat) : Int) by omega, zpow_natCast]
      exact_mod_cast (Nat.le_div_iff_mul_le hden).mp hlower
    · rw [div_lt_iff₀ hdenpos, zpow_natCast]
      exact_mod_cast (Nat.div_lt_iff_lt_mul hden).mp hupper
  next hlt =>
    have hsmall : 0 < (den - 1) / num := Nat.div_pos (by omega) hnum
    obtain ⟨hpos, hlower, hupper⟩ := digitCount_bounds hsmall
    generalize digitCount ((den - 1) / num) = count at hpos hlower hupper
    have hscale : (10 : ℚ) ^ (1 - (count : Int)) * 10 ^ (count - 1) = 1 := by
      rw [← zpow_natCast, ← zpow_add₀ (by norm_num)]
      rw [show (1 - (count : Int)) + ((count - 1 : Nat) : Int) = 0 by omega, zpow_zero]
    have hscale' : (10 : ℚ) ^ (1 - (count : Int) - 1) * 10 ^ count = 1 := by
      rw [← zpow_natCast, ← zpow_add₀ (by norm_num)]
      rw [show (1 - (count : Int) - 1) + (count : Int) = 0 by omega, zpow_zero]
    constructor
    · have hden' : (den : ℚ) ≤ num * 10 ^ count := by
        have h := (Nat.div_lt_iff_lt_mul hnum).mp hupper
        have hle : den ≤ num * 10 ^ count := by
          rw [Nat.mul_comm]
          omega
        exact_mod_cast hle
      rw [le_div_iff₀ hdenpos]
      calc (10 : ℚ) ^ (1 - (count : Int) - 1) * den
          ≤ 10 ^ (1 - (count : Int) - 1) * (num * 10 ^ count) := by gcongr
        _ = num := by
          rw [mul_left_comm, hscale', mul_one]
    · have hden' : (num : ℚ) * 10 ^ (count - 1) < den := by
        have h := (Nat.le_div_iff_mul_le hnum).mp hlower
        have hlt : num * 10 ^ (count - 1) < den := by
          rw [Nat.mul_comm]
          omega
        exact_mod_cast hlt
      rw [div_lt_iff₀ hdenpos]
      calc (num : ℚ) = 10 ^ (1 - (count : Int)) * (num * 10 ^ (count - 1)) := by
            rw [mul_left_comm, hscale, mul_one]
        _ < 10 ^ (1 - (count : Int)) * den := by gcongr

/-! ## The search -/

namespace Format

variable {f : Format} {p : Nat}

def lowQuarters (f : Format) (p : Nat) : Nat :=
  4 * (f.parts p).1 -
    (if (f.parts p).1 = Nat.pow 2 (f.precision - 1) ∧ f.least < (f.parts p).2 then 1 else 2)

def quarters (f : Format) (p n : Nat) : Nat × Nat := scale n 1 ((f.parts p).2 - 2)

def inside (f : Format) (p c : Nat) (k : Int) : Bool :=
  let low := f.quarters p (f.lowQuarters p)
  let high := f.quarters p (4 * (f.parts p).1 + 2)
  let x := scaleTen c 1 k
  if (f.parts p).1 % 2 = 0 then low.1 * x.2 ≤ x.1 * low.2 && x.1 * high.2 ≤ high.1 * x.2
  else low.1 * x.2 < x.1 * low.2 && x.1 * high.2 < high.1 * x.2

def magnitudeOf (f : Format) (p : Nat) : Int :=
  magnitude (f.quarters p (4 * (f.parts p).1)).1 (f.quarters p (4 * (f.parts p).1)).2

def onGrid (f : Format) (p i : Nat) : Option Decimal :=
  let k := f.magnitudeOf p - (i + 1 : Nat)
  let x := scaleTen (f.quarters p (4 * (f.parts p).1)).1 (f.quarters p (4 * (f.parts p).1)).2 (-k)
  let c := x.1 / x.2
  let r := x.1 % x.2
  match f.inside p c k, f.inside p (c + 1) k with
  | true, true =>
    if 2 * r < x.2 || (2 * r == x.2 && c % 2 == 0) then some ⟨c, k⟩ else some ⟨c + 1, k⟩
  | true, false => some ⟨c, k⟩
  | false, true => some ⟨c + 1, k⟩
  | false, false => none

theorem shortest_eq (f : Format) (p : Nat) :
    f.shortest p = ((List.range 17).findSome? (f.onGrid p)).getD
      ⟨(f.quarters p (4 * (f.parts p).1)).1 / (f.quarters p (4 * (f.parts p).1)).2, 0⟩ := rfl

theorem quarters_den_pos (f : Format) (p n : Nat) : 0 < (f.quarters p n).2 :=
  scale_den_pos Nat.one_pos _

theorem Cell.quarters_eq {j m : Nat} (h : f.Cell p j m) (n : Nat) :
    ((f.quarters p n).1 : ℚ) / (f.quarters p n).2 = n / 4 * 2 ^ (f.least + j) := by
  rw [quarters, h.parts, scale_eq, zpow_sub₀ (by norm_num)]
  norm_num
  ring

/-- The midpoint below a pattern other than zero. -/
theorem Cell.midpoint_pred {j m : Nat} (h : f.Cell p j m) (hpos : 0 < p) :
    f.midpoint (p - 1) = (f.lowQuarters p : ℚ) / 4 * 2 ^ (f.least + j) ∧
      1 ≤ 4 * m - f.lowQuarters p := by
  have hunit : 0 < f.unit := f.unit_pos
  have hpattern := h.pattern
  have hlow : f.lowQuarters p = 4 * m - if m = f.unit ∧ f.least < f.least + j then 1 else 2 := by
    rw [lowQuarters, h.parts]
    rfl
  rw [hlow]
  split
  next hfirst =>
    -- The pattern is a power of two, so the one below it lies in the range below.
    obtain ⟨rfl, hj⟩ := hfirst
    obtain ⟨i, rfl⟩ : ∃ i, j = i + 1 := ⟨j - 1, by omega⟩
    have hbelow : f.Cell (p - 1) i (2 * f.unit - 1) := by
      refine ⟨?_, by omega, .inr (by omega)⟩
      rw [Nat.succ_mul] at hpattern
      omega
    refine ⟨?_, by omega⟩
    have hcast : ((2 * f.unit - 1 : Nat) : ℚ) = 2 * f.unit - 1 := by
      rw [Nat.cast_sub (by omega)]
      push_cast
      rfl
    have hcast' : ((4 * f.unit - 1 : Nat) : ℚ) = 4 * f.unit - 1 := by
      rw [Nat.cast_sub (by omega)]
      push_cast
      rfl
    rw [hbelow.midpoint_eq, hcast, hcast']
    push_cast
    rw [← add_assoc, zpow_add_one₀ (by norm_num)]
    ring
  next hlater =>
    have hm : 1 ≤ m ∧ (j = 0 ∨ f.unit ≤ m - 1) := by
      rcases h.lower with rfl | hle
      · exact ⟨by omega, .inl rfl⟩
      · by_cases hj : j = 0
        · exact ⟨by omega, .inl hj⟩
        · have hne : m ≠ f.unit := fun heq => hlater ⟨heq, by omega⟩
          exact ⟨by omega, .inr (by omega)⟩
    have hbelow : f.Cell (p - 1) j (m - 1) := by
      have hupper := h.upper
      exact ⟨by omega, by omega, hm.2⟩
    refine ⟨?_, by omega⟩
    have hcast : ((m - 1 : Nat) : ℚ) = m - 1 := by
      rw [Nat.cast_sub hm.1, Nat.cast_one]
    have hcast' : ((4 * m - 2 : Nat) : ℚ) = 4 * m - 2 := by
      rw [Nat.cast_sub (by omega)]
      push_cast
      rfl
    rw [hbelow.midpoint_eq, hcast, hcast']
    ring

theorem Cell.midpoint_quarters {j m : Nat} (h : f.Cell p j m) :
    f.midpoint p = ((4 * m + 2 : Nat) : ℚ) / 4 * 2 ^ (f.least + j) := by
  rw [h.midpoint_eq]
  push_cast
  ring

/-- The test of the search is whether a decimal lies where it is rounded to the pattern. -/
theorem inside_iff (hprecision : 2 ≤ f.precision) (hpos : 0 < p) (c : Nat) (k : Int) :
    f.inside p c k = true ↔ f.Nearest p (c * 10 ^ k) := by
  obtain ⟨j, m, h⟩ := f.exists_cell p
  have hvalue : ((scaleTen c 1 k).1 : ℚ) / (scaleTen c 1 k).2 = c * 10 ^ k := by
    rw [scaleTen_eq, Nat.cast_one, div_one]
  have hden : 0 < (scaleTen c 1 k).2 := scaleTen_den_pos Nat.one_pos k
  have hlow := h.quarters_eq (f.lowQuarters p)
  have hhigh := h.quarters_eq (4 * m + 2)
  rw [← (h.midpoint_pred hpos).1] at hlow
  rw [← h.midpoint_quarters] at hhigh
  have hlowden := f.quarters_den_pos p (f.lowQuarters p)
  have hhighden := f.quarters_den_pos p (4 * m + 2)
  have hparity := h.even_iff hprecision
  unfold inside
  rw [h.parts]
  dsimp only
  split
  next heven =>
    rw [Bool.and_eq_true, decide_eq_true_iff, decide_eq_true_iff, ← ratio_le_iff hlowden hden,
      ← ratio_le_iff hden hhighden, hlow, hvalue, hhigh]
    constructor
    · rintro ⟨hge, hle⟩
      exact ⟨hge.lt_or_eq.imp_right fun heq => ⟨heq, hparity.mpr heven⟩,
        hle.lt_or_eq.imp_right fun heq => ⟨heq, hparity.mpr heven⟩⟩
    · rintro ⟨hge, hle⟩
      exact ⟨hge.elim le_of_lt fun h => h.1.le, hle.elim le_of_lt fun h => h.1.le⟩
  next hodd =>
    have hodd' : ¬ p % 2 = 0 := fun heven => hodd (hparity.mp heven)
    rw [Bool.and_eq_true, decide_eq_true_iff, decide_eq_true_iff, ← ratio_lt_iff hlowden hden,
      ← ratio_lt_iff hden hhighden, hlow, hvalue, hhigh]
    constructor
    · rintro ⟨hgt, hlt⟩
      exact ⟨.inl hgt, .inl hlt⟩
    · rintro ⟨hgt, hlt⟩
      exact ⟨hgt.resolve_right fun h => hodd' h.2, hlt.resolve_right fun h => hodd' h.2⟩

theorem value_quarters (f : Format) (p : Nat) :
    ((f.quarters p (4 * (f.parts p).1)).1 : ℚ) / (f.quarters p (4 * (f.parts p).1)).2 =
      f.value p := by
  obtain ⟨j, m, h⟩ := f.exists_cell p
  rw [h.quarters_eq, h.value_eq, h.parts]
  push_cast
  ring

theorem quarters_num_pos (hpos : 0 < p) : 0 < (f.quarters p (4 * (f.parts p).1)).1 := by
  have hvalue : 0 < f.value p := by
    rw [← f.value_zero]
    exact f.value_strictMono hpos
  rw [← f.value_quarters p] at hvalue
  by_contra hzero
  rw [Nat.eq_zero_of_not_pos hzero] at hvalue
  simp at hvalue

/-- A decimal that the search finds rounds to the pattern. -/
theorem onGrid_eq_some (hprecision : 2 ≤ f.precision) (hpos : 0 < p) {i : Nat} {x : Decimal}
    (h : f.onGrid p i = some x) :
    f.Nearest p x.value ∧ x.exponent = f.magnitudeOf p - (i + 1 : Nat) := by
  unfold onGrid at h
  dsimp only at h
  split at h
  next hc hnext =>
    split at h
    next =>
      rw [← Option.some.inj h]
      exact ⟨(inside_iff hprecision hpos _ _).mp hc, rfl⟩
    next =>
      rw [← Option.some.inj h]
      exact ⟨(inside_iff hprecision hpos _ _).mp hnext, rfl⟩
  next hc _ =>
    rw [← Option.some.inj h]
    exact ⟨(inside_iff hprecision hpos _ _).mp hc, rfl⟩
  next _ hnext =>
    rw [← Option.some.inj h]
    exact ⟨(inside_iff hprecision hpos _ _).mp hnext, rfl⟩
  next => cases h

/-- A grid of seventeen digits is finer than a quarter of the distance of a range. -/
theorem Cell.grid_lt {j m : Nat} (h : f.Cell p j m) (hwide : 8 * f.unit ≤ 10 ^ 16) {k : Int}
    (hvalue : (10 : ℚ) ^ (k + 16) ≤ f.value p) : (10 : ℚ) ^ k < 2 ^ (f.least + j) / 4 := by
  have hunit : (0 : ℚ) < 2 ^ (f.least + j) := by positivity
  have hupper : f.value p < 2 * f.unit * 2 ^ (f.least + j) := by
    rw [h.value_eq]
    have hm : (m : ℚ) < 2 * f.unit := by exact_mod_cast h.upper
    exact mul_lt_mul_of_pos_right hm hunit
  have hwide' : 8 * (f.unit : ℚ) ≤ 10 ^ (16 : Int) := by exact_mod_cast hwide
  rw [zpow_add₀ (by norm_num)] at hvalue
  nlinarith

/-- What lies below a number of the format by less than a quarter of the distance is rounded to
it. -/
theorem Cell.nearest_of_le {j m : Nat} (h : f.Cell p j m) (hpos : 0 < p) {x : ℚ}
    (hle : x ≤ f.value p) (hgap : f.value p < x + 2 ^ (f.least + j) / 4) : f.Nearest p x := by
  obtain ⟨hlow, hquarters⟩ := h.midpoint_pred hpos
  have hunit : (0 : ℚ) < 2 ^ (f.least + j) := by positivity
  have hquarters' : (f.lowQuarters p : ℚ) + 1 ≤ 4 * m := by
    have : f.lowQuarters p + 1 ≤ 4 * m := by omega
    exact_mod_cast this
  have hbelow : f.midpoint (p - 1) + 2 ^ (f.least + j) / 4 ≤ f.value p := by
    rw [hlow, h.value_eq]
    nlinarith
  exact ⟨.inl (by linarith), .inl (hle.trans_lt (f.value_lt_midpoint p))⟩

/-- Seventeen digits are enough to find a decimal. -/
theorem onGrid_isSome (hprecision : 2 ≤ f.precision) (hwide : 8 * f.unit ≤ 10 ^ 16)
    (hpos : 0 < p) : (f.onGrid p 16).isSome = true := by
  obtain ⟨j, m, hcell⟩ := f.exists_cell p
  obtain ⟨hmagnitude, -⟩ := magnitude_bounds (quarters_num_pos hpos) (f.quarters_den_pos p _)
  rw [f.value_quarters] at hmagnitude
  obtain ⟨k, hk⟩ : ∃ k : Int, f.magnitudeOf p - (16 + 1 : Nat) = k := ⟨_, rfl⟩
  obtain ⟨x, hx⟩ : ∃ x, scaleTen (f.quarters p (4 * (f.parts p).1)).1
    (f.quarters p (4 * (f.parts p).1)).2 (-k) = x := ⟨_, rfl⟩
  have hxden : 0 < x.2 := hx ▸ scaleTen_den_pos (f.quarters_den_pos p _) _
  have hscaled : (x.1 : ℚ) / x.2 = f.value p * 10 ^ (-k) := by
    rw [← hx, scaleTen_eq, f.value_quarters]
  have hten : (0 : ℚ) < 10 ^ k := by positivity
  have hback : f.value p = x.1 / x.2 * 10 ^ k := by
    rw [hscaled, mul_assoc, ← zpow_add₀ (by norm_num), neg_add_cancel, zpow_zero, mul_one]
  -- The largest multiple of the grid that is not above the number is near enough.
  have hfloor : ((x.1 / x.2 : Nat) : ℚ) ≤ x.1 / x.2 := Nat.cast_div_le
  have hnext : (x.1 / x.2 : ℚ) < (x.1 / x.2 : Nat) + 1 := by
    rw [div_lt_iff₀ (by exact_mod_cast hxden)]
    exact_mod_cast (Nat.div_lt_iff_lt_mul hxden).mp (Nat.lt_succ_self (x.1 / x.2))
  have hgrid : (10 : ℚ) ^ k < 2 ^ (f.least + j) / 4 := by
    refine hcell.grid_lt hwide ?_
    have hexponent : k + 16 = f.magnitudeOf p - 1 := by omega
    rw [hexponent]
    exact hmagnitude
  have hnearest : f.Nearest p ((x.1 / x.2 : Nat) * 10 ^ k) := by
    refine hcell.nearest_of_le hpos ?_ ?_
    · rw [hback]
      exact mul_le_mul_of_nonneg_right hfloor hten.le
    · nlinarith
  have hinside := (inside_iff hprecision hpos _ _).mpr hnearest
  unfold onGrid
  rw [hk]
  dsimp only
  rw [hx, hinside]
  cases f.inside p (x.1 / x.2 + 1) k with
  | false => rfl
  | true =>
      dsimp only
      split <;> rfl

/-- The shortest decimal of a number other than zero rounds to it, and has at most seventeen
digits. -/
theorem shortest_spec (hprecision : 2 ≤ f.precision) (hwide : 8 * f.unit ≤ 10 ^ 16)
    (hpos : 0 < p) : f.Nearest p (f.shortest p).value ∧
      f.value p < 10 ^ ((f.shortest p).exponent + 17) := by
  have hsome : ((List.range 17).findSome? (f.onGrid p)).isSome = true := by
    rw [List.findSome?_isSome_iff]
    exact ⟨16, by simp, onGrid_isSome hprecision hwide hpos⟩
  obtain ⟨x, hx⟩ := Option.isSome_iff_exists.mp hsome
  obtain ⟨i, hi, hfound⟩ := List.exists_of_findSome?_eq_some hx
  obtain ⟨hnearest, hexponent⟩ := onGrid_eq_some hprecision hpos hfound
  rw [shortest_eq, hx, Option.getD_some]
  refine ⟨hnearest, ?_⟩
  obtain ⟨-, hmagnitude⟩ := magnitude_bounds (quarters_num_pos hpos) (f.quarters_den_pos p _)
  rw [f.value_quarters] at hmagnitude
  refine hmagnitude.trans_le (zpow_le_zpow_right₀ (by norm_num) ?_)
  have hi' : i < 17 := List.mem_range.mp hi
  change f.magnitudeOf p ≤ x.exponent + 17
  omega

end Format

/-! ## Trailing zeros -/

def trailingZeros (n : Nat) : Nat := ((Nat.toDigits 10 n).reverse.takeWhile (· == '0')).length

theorem pow_trailingZeros_dvd {n : Nat} (hn : 0 < n) : 10 ^ trailingZeros n ∣ n := by
  have hsmall : ∀ d < 10, Nat.digitChar d = '0' → d = 0 := by decide
  induction n using Nat.strongRecOn with
  | _ n ih =>
  rw [trailingZeros, Nat.toDigits_eq_if (by decide)]
  by_cases hlt : n < 10
  · rw [if_pos hlt, List.reverse_singleton, List.takeWhile_cons]
    have hne : ¬ Nat.digitChar n = '0' := fun h => hn.ne' (hsmall n hlt h)
    simp [hne]
  · rw [if_neg hlt, List.reverse_append, List.reverse_singleton, List.singleton_append,
      List.takeWhile_cons]
    by_cases hzero : Nat.digitChar (n % 10) = '0'
    · have hlast := hsmall _ (Nat.mod_lt n (by decide)) hzero
      have hfront := Nat.mul_dvd_mul_right (ih (n / 10) (by omega) (by omega)) 10
      have hsplit : n / 10 * 10 = n := by omega
      rw [hsplit] at hfront
      simp only [hzero, beq_self_eq_true, if_true, List.length_cons, Nat.pow_succ]
      exact hfront
    · simp [hzero]

namespace Decimal

theorem trimZeros_eq {x : Decimal} (hx : x.digits ≠ 0) :
    x.trimZeros = ⟨x.digits / 10 ^ trailingZeros x.digits, x.exponent + trailingZeros x.digits⟩ := by
  unfold trimZeros
  rw [if_neg hx]
  rfl

/-- Zeros at the end of the digits are worth what they are in the exponent. -/
theorem trimZeros_spec {x : Decimal} (hx : x.digits ≠ 0) : x.trimZeros.value = x.value ∧
    0 < x.trimZeros.digits ∧ x.exponent ≤ x.trimZeros.exponent := by
  obtain ⟨q, hq⟩ := pow_trailingZeros_dvd (Nat.pos_of_ne_zero hx)
  have hpow : 0 < 10 ^ trailingZeros x.digits := Nat.pow_pos (by decide)
  have hdigits : x.digits / 10 ^ trailingZeros x.digits = q :=
    Nat.div_eq_of_eq_mul_right hpow hq
  rw [trimZeros_eq hx, hdigits]
  dsimp only
  refine ⟨?_, ?_, by omega⟩
  · have hcast : (x.digits : ℚ) = 10 ^ trailingZeros x.digits * q := by exact_mod_cast hq
    rw [value, value, hcast]
    dsimp only
    rw [zpow_add₀ (by norm_num), zpow_natCast]
    ring
  · by_contra hzero
    rw [Nat.eq_zero_of_not_pos hzero, Nat.mul_zero] at hq
    exact hx hq

end Decimal

end Scriptorium.Number
