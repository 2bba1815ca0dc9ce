import Scriptorium.Number.Binary

/-!
# Decimal literals

Two ways to take a decimal to a binary number.  `nearest` rounds the exact value once.  `scaled`
converts the digits and a power of ten separately and multiplies or divides once, which may be off
in the last place; beyond the largest power of ten it divides in steps.
-/

namespace Scriptorium.Number

/-- The number nearest to `digits * 10 ^ exponent`. -/
def nearest (f : Format) (digits : Nat) (exponent : Int) : Nat :=
  if digits = 0 then 0
  else
    let size := (digits.log2 : Int) + 1 + exponent * 3
    if 0 ≤ exponent then
      if exponent > 2000 then f.infinite else f.round (digits * Nat.pow 10 exponent.toNat) 1
    else if size < -5000 ∧ exponent < -2000 then 0
    else f.round digits (Nat.pow 10 (-exponent).toNat)

/-- The largest power of ten of 64 bits. -/
def largestTen : Nat := 308

/-- The digits divided by the largest power of ten until the exponent is in reach. -/
def scaledDown (fuel : Nat) (pattern : Nat) (exponent : Int) : Nat :=
  match fuel with
  | 0 => 0
  | fuel + 1 =>
    if pattern = 0 then 0
    else if -(largestTen : Int) ≤ exponent then
      double.div pattern (double.round (Nat.pow 10 (-exponent).toNat) 1)
    else scaledDown fuel (double.div pattern (double.round (Nat.pow 10 largestTen) 1))
      (exponent + largestTen)

/-- `digits * 10 ^ exponent` by one multiplication or by divisions, or nothing beyond the largest
number. -/
def scaled (digits : Nat) (exponent : Int) : Option Nat :=
  let start := double.round digits 1
  if 0 ≤ exponent then
    if start = 0 then some 0
    else if (largestTen : Int) < exponent then none
    else
      let p := double.mul start (double.round (Nat.pow 10 exponent.toNat) 1)
      if p < double.infinite then some p else none
  else some (scaledDown 4 start exponent)

end Scriptorium.Number
