/-!
# Binary floating point

A format is given by its precision and by the exponent of its smallest unit.  A magnitude is kept
as its bit pattern: `pattern = (e - least) * 2 ^ (precision - 1) + m` for the number `m * 2 ^ e`,
so patterns are ordered as the numbers are.  `round` takes a quotient to the nearest number of the
format, a tie to the even pattern, in exact arithmetic.
-/

namespace Scriptorium.Number

/-- A binary format: significant bits, exponent of the smallest unit, and the pattern of infinity. -/
structure Format where
  precision : Nat
  least : Int
  infinite : Nat
  deriving Repr, DecidableEq

def double : Format := ⟨53, -1074, 0x7FF0000000000000⟩

def single : Format := ⟨24, -149, 0x7F800000⟩

/-- The quotient rounded to the nearest natural number, a tie to the even one. -/
def roundDiv (num den : Nat) : Nat :=
  let q := num / den
  let r := num % den
  if 2 * r < den then q
  else if den < 2 * r then q + 1
  else if q % 2 = 0 then q else q + 1

/-- A quotient times a power of two, as a quotient of natural numbers. -/
def scale (num den : Nat) (e : Int) : Nat × Nat :=
  if 0 ≤ e then (num * Nat.pow 2 e.toNat, den) else (num, den * Nat.pow 2 (-e).toNat)

/-- The pattern of the number nearest to `num / den`; from half a unit above the largest number on
it is the pattern of infinity. -/
def Format.round (f : Format) (num den : Nat) : Nat :=
  if num = 0 then 0
  else
    let low : Int := (num.log2 : Int) - den.log2 - f.precision
    let (n, d) := scale num den (-low)
    let fit : Int := if Nat.pow 2 f.precision * d ≤ n then low + 1 else low
    let e := if fit < f.least then f.least else fit
    let (n, d) := scale num den (-e)
    min f.infinite ((e - f.least).toNat * Nat.pow 2 (f.precision - 1) + roundDiv n d)

/-- The integer mantissa and the exponent of a finite pattern. -/
def Format.parts (f : Format) (pattern : Nat) : Nat × Int :=
  let unit := Nat.pow 2 (f.precision - 1)
  let k := pattern / unit
  if k = 0 then (pattern, f.least) else (pattern % unit + unit, f.least + (k - 1 : Nat))

/-- A finite pattern as a quotient. -/
def Format.ratio (f : Format) (pattern : Nat) : Nat × Nat :=
  let (m, e) := f.parts pattern
  scale m 1 e

/-- The rounded product of two finite patterns. -/
def Format.mul (f : Format) (a b : Nat) : Nat :=
  let (n, d) := f.ratio a
  let (n', d') := f.ratio b
  f.round (n * n') (d * d')

/-- The rounded quotient of two finite patterns, the second not zero. -/
def Format.div (f : Format) (a b : Nat) : Nat :=
  let (n, d) := f.ratio a
  let (n', d') := f.ratio b
  f.round (n * d') (d * n')

/-- A signed number of a format: sign and pattern. -/
structure Binary (f : Format) where
  negative : Bool
  pattern : Nat
  deriving Repr, DecidableEq

namespace Binary

variable {f : Format}

/-- The pattern of the number that is not comparable to itself. -/
def isNan (x : Binary f) : Bool := f.infinite < x.pattern

def isFinite (x : Binary f) : Bool := x.pattern < f.infinite

/-- Equality of numbers: both zeros agree, and an undefined number agrees with nothing. -/
def same (x y : Binary f) : Bool :=
  !x.isNan && !y.isNan &&
    (x.pattern == y.pattern && (x.negative == y.negative || x.pattern == 0))

/-- The whole bit pattern, the sign in front. -/
def bits (x : Binary f) : Nat :=
  (if x.negative then (f.infinite / Nat.pow 2 (f.precision - 1) + 1) * Nat.pow 2 (f.precision - 1) else 0)
    + x.pattern

/-- The nearest number of another format. -/
def convert (g : Format) (x : Binary f) : Binary g :=
  if x.isNan then ⟨x.negative, g.infinite + Nat.pow 2 (g.precision - 2)⟩
  else if x.isFinite then
    let (n, d) := f.ratio x.pattern
    ⟨x.negative, g.round n d⟩
  else ⟨x.negative, g.infinite⟩

end Binary

end Scriptorium.Number
