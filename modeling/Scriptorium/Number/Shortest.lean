import Scriptorium.Number.Binary

/-!
# The shortest decimal that reads back

Of all decimals that round to a given number of a format, the shortest are those with the fewest
digits, and of those the one nearest to the number is written; a tie goes to the even last digit.
The search tries the two neighbours of the number on the decimal grids of one digit, two digits and
so on, in exact arithmetic.
-/

namespace Scriptorium.Number

/-- The decimal `digits * 10 ^ exponent`. -/
structure Decimal where
  digits : Nat
  exponent : Int
  deriving Repr, DecidableEq

/-- The count of decimal digits of a number; zero has none. -/
def digitCount (n : Nat) : Nat := if n = 0 then 0 else (Nat.toDigits 10 n).length

/-- The `t` with `10 ^ (t - 1) ≤ num / den < 10 ^ t`. -/
def magnitude (num den : Nat) : Int :=
  if den ≤ num then digitCount (num / den) else 1 - (digitCount ((den - 1) / num) : Int)

/-- A quotient times a power of ten, as a quotient of natural numbers. -/
def scaleTen (num den : Nat) (k : Int) : Nat × Nat :=
  if 0 ≤ k then (num * Nat.pow 10 k.toNat, den) else (num, den * Nat.pow 10 (-k).toNat)

/-- The shortest decimal that rounds to a finite pattern other than zero. -/
def Format.shortest (f : Format) (pattern : Nat) : Decimal :=
  let (m, e) := f.parts pattern
  let closed := m % 2 = 0
  let low := 4 * m - (if m = Nat.pow 2 (f.precision - 1) ∧ f.least < e then 1 else 2)
  let (n, d) := scale (4 * m) 1 (e - 2)
  let (nl, dl) := scale low 1 (e - 2)
  let (nh, dh) := scale (4 * m + 2) 1 (e - 2)
  let t := magnitude n d
  let inside (c : Nat) (k : Int) : Bool :=
    let (a, b) := scaleTen c 1 k
    if closed then nl * b ≤ a * dl && a * dh ≤ nh * b else nl * b < a * dl && a * dh < nh * b
  let onGrid (i : Nat) : Option Decimal :=
    let k := t - (i + 1 : Nat)
    let (a, b) := scaleTen n d (-k)
    let c := a / b
    let r := a % b
    match inside c k, inside (c + 1) k with
    | true, true =>
      if 2 * r < b || (2 * r == b && c % 2 == 0) then some ⟨c, k⟩ else some ⟨c + 1, k⟩
    | true, false => some ⟨c, k⟩
    | false, true => some ⟨c + 1, k⟩
    | false, false => none
  ((List.range 17).findSome? onGrid).getD ⟨n / d, 0⟩

/-- Where positional notation begins and ends: `low < p ≤ high` for the position `p` of the point
relative to the first digit; and whether an exponent that is not negative has a plus sign. -/
structure Notation where
  low : Int
  high : Int
  plus : Bool
  deriving Repr, DecidableEq

/-- The text of a decimal; whole numbers keep a zero after the point. -/
def Notation.render (style : Notation) (x : Decimal) : String :=
  let ds := Nat.toDigits 10 x.digits
  let p : Int := ds.length + x.exponent
  let zeros (n : Int) : List Char := List.replicate n.toNat '0'
  let exponent : List Char :=
    (if style.plus ∧ 1 ≤ p then ['+'] else []) ++ (toString (p - 1)).toList
  String.ofList <|
    if 0 ≤ x.exponent ∧ p ≤ style.high then ds ++ zeros x.exponent ++ ['.', '0']
    else if 0 < p ∧ p ≤ style.high then ds.take p.toNat ++ '.' :: ds.drop p.toNat
    else if style.low < p ∧ p ≤ 0 then '0' :: '.' :: (zeros (-p) ++ ds)
    else match ds with
      | [c] => c :: 'e' :: exponent
      | c :: r => c :: '.' :: (r ++ 'e' :: exponent)
      | [] => []

/-- A decimal with its trailing zeros moved into the exponent. -/
def Decimal.trimZeros (x : Decimal) : Decimal :=
  let zeros := ((Nat.toDigits 10 x.digits).reverse.takeWhile (· == '0')).length
  if x.digits = 0 then x else ⟨x.digits / Nat.pow 10 zeros, x.exponent + zeros⟩

/-- The text of a finite number. -/
def Notation.write {f : Format} (style : Notation) (x : Binary f) : String :=
  (if x.negative then "-" else "") ++
    (if x.pattern = 0 then "0.0" else style.render (f.shortest x.pattern).trimZeros)

end Scriptorium.Number
