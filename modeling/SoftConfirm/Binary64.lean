/-!
Finite binary floating-point numbers of 53 significant bits, without their sign, in exact
arithmetic: rounding a quotient to the nearest one, and the shortest decimal that reads back.
-/

namespace SoftConfirm

-- The number `mantissa * 2 ^ exponent`.
structure Binary64 where
  mantissa : Nat
  exponent : Int
  deriving DecidableEq, Repr

namespace Binary64

def lowestExponent : Int := -1074

def highestExponent : Int := 971

def zero : Binary64 := ⟨0, lowestExponent⟩

-- `numerator / denominator * 2 ^ -exponent` as a quotient of natural numbers.
def scaled (numerator denominator : Nat) (exponent : Int) : Nat × Nat :=
  if exponent < 0 then (numerator * Nat.pow 2 exponent.natAbs, denominator)
  else (numerator, denominator * Nat.pow 2 exponent.natAbs)

-- The exponent at which a positive quotient has 53 bits before the point, or the lowest one.
def exponentOf (numerator denominator : Nat) : Int :=
  let guess : Int := Int.ofNat (Nat.log2 numerator) - Int.ofNat (Nat.log2 denominator) - 52
  let (n, d) := scaled numerator denominator guess
  max lowestExponent (if n / d < Nat.pow 2 52 then guess - 1 else guess)

-- The nearest number to a quotient, the even mantissa on a tie, unless it is too great.
def ofQuotient? (numerator denominator : Nat) : Option Binary64 :=
  if numerator = 0 then some zero
  else
    let exponent := exponentOf numerator denominator
    let (n, d) := scaled numerator denominator exponent
    let floor := n / d
    let rest := 2 * (n % d)
    let mantissa := if d < rest ∨ (rest = d ∧ floor % 2 = 1) then floor + 1 else floor
    let result : Binary64 :=
      if mantissa = Nat.pow 2 53 then ⟨Nat.pow 2 52, exponent + 1⟩ else ⟨mantissa, exponent⟩
    if highestExponent < result.exponent then none else some result

def toQuotient (x : Binary64) : Nat × Nat :=
  if x.exponent < 0 then (x.mantissa, Nat.pow 2 x.exponent.natAbs)
  else (x.mantissa * Nat.pow 2 x.exponent.natAbs, 1)

def multiply? (x y : Binary64) : Option Binary64 :=
  let (a, b) := x.toQuotient
  let (c, d) := y.toQuotient
  ofQuotient? (a * c) (b * d)

def divide? (x y : Binary64) : Option Binary64 :=
  let (a, b) := x.toQuotient
  let (c, d) := y.toQuotient
  ofQuotient? (a * d) (b * c)

def powerOfTen? (exponent : Nat) : Option Binary64 := ofQuotient? (Nat.pow 10 exponent) 1

-- A decimal number `digits * 10 ^ exponent`.
structure Decimal where
  digits : Nat
  exponent : Int
  deriving DecidableEq, Repr

-- Whether `numerator / denominator` is at least `10 ^ exponent`.
def reachesPower (numerator denominator : Nat) (exponent : Int) : Bool :=
  if exponent < 0 then denominator ≤ numerator * Nat.pow 10 exponent.natAbs
  else denominator * Nat.pow 10 exponent.natAbs ≤ numerator

-- The exponent of the greatest power of ten that a positive quotient reaches.
def decimalExponent (numerator denominator : Nat) : Int :=
  let bits : Int := Int.ofNat (Nat.log2 numerator) - Int.ofNat (Nat.log2 denominator)
  let low : Int := (bits - 1) * 30103 / 100000 - 1
  if reachesPower numerator denominator (low + 2) then
    if reachesPower numerator denominator (low + 3) then low + 3 else low + 2
  else if reachesPower numerator denominator (low + 1) then low + 1
  else low

-- The interval of the numbers that round to a positive number, in quarters of its last bit:
-- both ends, and whether they belong to it.
def interval (x : Binary64) : Nat × Nat × Bool :=
  let low := if x.mantissa = Nat.pow 2 52 ∧ lowestExponent < x.exponent then 4 * x.mantissa - 1
    else 4 * x.mantissa - 2
  (low, 4 * x.mantissa + 2, x.mantissa % 2 == 0)

def isReadBy (x : Binary64) (decimal : Decimal) : Bool :=
  let (low, high, closed) := x.interval
  -- Compare `digits * 10 ^ e` with `end * 2 ^ (x.exponent - 2)` as natural numbers.
  let binary := x.exponent - 2
  let ten := Nat.pow 10 decimal.exponent.natAbs
  let two := Nat.pow 2 binary.natAbs
  let left := decimal.digits * (if decimal.exponent < 0 then 1 else ten) *
    (if binary < 0 then two else 1)
  let right (bound : Nat) := bound * (if decimal.exponent < 0 then ten else 1) *
    (if binary < 0 then 1 else two)
  if closed then right low ≤ left && left ≤ right high
  else right low < left && left < right high

-- The neighbours of the number on the grid of multiples of `10 ^ exponent`: the one below, and
-- which of the two is nearer.
def gridNeighbours (x : Binary64) (exponent : Int) : Nat × Ordering :=
  let (a, b) := x.toQuotient
  let (n, d) := if exponent < 0 then (a * Nat.pow 10 exponent.natAbs, b)
    else (a, b * Nat.pow 10 exponent.natAbs)
  (n / d, compare (2 * (n % d)) d)

-- The decimal of the given number of digits that rounds to the number, the nearest if two do.
def decimalOf? (x : Binary64) (top : Int) (digits : Nat) : Option Decimal :=
  let exponent := top - Int.ofNat digits + 1
  let (below, side) := x.gridNeighbours exponent
  let low : Decimal := ⟨below, exponent⟩
  let high : Decimal := ⟨below + 1, exponent⟩
  match x.isReadBy low, x.isReadBy high with
  | true, true =>
      match side with
      | .lt => some low
      | .gt => some high
      | .eq => some (if below % 2 = 0 then low else high)
  | true, false => some low
  | false, true => some high
  | false, false => none

-- The decimal with the fewest digits that rounds to a positive number.
def shortest (x : Binary64) : Decimal :=
  let (a, b) := x.toQuotient
  let top := decimalExponent a b
  ((List.range 17).findSome? fun i => x.decimalOf? top (i + 1)).getD ⟨0, 0⟩

end Binary64

end SoftConfirm
