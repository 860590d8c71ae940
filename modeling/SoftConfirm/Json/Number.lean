import SoftConfirm.Binary64
import SoftConfirm.Text.Numeral

/-!
Numbers of JSON texts: 64-bit integers, signed or unsigned, and floating-point numbers for all
else. A float is read from its first nineteen or so digits, which fit 64 bits, and one power of
ten; it is written with the fewest digits that read back.
-/

namespace SoftConfirm.Json

inductive Number where
  | integer (value : Int)
  | float (negative : Bool) (magnitude : Binary64)
  deriving DecidableEq, Repr

-- The parts of a numeral as they stand in the text, digits only.
structure Numeral where
  negative : Bool
  whole : List Char
  fraction : List Char
  exponentNegative : Bool
  exponent : List Char
  -- Whether there is a point or an exponent.
  fractional : Bool
  deriving DecidableEq, Repr

namespace Numeral

open Text (digitValue)

def wordBound : Nat := UInt64.size

-- Digits taken into a 64-bit significand until the first that does not fit: the significand,
-- and how many digits were taken and left.
def gather (significand : Nat) (digits : List Char) : Nat × Nat × Nat :=
  let (value, taken, left, _) := digits.foldl (fun (value, taken, left, full) c =>
    let next := value * 10 + digitValue c
    if full || wordBound ≤ next then (value, taken, left + 1, true)
    else (next, taken + 1, left, false)) (significand, 0, 0, false)
  (value, taken, left)

def exponentBound : Nat := Nat.pow 2 31

-- The exponent text's value, unless it does not fit 31 bits.
def exponentValue? (n : Numeral) : Option Int :=
  let value := n.exponent.foldl (fun value c => min exponentBound (value * 10 + digitValue c)) 0
  if exponentBound ≤ value then none
  else some (if n.exponentNegative then -Int.ofNat value else Int.ofNat value)

def clamp (exponent : Int) : Int := max (-exponentBound) (min (exponentBound - 1) exponent)

-- Times `10 ^ exponent`, in steps of at most 308.
def scale? : (steps : Nat) → Binary64 → (exponent : Int) → Option Binary64
  | 0, value, _ => some value
  | steps + 1, value, exponent =>
      if exponent.natAbs ≤ 308 then do
        let power ← Binary64.powerOfTen? exponent.natAbs
        if 0 ≤ exponent then value.multiply? power else value.divide? power
      else if value.mantissa = 0 then some value
      else if 0 ≤ exponent then none
      else do
        let power ← Binary64.powerOfTen? 308
        scale? steps (← value.divide? power) (exponent + 308)

-- The floating-point value, unless it is too great. Four steps bring any significand to zero.
def float? (n : Numeral) : Option Number := do
  let (first, _, wholeLeft) := gather 0 n.whole
  let (significand, taken, _) := gather first n.fraction
  match n.exponentValue? with
  | none =>
      if significand ≠ 0 ∧ !n.exponentNegative then none
      else some (.float n.negative .zero)
  | some written =>
      let exponent := clamp (Int.ofNat wholeLeft - Int.ofNat taken + written)
      let start ← Binary64.ofQuotient? significand 1
      some (.float n.negative (← scale? 4 start exponent))

-- The value of a numeral, unless it is too great for a float.
def value? (n : Numeral) : Option Number :=
  let (magnitude, _, wholeLeft) := gather 0 n.whole
  if n.fractional || wholeLeft ≠ 0 then n.float?
  else if !n.negative then some (.integer (Int.ofNat magnitude))
  else if magnitude = 0 ∨ Nat.pow 2 63 < magnitude then
    (Binary64.ofQuotient? magnitude 1).map (.float true)
  else some (.integer (-Int.ofNat magnitude))

end Numeral

namespace Number

-- Where positional notation ends, as the exponents of the first digit.
def lowestPositional : Int := -5

def highestPositional : Int := 15

-- The digits of a decimal, placed around a point or before an exponent.
def decimalText (decimal : Binary64.Decimal) : String :=
  let all := (toString decimal.digits).toList
  -- The shortest decimal can end in zeros only when it has a single digit before them.
  let digits := (all.reverse.dropWhile (· == '0')).reverse
  let top := decimal.exponent + Int.ofNat all.length - 1
  if lowestPositional ≤ top ∧ top ≤ highestPositional then
    if top < 0 then
      "0." ++ String.ofList (List.replicate (top.natAbs - 1) '0' ++ digits)
    else
      let split := top.natAbs + 1
      let whole := digits.take split ++ List.replicate (split - digits.length) '0'
      let fraction := digits.drop split
      String.ofList (whole ++ '.' :: (if fraction.isEmpty then ['0'] else fraction))
  else
    let mantissa := match digits with
      | [] => []
      | [d] => [d]
      | d :: rest => d :: '.' :: rest
    String.ofList (mantissa ++ ['e', if top < 0 then '-' else '+']) ++ toString top.natAbs

def render : Number → String
  | .integer value => toString value
  | .float negative magnitude =>
      (if negative then "-" else "") ++
        (if magnitude.mantissa = 0 then "0.0" else decimalText magnitude.shortest)

end Number

end SoftConfirm.Json
