/-!
Unsigned decimal numerals: an optional plus sign, then at least one ASCII digit. Leading zeros
are allowed, and a value above the given bound is refused.
-/

namespace SoftConfirm.Text

def digitValue (c : Char) : Nat := c.toNat - 48

def digitsValue (cs : List Char) : Nat :=
  cs.foldl (fun value c => value * 10 + digitValue c) 0

-- A numeral's digits: what stands after at most one plus sign.
def numeralDigits : List Char → List Char
  | '+' :: cs => cs
  | cs => cs

-- Reads a numeral whose value is at most `bound`.
def numeral? (bound : Nat) (s : String) : Option Nat :=
  let digits := numeralDigits s.toList
  if digits.isEmpty || !digits.all Char.isDigit then none
  else
    let value := digitsValue digits
    if value ≤ bound then some value else none

def word16? (s : String) : Option UInt16 := (numeral? (UInt16.size - 1) s).map UInt16.ofNat

def word32? (s : String) : Option UInt32 := (numeral? (UInt32.size - 1) s).map UInt32.ofNat

def word64? (s : String) : Option UInt64 := (numeral? (UInt64.size - 1) s).map UInt64.ofNat

end SoftConfirm.Text
