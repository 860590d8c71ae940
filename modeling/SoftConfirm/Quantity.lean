import SoftConfirm.Hex
import SoftConfirm.Text.Numeral

/-!
Hex quantities: 64-bit numbers as `0x` and their shortest base-16 digits. Reading wants the
marker and no leading zero, and takes digits of either case.
-/

namespace SoftConfirm.Quantity

-- Why a text is no quantity. Each cause but the empty one carries the text.
inductive Error where
  | missingMarker (text : String)
  | empty
  | badDigit (text : String)
  | leadingZero (text : String)
  | overflow (text : String)
  deriving DecidableEq, Repr

def Error.message : Error → String
  | .missingMarker text => "hex quantity must start with 0x: " ++ Text.quoted text
  | .empty => "hex quantity is empty"
  | .badDigit text => "invalid hex: " ++ text
  | .leadingZero text => "hex quantity has leading zero digits: " ++ Text.quoted text
  | .overflow text => "hex quantity overflows 64 bits: " ++ Text.quoted text

def encode (value : UInt64) : String := String.ofList ('0' :: 'x' :: Text.hexDigits value.toNat)

def digit? (c : Char) : Option Nat :=
  let n := c.toNat
  if 48 ≤ n && n ≤ 57 then some (n - 48)
  else if 97 ≤ n && n ≤ 102 then some (n - 87)
  else if 65 ≤ n && n ≤ 70 then some (n - 55)
  else none

-- Why digits are no 64-bit word.
inductive WordError where
  | empty
  | badDigit
  | tooLarge
  deriving DecidableEq, Repr

def WordError.message : WordError → String
  | .empty => "cannot parse integer from empty string"
  | .badDigit => "invalid digit found in string"
  | .tooLarge => "number too large to fit in target type"

-- A number with one more digit behind it.
def pushDigit (n : Nat) (c : Char) : Except WordError Nat :=
  match digit? c with
  | none => .error .badDigit
  | some d => if n * 16 + d < UInt64.size then .ok (n * 16 + d) else .error .tooLarge

-- The word that these digits spell, which may have a plus sign before them.
def word (digits : List Char) : Except WordError UInt64 :=
  match digits with
  | [] => .error .empty
  | ['+'] => .error .badDigit
  | _ => ((Text.numeralDigits digits).foldlM pushDigit 0).map UInt64.ofNat

-- What stands after the marker, if there is one.
def afterMarker? : List Char → Option (List Char)
  | '0' :: 'x' :: cs => some cs
  | '0' :: 'X' :: cs => some cs
  | _ => none

def decode (s : String) : Except Error UInt64 :=
  match afterMarker? s.toList with
  | none => .error (.missingMarker s)
  | some digits =>
      if digits.isEmpty then .error .empty
      else if !digits.all (fun c => (digit? c).isSome) then .error (.badDigit s)
      else if 1 < digits.length && digits.head? == some '0' then .error (.leadingZero s)
      else if 16 < digits.length then .error (.overflow s)
      else (word digits).mapError fun e => .badDigit e.message

end SoftConfirm.Quantity
