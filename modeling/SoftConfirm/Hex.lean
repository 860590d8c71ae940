import SoftConfirm.Text.Utf8
import SoftConfirm.Text.Quoted

/-!
Base-16 text of byte sequences. Writing is lower case; reading takes either case, refuses an odd
number of digits before it looks at them, and then names the first byte that is no digit.
-/

namespace SoftConfirm.Hex

open Text (hexDigit)

inductive Error where
  | oddLength
  | invalidDigit (byte : UInt8) (position : Nat)
  deriving DecidableEq, Repr

def Error.message : Error → String
  | .oddLength => "Odd number of digits"
  | .invalidDigit byte position =>
      s!"Invalid character {Text.quotedChar (Char.ofNat byte.toNat)} at position {position}"

def encodeChars (bytes : Bytes) : List Char :=
  bytes.flatMap fun byte => [hexDigit (byte.toNat / 16), hexDigit (byte.toNat % 16)]

def encode (bytes : Bytes) : String := String.ofList (encodeChars bytes)

def digitValue? (byte : UInt8) : Option Nat :=
  let n := byte.toNat
  if 48 ≤ n && n ≤ 57 then some (n - 48)
  else if 97 ≤ n && n ≤ 102 then some (n - 87)
  else if 65 ≤ n && n ≤ 70 then some (n - 55)
  else none

-- Pairs digits into bytes. `position` is the place of the first byte of `digits` in the text,
-- and `done` holds the bytes of the pairs before it, the last one first.
def decodePairs (done : Bytes) (position : Nat) : (digits : Bytes) → Except Error Bytes
  | [] => .ok done.reverse
  | [_] => .error .oddLength
  | high :: low :: rest =>
      match digitValue? high, digitValue? low with
      | some h, some l => decodePairs (UInt8.ofNat (h * 16 + l) :: done) (position + 2) rest
      | none, _ => .error (.invalidDigit high position)
      | some _, none => .error (.invalidDigit low (position + 1))

def decode (digits : Bytes) : Except Error Bytes :=
  if digits.length % 2 = 1 then .error .oddLength else decodePairs [] 0 digits

-- A text without the `0x` or `0X` that may stand before hex digits.
def stripMarker : List Char → List Char
  | '0' :: 'x' :: cs => cs
  | '0' :: 'X' :: cs => cs
  | cs => cs

-- The bytes of a hex text that may carry a marker.
def decodeMarked (cs : List Char) : Except Error Bytes :=
  decode (Text.utf8 (String.ofList (stripMarker cs)))

end SoftConfirm.Hex
