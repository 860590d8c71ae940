import SoftConfirm.Text.Unprintable

/-!
Quoted forms of texts and characters for messages. A backslash escapes the quote in use, the
backslash itself, and the usual controls; whatever else cannot be shown appears as its code point
in braces.
-/

namespace SoftConfirm.Text

def hexDigit (n : Nat) : Char :=
  if n < 10 then Char.ofNat (48 + n) else Char.ofNat (87 + n)

-- The lower-case base-16 digits of a number, without leading zeros, before those in `tail`.
def hexDigitsOnto (n : Nat) (tail : List Char) : List Char :=
  if h : n < 16 then hexDigit n :: tail
  else hexDigitsOnto (n / 16) (hexDigit (n % 16) :: tail)
termination_by n

def hexDigits (n : Nat) : List Char := hexDigitsOnto n []

-- How one character stands inside quotes made of `quote`.
def escapeChar (quote c : Char) : List Char :=
  if c == quote || c == '\\' then ['\\', c]
  else if c == '\n' then ['\\', 'n']
  else if c == '\r' then ['\\', 'r']
  else if c == '\t' then ['\\', 't']
  else if c.toNat == 0 then ['\\', '0']
  else if isUnprintable c then "\\u\x7b".toList ++ hexDigits c.toNat ++ ['}']
  else [c]

def quoted (s : String) : String :=
  String.ofList ('"' :: s.toList.flatMap (escapeChar '"') ++ ['"'])

def quotedChar (c : Char) : String :=
  String.ofList ('\'' :: escapeChar '\'' c ++ ['\''])

end SoftConfirm.Text
