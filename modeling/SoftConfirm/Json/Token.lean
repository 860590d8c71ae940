import SoftConfirm.Json.Number

/-!
Tokens of JSON texts. Scanning is a fold over the characters, so the tokens of two texts put
together are those of the first followed by those of the second, as long as no token spans both.
A text that stops being JSON ends in one broken token, which tells how it broke. Bytes that are no
text are scanned as well: what no character has is only noticed by who reads it.
-/

namespace SoftConfirm.Json

-- How a text fails to be JSON: something is wrong in it, or it ends too early.
inductive Failure where
  | malformed
  | unfinished
  deriving DecidableEq, Repr

-- A failure for a reader that wants the value, and for one that only passes over it.
structure Fault where
  whenRead : Failure
  whenSkipped : Failure
  deriving DecidableEq, Repr

def Fault.malformed : Fault := ⟨.malformed, .malformed⟩

def Fault.unfinished : Fault := ⟨.unfinished, .unfinished⟩

inductive Token where
  | openArray
  | closeArray
  | openObject
  | closeObject
  | comma
  | colon
  | null
  | bool (value : Bool)
  -- A number, or a numeral too great for any.
  | number (value : Option Number)
  -- A string, or one with half of a surrogate pair or with bytes of no character in it.
  | text (value : Option String)
  -- Where the text stops being JSON, and whether that is inside quotes.
  | broken (fault : Fault) (quoted : Bool)
  deriving DecidableEq, Repr

inductive NumberPart where
  | sign
  | zero
  | whole
  | point
  | fraction
  | mark
  | exponentSign
  | exponent
  deriving DecidableEq, Repr

inductive StringPart where
  | plain
  | escape
  -- Within the four digits of a code unit: their number so far, their value, whether one is no
  -- digit, and the first half of the pair that the unit has to complete.
  | unit (seen value : Nat) (spoiled : Bool) (high : Option Nat)
  | half (high : Nat)
  -- After the first half of a pair and a backslash.
  | halfEscape (high : Nat)
  deriving DecidableEq, Repr

-- Whether the characters of a string are whole. A reader stops where it meets half of a pair; that
-- bytes are no characters it finds out at the closing quote.
inductive Integrity where
  | whole
  | undecodable
  | halved
  deriving DecidableEq, Repr

inductive Mode where
  | between
  | literal (rest : List Char) (token : Token)
  | number (part : NumberPart) (reversed : Numeral)
  -- The characters so far, the last one first.
  | text (reversed : List Char) (integrity : Integrity) (part : StringPart)
  | halted
  deriving Repr

-- The tokens so far, the last one first, and what is being read.
structure Scanner where
  reversed : List Token
  mode : Mode

namespace Scanner

def start : Scanner := ⟨[], .between⟩

def emit (s : Scanner) (token : Token) : Scanner := ⟨token :: s.reversed, .between⟩

def halt (s : Scanner) (fault : Fault) (quoted : Bool) : Scanner :=
  ⟨.broken fault quoted :: s.reversed, .halted⟩

def enter (s : Scanner) (mode : Mode) : Scanner := { s with mode }

def isSpace (c : Char) : Bool := c == ' ' || c == '\n' || c == '\t' || c == '\r'

def stepBetween (s : Scanner) (c : Char) : Scanner :=
  if isSpace c then s.enter .between
  else match c with
  | '[' => s.emit .openArray
  | ']' => s.emit .closeArray
  | '\x7b' => s.emit .openObject
  | '\x7d' => s.emit .closeObject
  | ',' => s.emit .comma
  | ':' => s.emit .colon
  | '"' => s.enter (.text [] .whole .plain)
  | 'n' => s.enter (.literal ['u', 'l', 'l'] .null)
  | 't' => s.enter (.literal ['r', 'u', 'e'] (.bool true))
  | 'f' => s.enter (.literal ['a', 'l', 's', 'e'] (.bool false))
  | '-' => s.enter (.number .sign ⟨true, [], [], false, [], false⟩)
  | '0' => s.enter (.number .zero ⟨false, ['0'], [], false, [], false⟩)
  | _ =>
      if c.isDigit then s.enter (.number .whole ⟨false, [c], [], false, [], false⟩)
      else s.halt .malformed false

-- A numeral whose parts were read backwards, the right way round.
def forward (n : Numeral) : Numeral :=
  { n with
    whole := n.whole.reverse, fraction := n.fraction.reverse, exponent := n.exponent.reverse }

def emitNumber (s : Scanner) (n : Numeral) : Scanner := s.emit (.number (forward n).value?)

def stepNumber (s : Scanner) (part : NumberPart) (n : Numeral) (c : Char) : Scanner :=
  let isMark := c == 'e' || c == 'E'
  match part with
  | .sign =>
      if c == '0' then s.enter (.number .zero { n with whole := ['0'] })
      else if c.isDigit then s.enter (.number .whole { n with whole := [c] })
      else s.halt .malformed false
  | .zero =>
      if c.isDigit then s.halt .malformed false
      else if c == '.' then s.enter (.number .point { n with fractional := true })
      else if isMark then s.enter (.number .mark { n with fractional := true })
      else (s.emitNumber n).stepBetween c
  | .whole =>
      if c.isDigit then s.enter (.number .whole { n with whole := c :: n.whole })
      else if c == '.' then s.enter (.number .point { n with fractional := true })
      else if isMark then s.enter (.number .mark { n with fractional := true })
      else (s.emitNumber n).stepBetween c
  | .point =>
      if c.isDigit then s.enter (.number .fraction { n with fraction := [c] })
      else s.halt .malformed false
  | .fraction =>
      if c.isDigit then s.enter (.number .fraction { n with fraction := c :: n.fraction })
      else if isMark then s.enter (.number .mark n)
      else (s.emitNumber n).stepBetween c
  | .mark =>
      if c == '+' then s.enter (.number .exponentSign n)
      else if c == '-' then s.enter (.number .exponentSign { n with exponentNegative := true })
      else if c.isDigit then s.enter (.number .exponent { n with exponent := [c] })
      else s.halt .malformed false
  | .exponentSign =>
      if c.isDigit then s.enter (.number .exponent { n with exponent := [c] })
      else s.halt .malformed false
  | .exponent =>
      if c.isDigit then s.enter (.number .exponent { n with exponent := c :: n.exponent })
      else (s.emitNumber n).stepBetween c

def unitDigit? (c : Char) : Option Nat :=
  if c.isDigit then some (c.toNat - 48)
  else if 'a' ≤ c ∧ c ≤ 'f' then some (c.toNat - 87)
  else if 'A' ≤ c ∧ c ≤ 'F' then some (c.toNat - 55)
  else none

def escaped? : Char → Option Char
  | '"' => some '"'
  | '\\' => some '\\'
  | '/' => some '/'
  | 'b' => some '\x08'
  | 'f' => some '\x0C'
  | 'n' => some '\n'
  | 'r' => some '\r'
  | 't' => some '\t'
  | _ => none

-- A reader that met half a pair stops there; one that skips goes on.
def haltText (s : Scanner) (integrity : Integrity) (failure : Failure) : Scanner :=
  s.halt ⟨if integrity = .halved then .malformed else failure, failure⟩ true

def stepPlain (s : Scanner) (reversed : List Char) (integrity : Integrity) (c : Char) : Scanner :=
  if c == '"' then
    s.emit (.text (if integrity = .whole then some (String.ofList reversed.reverse) else none))
  else if c == '\\' then s.enter (.text reversed integrity .escape)
  else if c.toNat < 0x20 then s.haltText integrity .malformed
  else s.enter (.text (c :: reversed) integrity .plain)

def stepEscape (s : Scanner) (reversed : List Char) (integrity : Integrity) (c : Char) : Scanner :=
  if c == 'u' then s.enter (.text reversed integrity (.unit 0 0 false none))
  else match escaped? c with
    | some e => s.enter (.text (e :: reversed) integrity .plain)
    | none => s.haltText integrity .malformed

def isHigh (unit : Nat) : Bool := 0xD800 ≤ unit && unit < 0xDC00

def isLow (unit : Nat) : Bool := 0xDC00 ≤ unit && unit < 0xE000

-- A whole code unit, perhaps the second half of a pair.
def takeUnit (s : Scanner) (reversed : List Char) (integrity : Integrity) (high : Option Nat)
    (unit : Nat) : Scanner :=
  match high with
  | some high =>
      if isLow unit then
        let c := Char.ofNat (0x10000 + (high - 0xD800) * 0x400 + (unit - 0xDC00))
        s.enter (.text (c :: reversed) integrity .plain)
      else s.enter (.text reversed .halved .plain)
  | none =>
      if isHigh unit then s.enter (.text reversed integrity (.half unit))
      else if isLow unit then s.enter (.text reversed .halved .plain)
      else s.enter (.text (Char.ofNat unit :: reversed) integrity .plain)

-- A unit takes four bytes; what is wrong with them shows when all four are there.
def stepUnit (s : Scanner) (reversed : List Char) (integrity : Integrity) (seen value : Nat)
    (spoiled : Bool) (high : Option Nat) (c : Char) : Scanner :=
  let seen := seen + c.utf8Size
  let digit := unitDigit? c
  let spoiled := spoiled || digit.isNone
  let value := value * 16 + digit.getD 0
  if seen < 4 then s.enter (.text reversed integrity (.unit seen value spoiled high))
  else if spoiled then s.haltText integrity .malformed
  else s.takeUnit reversed integrity high value

def stepText (s : Scanner) (reversed : List Char) (integrity : Integrity) (part : StringPart)
    (c : Char) : Scanner :=
  match part with
  | .plain => s.stepPlain reversed integrity c
  | .escape => s.stepEscape reversed integrity c
  | .unit seen value spoiled high => s.stepUnit reversed integrity seen value spoiled high c
  | .half high =>
      if c == '\\' then s.enter (.text reversed integrity (.halfEscape high))
      else s.stepPlain reversed .halved c
  | .halfEscape high =>
      if c == 'u' then s.enter (.text reversed integrity (.unit 0 0 false (some high)))
      else s.stepEscape reversed .halved c

def step (s : Scanner) (c : Char) : Scanner :=
  match s.mode with
  | .between => s.stepBetween c
  | .literal [] token => (s.emit token).stepBetween c
  | .literal [l] token => if c == l then s.emit token else s.halt .malformed false
  | .literal (l :: rest) token =>
      if c == l then s.enter (.literal rest token) else s.halt .malformed false
  | .number part n => s.stepNumber part n c
  | .text reversed integrity part => s.stepText reversed integrity part c
  | .halted => s

def spoil : Mode → Mode
  | .text reversed .whole part => .text reversed .undecodable part
  | mode => mode

-- A byte that no character has. It is like a character that means nothing anywhere, but a string
-- with it is not whole.
def stepOdd (s : Scanner) : Scanner := (s.enter (spoil s.mode)).step '\x7f'

-- A character or, where there is none, a byte.
def feed (s : Scanner) : Option Char → Scanner
  | some c => s.step c
  | none => s.stepOdd

-- What the end of the text makes of what is being read.
def finish (s : Scanner) : List Token :=
  let ended := match s.mode with
    | .between | .halted => s
    | .literal _ _ => s.halt .unfinished false
    | .number .zero n | .number .whole n | .number .fraction n | .number .exponent n =>
        s.emitNumber n
    -- A reader asks for one more character here, one that skips looks at what there is.
    | .number _ _ => s.halt ⟨.unfinished, .malformed⟩ false
    | .text _ integrity _ => s.haltText integrity .unfinished
  ended.reversed.reverse

end Scanner

def Token.scan (units : List (Option Char)) : List Token :=
  (units.foldl Scanner.feed .start).finish

end SoftConfirm.Json
