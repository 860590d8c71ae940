import SoftConfirm.Json.Term
import SoftConfirm.Text.Quoted

/-!
JSON values and their compact text. A value that was read, or that is to be compared with one, is
canonical: its members stand in the order of their keys, each key once.
-/

namespace SoftConfirm

inductive Json where
  | null
  | bool (value : Bool)
  | number (value : Json.Number)
  | text (value : String)
  | array (items : List Json)
  | object (members : List (String × Json))

namespace Json

def escapeChar (c : Char) : List Char :=
  if c == '"' || c == '\\' then ['\\', c]
  else if c == '\x08' then ['\\', 'b']
  else if c == '\x0C' then ['\\', 'f']
  else if c == '\n' then ['\\', 'n']
  else if c == '\r' then ['\\', 'r']
  else if c == '\t' then ['\\', 't']
  else if c.toNat < 0x20 then
    ['\\', 'u', '0', '0', Text.hexDigit (c.toNat / 16), Text.hexDigit (c.toNat % 16)]
  else [c]

def quotedChars (s : String) : List Char :=
  '"' :: s.toList.flatMap escapeChar ++ ['"']

def separated (parts : List (List Char)) : List Char := List.flatten (parts.intersperse [','])

-- The compact text of a value, members as they stand.
def chars : Json → List Char
  | .null => "null".toList
  | .bool value => (if value then "true" else "false").toList
  | .number value => value.render.toList
  | .text value => quotedChars value
  | .array items => '[' :: separated (items.map chars) ++ [']']
  | .object members =>
      '\x7b' :: separated (members.map fun m => quotedChars m.1 ++ ':' :: chars m.2) ++ ['\x7d']
termination_by value => sizeOf value
decreasing_by
  · have := List.sizeOf_lt_of_mem ‹_ ∈ items›
    simp_all; omega
  · have := List.sizeOf_lt_of_mem ‹_ ∈ members›
    rcases m with ⟨key, value⟩
    simp_all; omega

def render (value : Json) : String := String.ofList value.chars

-- Of neighbours with one key, only the last stays.
def keepLast : List (String × Json) → List (String × Json)
  | a :: b :: rest => if a.1 = b.1 then keepLast (b :: rest) else a :: keepLast (b :: rest)
  | short => short

-- Members in the order of their keys. Of several members with one key the last one counts.
def sortMembers (members : List (String × Json)) : List (String × Json) :=
  keepLast (members.mergeSort fun a b => decide (a.1 ≤ b.1))

-- The value with its members sorted at every level.
def canonical : Json → Json
  | .array items => .array (items.map canonical)
  | .object members => .object (sortMembers (members.map fun m => (m.1, canonical m.2)))
  | other => other
termination_by value => sizeOf value
decreasing_by
  · have := List.sizeOf_lt_of_mem ‹_ ∈ items›
    simp_all; omega
  · have := List.sizeOf_lt_of_mem ‹_ ∈ members›
    rcases m with ⟨key, value⟩
    simp_all; omega

-- The value as the tree of a text that says it.
def toTerm : Json → Term
  | .null => .null
  | .bool value => .bool value
  | .number value => .number (some value)
  | .text value => .text (some value)
  | .array items => .array (items.map toTerm) .closed
  | .object members => .object (members.map fun m => (.text (some m.1), toTerm m.2)) .closed
termination_by value => sizeOf value
decreasing_by
  · have := List.sizeOf_lt_of_mem ‹_ ∈ items›
    simp_all; omega
  · have := List.sizeOf_lt_of_mem ‹_ ∈ members›
    rcases m with ⟨key, value⟩
    simp_all; omega

end Json

end SoftConfirm
