import SoftConfirm.Json.Value

/-!
Reading typed values from JSON trees. The first fault in the order of the text is the one
reported: a value of the wrong shape before the place where a text breaks later on, and a missing
member only when its object is closed.
-/

namespace SoftConfirm.Json

-- Why a whole value has not the shape that is asked for.
inductive Mismatch where
  | missingField (name : String)
  | duplicateField (name : String)
  -- Something of another type, named as messages name it.
  | wrongType (found expected : String)
  | outOfRange (value : Int) (expected : String)
  | wrongLength (length : Nat) (expected : String)
  | unknownVariant (found : String) (expected : List String)
  -- A text that does not spell what it should.
  | rejected (reason : String)
  deriving DecidableEq, Repr

def Mismatch.message : Mismatch → String
  | .missingField name => s!"missing field \x60{name}\x60"
  | .duplicateField name => s!"duplicate field \x60{name}\x60"
  | .wrongType found expected => s!"invalid type: {found}, expected {expected}"
  | .outOfRange value expected => s!"invalid value: integer \x60{value}\x60, expected {expected}"
  | .wrongLength length expected => s!"invalid length {length}, expected {expected}"
  | .unknownVariant found expected =>
      s!"unknown variant \x60{found}\x60, expected " ++
        String.intercalate " or " (expected.map fun name => s!"\x60{name}\x60")
  | .rejected reason => reason

inductive ReadError where
  | text (failure : Failure)
  | shape (mismatch : Mismatch)
  deriving DecidableEq, Repr

abbrev Reading := Except ReadError

def ReadError.malformed : ReadError := .text .malformed

def mismatch {α : Type} (m : Mismatch) : Reading α := .error (.shape m)

def Ending.check : Ending → Reading Unit
  | .closed => .ok ()
  | .cut fault => .error (.text fault.whenRead)

def nestingLimit : Nat := 127

-- The depth left inside a container, if one may stand here.
def enter : Nat → Reading Nat
  | 0 => .error .malformed
  | depth + 1 => .ok depth

namespace Term

-- What a message calls the value. A scalar has to be whole for that.
def describe : Term → Reading String
  | .null => .ok "null"
  | .bool value => .ok s!"boolean \x60{value}\x60"
  | .number (some (.integer value)) => .ok s!"integer \x60{value}\x60"
  | .number (some value) => .ok s!"floating point \x60{value.render}\x60"
  | .number none => .error .malformed
  | .text (some value) => .ok ("string " ++ Text.quoted value)
  | .text none => .error .malformed
  | .array _ _ => .ok "sequence"
  | .object _ _ => .ok "map"
  | .broken fault _ => .error (.text fault.whenRead)

def refuse {α : Type} (expected : String) (term : Term) : Reading α := do
  mismatch (.wrongType (← term.describe) expected)

def skip : Term → Reading Unit
  | .array _ (.cut fault) => .error (.text fault.whenSkipped)
  | .object _ (.cut fault) => .error (.text fault.whenSkipped)
  | .broken fault _ => .error (.text fault.whenSkipped)
  | _ => .ok ()

def readText : Term → Reading String
  | .text (some value) => .ok value
  | term => term.refuse "a string"

def readSpelled {α : Type} (spell : String → Except String α) (term : Term) : Reading α := do
  match spell (← term.readText) with
  | .ok value => return value
  | .error reason => mismatch (.rejected reason)

def readBounded (expected : String) (bound : Nat) : Term → Reading Nat
  | .number (some (.integer value)) =>
      if 0 ≤ value ∧ value ≤ bound then .ok value.toNat
      else mismatch (.outOfRange value expected)
  | term => term.refuse expected

def readWord32 (term : Term) : Reading UInt32 :=
  (term.readBounded "u32" (UInt32.size - 1)).map UInt32.ofNat

def readWord64 (term : Term) : Reading UInt64 :=
  (term.readBounded "u64" (UInt64.size - 1)).map UInt64.ofNat

def readList {α : Type} (depth : Nat) (item : Term → Reading α) : Term → Reading (List α)
  | .array items ending => do
      let _ ← enter depth
      let values ← items.mapM item
      ending.check
      return values
  | term => term.refuse "a sequence"

-- The key of a member. What is no text has broken the object in its place.
def readKey (ending : Ending) : Term → Reading String
  | .text (some key) => .ok key
  | .text none => .error .malformed
  | _ => do
      ending.check
      .error .malformed

-- Any value, as deeply nested as the limit allows.
def readJson : Nat → Term → Reading Json
  | _, .null => .ok .null
  | _, .bool value => .ok (.bool value)
  | _, .number (some value) => .ok (.number value)
  | _, .number none => .error .malformed
  | _, .text (some value) => .ok (.text value)
  | _, .text none => .error .malformed
  | _, .broken fault _ => .error (.text fault.whenRead)
  | 0, .array _ _ => .error .malformed
  | 0, .object _ _ => .error .malformed
  | depth + 1, .array items ending => do
      let values ← items.mapM (readJson depth)
      ending.check
      return .array values
  | depth + 1, .object members ending => do
      let values ← members.mapM fun m => do
        let key ← readKey ending m.1
        return (key, ← readJson depth m.2)
      ending.check
      return .object (sortMembers values)

end Term

-- One field of a record, read into a draft that holds what is known so far.
structure Member (δ : Type) where
  name : String
  -- Whether an array of the fields may end before this one.
  optional : Bool
  isSet : δ → Bool
  read : (depth : Nat) → Term → δ → Reading δ

-- A record, written as an object or as an array of its fields in their order.
structure Shape (δ α : Type) where
  name : String
  fields : List (Member δ)
  blank : δ
  -- What the draft amounts to when all that was given is in it.
  finish : δ → Except Mismatch α

-- Where a tree comes from. A text breaks at an item too many, a value has the wrong length.
inductive Origin where
  | text
  | value
  deriving DecidableEq, Repr

def need {α : Type} (name : String) : Option α → Except Mismatch α
  | some value => .ok value
  | none => .error (.missingField name)

namespace Shape

variable {δ α : Type}

def lengthText (shape : Shape δ α) : String :=
  s!"struct {shape.name} with {shape.fields.length} element" ++
    if shape.fields.length = 1 then "" else "s"

def readMember (shape : Shape δ α) (depth : Nat) (ending : Ending) (draft : δ)
    (member : Term × Term) : Reading δ := do
  let key ← Term.readKey ending member.1
  match shape.fields.find? (·.name == key) with
  | some field =>
      if field.isSet draft then mismatch (.duplicateField field.name)
      else field.read depth member.2 draft
  | none => do
      member.2.skip
      return draft

-- Fields and items in step. Gives the draft and how many items are left over.
def readItems (shape : Shape δ α) (depth : Nat) (ending : Ending) :
    List (Member δ) → List Term → δ → Reading (δ × Nat)
  | [], items, draft => .ok (draft, items.length)
  | field :: fields, item :: items, draft => do
      readItems shape depth ending fields items (← field.read depth item draft)
  | field :: fields, [], draft => do
      ending.check
      if field.optional then readItems shape depth ending fields [] draft
      else mismatch (.wrongLength (shape.fields.length - (fields.length + 1)) shape.lengthText)

-- The record's value once its container is closed.
def conclude (shape : Shape δ α) (draft : δ) : Reading α :=
  match shape.finish draft with
  | .ok value => .ok value
  | .error m => mismatch m

def read (shape : Shape δ α) (origin : Origin) (depth : Nat) : Term → Reading α
  | .object members ending => do
      let depth ← enter depth
      let draft ← members.foldlM (shape.readMember depth ending) shape.blank
      ending.check
      shape.conclude draft
  | .array items ending => do
      let depth ← enter depth
      let (draft, left) ← shape.readItems depth ending shape.fields items shape.blank
      if left ≠ 0 then
        match origin with
        | .text => .error .malformed
        | .value => mismatch (.wrongLength items.length "fewer elements in array")
      else do
        ending.check
        shape.conclude draft
  | term => term.refuse s!"struct {shape.name}"

end Shape

-- One of several names, alone or as the only key of an object whose value is null.
def Term.readVariant {α : Type} (depth : Nat) (variants : List (String × α)) :
    Term → Reading α
  | .text (some name) => pick name
  | .text none => .error .malformed
  | .object members ending => do
      let _ ← enter depth
      match members with
      | [] => do
          ending.check
          .error .malformed
      | (key, value) :: rest =>
          let found ← match key with
            | .text (some name) => pick name
            | .text none => .error .malformed
            | odd => odd.refuse "variant identifier"
          match value with
          | .null => pure ()
          | other => other.refuse "unit"
          if rest.isEmpty then ending.check else .error .malformed
          return found
  | .broken fault bare => .error (if bare then .malformed else .text fault.whenRead)
  | _ => .error .malformed
where
  pick (name : String) : Reading α :=
    match variants.find? (·.1 == name) with
    | some variant => .ok variant.2
    | none => mismatch (.unknownVariant name (variants.map (·.1)))

-- Reads the value that a text holds, and nothing after it.
def readDocument {α : Type} (read : Term → Reading α) (s : String) : Reading α := do
  let document := Document.ofText s
  let value ← read document.root
  if document.trailing then .error .malformed else return value

def ofText (s : String) : Reading Json := readDocument (Term.readJson nestingLimit) s

end SoftConfirm.Json
