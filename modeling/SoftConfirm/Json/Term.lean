import SoftConfirm.Json.Token
import SoftConfirm.Text.Utf8

/-!
The tree of a JSON text, which may be cut short. Every container that the break is in ends in the
same fault, so a reader meets it after all that stands before it, and one that skips a whole value
sees it at once.
-/

namespace SoftConfirm.Json

inductive Ending where
  | closed
  | cut (fault : Fault)
  deriving DecidableEq, Repr

inductive Term where
  | null
  | bool (value : Bool)
  | number (value : Option Number)
  | text (value : Option String)
  | array (items : List Term) (ending : Ending)
  -- Members in the order of the text. A key that is no text breaks the object.
  | object (members : List (Term × Term)) (ending : Ending)
  -- Where the text breaks, and whether that is in something that is neither text nor container.
  | broken (fault : Fault) (bare : Bool)

-- A container whose inside is being read, with what stands before the value to come.
inductive Frame where
  | item (before : List Term)
  | member (before : List (Term × Term)) (key : Term)

-- What may come next, the innermost container first. Parts are kept last one first.
inductive Builder where
  | valueNext (frames : List Frame)
  | arrayStart (frames : List Frame)
  | arrayNext (items : List Term) (frames : List Frame)
  | objectStart (frames : List Frame)
  | keyNext (members : List (Term × Term)) (frames : List Frame)
  | colonNext (members : List (Term × Term)) (key : Term) (frames : List Frame)
  | objectNext (members : List (Term × Term)) (frames : List Frame)
  | finished (root : Term) (trailing : Bool)

namespace Builder

def plug (value : Term) : List Frame → Builder
  | [] => .finished value false
  | .item before :: frames => .arrayNext (value :: before) frames
  | .member before key :: frames => .objectNext ((key, value) :: before) frames

-- The whole text's tree when it breaks in the given value.
def cutOff (fault : Fault) (value : Term) (frames : List Frame) : Term :=
  frames.foldl (fun value frame =>
    match frame with
    | .item before => .array (value :: before).reverse (.cut fault)
    | .member before key => .object ((key, value) :: before).reverse (.cut fault)) value

def cut (fault : Fault) (value : Term) (frames : List Frame) : Builder :=
  .finished (cutOff fault value frames) false

def scalar? : Token → Option Term
  | .null => some .null
  | .bool value => some (.bool value)
  | .number value => some (.number value)
  | .text value => some (.text value)
  | _ => none

def stepValue (frames : List Frame) (token : Token) : Builder :=
  match token with
  | .openArray => .arrayStart frames
  | .openObject => .objectStart frames
  | .broken fault quoted => cut fault (.broken fault !quoted) frames
  | _ =>
      match scalar? token with
      | some value => plug value frames
      | none => cut .malformed (.broken .malformed true) frames

-- What stands in the place of a key and is none, and the fault that this is.
def oddKey (token : Token) : Term × Fault :=
  match token with
  | .openArray => (.array [] (.cut .malformed), .malformed)
  | .openObject => (.object [] (.cut .malformed), .malformed)
  | .broken fault quoted => (.broken fault !quoted, if quoted then fault else .malformed)
  | _ => ((scalar? token).getD (.broken .malformed true), .malformed)

def stepKey (members : List (Term × Term)) (frames : List Frame) (token : Token) : Builder :=
  match token with
  | .text value => .colonNext members (.text value) frames
  | _ =>
      let (key, fault) := oddKey token
      cut fault (.object ((key, .broken fault false) :: members).reverse (.cut fault)) frames

def step (b : Builder) (token : Token) : Builder :=
  match b with
  | .valueNext frames => stepValue frames token
  | .arrayStart frames =>
      match token with
      | .closeArray => plug (.array [] .closed) frames
      | _ => stepValue (.item [] :: frames) token
  | .arrayNext items frames =>
      match token with
      | .comma => .valueNext (.item items :: frames)
      | .closeArray => plug (.array items.reverse .closed) frames
      | _ => cut .malformed (.array items.reverse (.cut .malformed)) frames
  | .objectStart frames =>
      match token with
      | .closeObject => plug (.object [] .closed) frames
      | _ => stepKey [] frames token
  | .keyNext members frames => stepKey members frames token
  | .colonNext members key frames =>
      match token with
      | .colon => .valueNext (.member members key :: frames)
      | _ =>
          cut .malformed
            (.object ((key, .broken .malformed false) :: members).reverse (.cut .malformed)) frames
  | .objectNext members frames =>
      match token with
      | .comma => .keyNext members frames
      | .closeObject => plug (.object members.reverse .closed) frames
      | _ => cut .malformed (.object members.reverse (.cut .malformed)) frames
  | .finished root _ => .finished root true

-- The tree when the tokens are over, and whether some follow the value.
def finish : Builder → Term × Bool
  | .valueNext frames => (cutOff .unfinished (.broken .unfinished false) frames, false)
  | .arrayStart frames => (cutOff .unfinished (.array [] (.cut .unfinished)) frames, false)
  | .arrayNext items frames =>
      (cutOff .unfinished (.array items.reverse (.cut .unfinished)) frames, false)
  | .objectStart frames => (cutOff .unfinished (.object [] (.cut .unfinished)) frames, false)
  | .keyNext members frames | .objectNext members frames =>
      (cutOff .unfinished (.object members.reverse (.cut .unfinished)) frames, false)
  | .colonNext members key frames =>
      let member := (key, .broken .unfinished false)
      (cutOff .unfinished (.object (member :: members).reverse (.cut .unfinished)) frames, false)
  | .finished root trailing => (root, trailing)

end Builder

-- A text's first value and whether anything but space follows it.
structure Document where
  root : Term
  trailing : Bool

def Document.ofUnits (units : List (Option Char)) : Document :=
  let (root, trailing) := ((Token.scan units).foldl Builder.step (.valueNext [])).finish
  ⟨root, trailing⟩

def Document.ofText (s : String) : Document := ofUnits (s.toList.map some)

def Document.ofBytes (bytes : Bytes) : Document := ofUnits (Text.units bytes)

end SoftConfirm.Json
