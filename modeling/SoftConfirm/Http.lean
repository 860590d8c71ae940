import SoftConfirm.Json.Value
import SoftConfirm.Text.Utf8

/-!
Requests and responses as far as the node looks at them: the parts of a target, percent-encoded
parameters, and media types.
-/

namespace SoftConfirm.Http

structure Request where
  method : String
  -- The path with the query, if there is one.
  target : String
  headers : List (String × String)
  body : Bytes

inductive Body where
  | empty
  | json (value : Json)
  | plain (text : String)

def Body.render : Body → String
  | .empty => ""
  | .json value => value.render
  | .plain text => text

structure Response where
  status : Nat
  contentType : Option String
  body : Body

namespace Response

def jsonType : String := "application/json"

def plainType : String := "text/plain; charset=utf-8"

def empty (status : Nat) : Response := ⟨status, none, .empty⟩

def json (status : Nat) (value : Json) : Response := ⟨status, some jsonType, .json value⟩

def plain (status : Nat) (reason : String) : Response := ⟨status, some plainType, .plain reason⟩

def headOnly (r : Response) : Response := { r with body := .empty }

end Response

-- The path of a target, as characters.
def Request.path (r : Request) : List Char :=
  r.target.toList.takeWhile fun c => c != '?' && c != '#'

-- The value of the first header of this name.
def Request.header? (r : Request) (name : String) : Option String :=
  (r.headers.find? fun h => h.1.map Char.toLower == name).map (·.2)

-- Bytes in which every percent sign before two hex digits gives way to the byte they spell.
def percentDecode : Bytes → Bytes
  | 0x25 :: high :: low :: rest =>
      match digit? high, digit? low with
      | some h, some l => UInt8.ofNat (h * 16 + l) :: percentDecode rest
      | _, _ => 0x25 :: percentDecode (high :: low :: rest)
  | byte :: rest => byte :: percentDecode rest
  | [] => []
where
  digit? (byte : UInt8) : Option Nat :=
    let n := byte.toNat
    if 48 ≤ n && n ≤ 57 then some (n - 48)
    else if 97 ≤ n && n ≤ 102 then some (n - 87)
    else if 65 ≤ n && n ≤ 70 then some (n - 55)
    else none

-- The text of a path parameter, unless its bytes are none.
def parameter? (raw : List Char) : Option String :=
  Text.ofUtf8? (percentDecode (Text.utf8 (String.ofList raw)))

-- Characters of types, subtypes and parameter names.
def isTokenChar (c : Char) : Bool :=
  c.isAlphanum || "!#$%&'*+-.^_\x60|~".toList.contains c

-- Characters inside quoted parameter values.
def isQuotedChar (c : Char) : Bool := 31 < c.toNat && c.toNat < 127

-- What is being read of a media type's parameters, and whether a part of it is there.
inductive ParameterPart where
  | name (started : Bool)
  | value (started : Bool)
  | quotedValue (started : Bool)
  | afterQuote
  | refused
  deriving DecidableEq, Repr

def ParameterPart.step (part : ParameterPart) (c : Char) : ParameterPart :=
  match part with
  | .name started =>
      if c == ' ' && !started then .name false
      else if isTokenChar c then .name true
      else if c == '=' && started then .value false
      else .refused
  | .value started =>
      if c == '"' && !started then .quotedValue false
      else if isTokenChar c then .value true
      else if c == ';' && started then .name false
      else .refused
  | .quotedValue started =>
      if c == '"' && started then .afterQuote
      else if isQuotedChar c && c != '"' then .quotedValue true
      else .refused
  | .afterQuote => if c == ';' then .name false else if c == ' ' then .afterQuote else .refused
  | .refused => .refused

-- Whether parameters may end here.
def ParameterPart.mayEnd : ParameterPart → Bool
  | .name started => !started
  | .value _ => true
  | .afterQuote => true
  | .quotedValue _ | .refused => false

-- Whether a media type is JSON or a type built on it: `application/json` or a subtype whose
-- last plus sign stands after or before `json`.
def isJsonType (s : String) : Bool :=
  let cs := s.toList.map Char.toLower
  let essence := cs.takeWhile (· != ';')
  let parameters := (cs.drop (essence.length + 1)).foldl ParameterPart.step (.name false)
  let kind := essence.takeWhile (· != '/')
  let subtype := essence.drop (kind.length + 1)
  let afterPlus := (subtype.reverse.takeWhile (· != '+')).reverse
  let beforePlus := subtype.take (subtype.length - afterPlus.length - 1)
  let json := "json".toList
  kind == "application".toList && !subtype.isEmpty && subtype.all isTokenChar &&
    parameters.mayEnd &&
    (if subtype.contains '+' && !beforePlus.isEmpty then beforePlus == json || afterPlus == json
      else subtype == json)

end SoftConfirm.Http
