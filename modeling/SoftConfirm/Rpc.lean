import SoftConfirm.Json.Reader
import SoftConfirm.Metrics

/-!
JSON-RPC 2.0 envelopes. A response repeats the request's identifier and holds either a result or
an error.
-/

namespace SoftConfirm.Rpc

open Json (Member Origin Reading Shape Term need)

structure Request where
  version : String
  method : String
  params : Option Json
  id : Json

-- The members of a request as far as they are known.
structure Draft where
  version : Option String := none
  method : Option String := none
  -- Whether there were parameters, and which. Null stands for none.
  params : Option (Option Json) := none
  id : Option Json := none

def readParams (depth : Nat) : Term → Reading (Option Json)
  | .null => .ok none
  | term => (term.readJson depth).map some

def shape : Shape Draft Request where
  name := "JsonRpcRequest"
  fields :=
    [{ name := "jsonrpc", optional := false, isSet := (·.version.isSome)
       read := fun _ t d => return { d with version := some (← t.readText) } },
     { name := "method", optional := false, isSet := (·.method.isSome)
       read := fun _ t d => return { d with method := some (← t.readText) } },
     { name := "params", optional := false, isSet := (·.params.isSome)
       read := fun depth t d => return { d with params := some (← readParams depth t) } },
     { name := "id", optional := false, isSet := (·.id.isSome)
       read := fun depth t d => return { d with id := some (← t.readJson depth) } }]
  blank := {}
  finish := fun d => do
    let version ← need "jsonrpc" d.version
    let method ← need "method" d.method
    let id ← need "id" d.id
    return { version, method, params := d.params.getD none, id }

-- The request at the start of a body. What follows it is not looked at.
def Request.ofBytes (body : Bytes) : Reading Request :=
  shape.read .text Json.nestingLimit (Json.Document.ofBytes body).root

-- An error's number, what it says, and the kind of failure behind it.
structure Error where
  code : Int
  message : String
  kind : Option FailureKind
  deriving DecidableEq, Repr

namespace Error

def badVersion : Error := ⟨-32600, "Invalid Request: jsonrpc must be \"2.0\"", none⟩

def unknownMethod (name : String) : Error := ⟨-32601, "Method not found: " ++ name, none⟩

def badParams (reason : String) : Error := ⟨-32602, "Invalid params: " ++ reason, none⟩

def codeOf : FailureKind → Int
  | .txNotFound => -32001
  | .disabled => -32002
  | .backendMissing | .backendUnavailable => -32003
  | .cancelled | .deadlineExceeded => -32004
  | .config | .signing => -32603

def ofIssue (e : IssueError) : Error := ⟨codeOf e.kind, e.message, some e.kind⟩

def toJson (e : Error) : Json :=
  .object <|
    [("code", .number (.integer e.code)), ("message", .text e.message)] ++
    match e.kind with
    | none => []
    | some kind => [("data", .object [("kind", .text kind.label)])]

end Error

-- The envelope around a result or an error.
def respond (id : Json) (outcome : Except Error Json) : Json :=
  .object [("jsonrpc", .text "2.0"),
    match outcome with
    | .ok result => ("result", result)
    | .error e => ("error", e.toJson),
    ("id", id)]

-- The first parameter, if the parameters are a list that starts with a text.
def firstText? : Option Json → Option String
  | some (.array (.text value :: _)) => some value
  | _ => none

end SoftConfirm.Rpc
