import SoftConfirm.LogFilter
import SoftConfirm.Settings

/-!
Reports of what stopped the program: what it was about to do, and the chain of causes behind that,
the nearest one first. More than one cause are numbered from zero.
-/

namespace SoftConfirm

-- The causes that an error states, each one behind the one before.
def KeyFile.Error.causes (e : KeyFile.Error) : List String :=
  match e with
  | .unreadable _ fault | .writeFailed _ fault => [e.message, fault.message]
  | .badKey _ | .emptyPath | .alreadyExists _ => [e.message]

def ConfigError.causes (e : ConfigError) : List String :=
  match e with
  | .key _ cause => e.message :: cause.causes
  | _ => [e.message]

def LogFilter.Error.causes (e : LogFilter.Error) : List String :=
  match e with
  | .badLevel => [e.message, e.message]
  | .badDirective => [e.message]

structure ErrorReport where
  context : String
  causes : List String
  deriving DecidableEq, Repr

namespace ErrorReport

-- A text whose lines after the first one stand under its start.
def indented (first rest text : String) : String :=
  first ++ String.intercalate ("\n" ++ rest)
    ((text.toList.splitOn '\n').map String.ofList)

-- A cause with its number, which stands in a column of five.
def numbered (index : Nat) (cause : String) : String :=
  let digits := toString index
  let padding := String.ofList (List.replicate (5 - digits.length) ' ')
  indented (padding ++ digits ++ ": ") "       " cause

def causeLines : List String → List String
  | [cause] => [indented "    " "    " cause]
  | causes => causes.mapIdx numbered

def render (r : ErrorReport) : String :=
  "Error: " ++ r.context ++
    if r.causes.isEmpty then ""
    else "\n\nCaused by:\n" ++ String.intercalate "\n" (causeLines r.causes)

end ErrorReport

end SoftConfirm
