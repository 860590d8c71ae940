import SoftConfirm.Text.Alphanumeric
import SoftConfirm.Text.Blank
import SoftConfirm.Text.Numeral
import SoftConfirm.Text.Utf8

/-!
Log filters: directives between commas, each a level for all there is, or for a target, a span or
spans with certain fields, as in `target[span{field=value}]=level`. Of several directives for the
same events the last one counts.
-/

namespace SoftConfirm

-- From which severity on events are logged.
inductive LogLevel where
  | off
  | error
  | warn
  | info
  | debug
  | trace
  deriving DecidableEq, Repr

namespace LogLevel

-- All levels, each at the place of its number.
def all : List LogLevel := [off, error, warn, info, debug, trace]

def name : LogLevel → String
  | off => "off"
  | error => "error"
  | warn => "warn"
  | info => "info"
  | debug => "debug"
  | trace => "trace"

-- A level by its number, or by its name in any ASCII case.
def ofText? (s : String) : Option LogLevel :=
  match Text.word64? s with
  | some number => all[number.toNat]?
  | none => all.find? fun level => level.name.toList == s.toList.map Char.toLower

end LogLevel

namespace LogFilter

inductive Error where
  | badLevel
  | badDirective
  deriving DecidableEq, Repr

def Error.message : Error → String
  | .badLevel =>
      "error parsing level filter: expected one of \"off\", \"error\", \"warn\", \"info\", " ++
        "\"debug\", \"trace\", or a number 0-5"
  | .badDirective => "invalid filter directive"

structure Scope where
  target : Option String
  span : Option String
  fields : List String
  deriving DecidableEq, Repr

def Scope.everything : Scope := ⟨none, none, []⟩

structure Directive where
  scope : Scope
  level : LogLevel
  deriving DecidableEq, Repr

-- The part of a directive that is being read, and where its text starts.
inductive Part where
  | start
  | levelOrTarget
  | span (first : Nat)
  | field (first : Nat)
  | afterField
  | afterSpan
  | level (first : Nat)
  deriving DecidableEq, Repr

-- Whether a directive may start with this character, brackets apart.
def isOpening (c : Char) : Bool :=
  c == '-' || c == ':' || c == '_' || Text.isAlphanumeric c

def cut (text : Bytes) (first last : Nat) : Except Error String :=
  match Text.ofUtf8? ((text.take last).drop first) with
  | some part => .ok part
  | none => .error .badDirective

-- A level that follows an equals sign. None stands for the greatest.
def readLevel (text : String) : Except Error LogLevel :=
  if text.isEmpty then .ok .trace
  else
    match LogLevel.ofText? text with
    | some level => .ok level
    | none => .error .badLevel

-- Where a directive stands: the part being read, its scope so far, and the place reached.
structure Reader where
  part : Part
  scope : Scope
  place : Nat

def Reader.step (text : Bytes) (r : Reader) (c : Char) : Except Error Reader := do
  let place := r.place + c.utf8Size
  let enter (part : Part) (scope : Scope) : Except Error Reader := .ok ⟨part, scope, place⟩
  match r.part, c with
  | .start, '[' => enter (.span place) r.scope
  | .start, c => if isOpening c then enter .levelOrTarget r.scope else .error .badDirective
  | .levelOrTarget, '=' =>
      enter (.level place) { r.scope with target := some (← cut text 0 r.place) }
  | .levelOrTarget, '[' =>
      enter (.span place) { r.scope with target := some (← cut text 0 r.place) }
  | .span first, ']' =>
      enter .afterSpan { r.scope with span := some (← cut text first r.place) }
  | .span first, '\x7b' =>
      let name ← cut text first r.place
      enter (.field place) { r.scope with span := if name.isEmpty then none else some name }
  | .field first, '\x7d' =>
      let field ← cut text first r.place
      if field.isEmpty then .error .badDirective
      else enter .afterField { r.scope with fields := r.scope.fields ++ [field] }
  | .afterField, ']' => enter .afterSpan r.scope
  | .afterSpan, '=' => enter (.level place) r.scope
  | .afterField, _ | .afterSpan, _ => .error .badDirective
  | part, _ => enter part r.scope

-- What has been read when the text is over. A lone name is a level or else a target.
def Reader.finish (text : Bytes) (r : Reader) : Except Error Directive := do
  match r.part with
  | .levelOrTarget =>
      let name ← cut text 0 text.length
      match LogLevel.ofText? name with
      | some level => return ⟨.everything, level⟩
      | none => return ⟨{ Scope.everything with target := some name }, .trace⟩
  | .level first => return ⟨r.scope, ← readLevel (← cut text first text.length)⟩
  | .afterSpan => return ⟨r.scope, .trace⟩
  | .start | .span _ | .field _ | .afterField => .error .badDirective

-- Reads one directive. Blanks at its ends are passed over, but the places of its parts are
-- counted without them, so after a blank the parts are cut too early.
def Directive.ofText (s : String) : Except Error Directive := do
  let text := Text.utf8 s
  let r ← (Text.trimChars s.toList).foldlM (Reader.step text) ⟨.start, .everything, 0⟩
  r.finish text

-- Adds a directive. One for the same events gives way.
def add (directives : List Directive) (d : Directive) : List Directive :=
  directives.filter (·.scope ≠ d.scope) ++ [d]

end LogFilter

-- Directives in the order in which they were added, one for a scope.
structure LogFilter where
  directives : List LogFilter.Directive
  deriving DecidableEq, Repr

namespace LogFilter

-- The filter of a list of directives. Without any, errors are logged.
def ofDirectives (directives : List Directive) : LogFilter :=
  match directives.foldl add [] with
  | [] => ⟨[⟨.everything, .error⟩]⟩
  | settled => ⟨settled⟩

-- The filter when no other is asked for.
def usual : LogFilter :=
  let target (name : String) : Scope := { Scope.everything with target := some name }
  ⟨[⟨.everything, .warn⟩, ⟨target "ynx_node", .info⟩, ⟨target "ynx_preconfirm", .info⟩,
    ⟨target "tower_http", .info⟩]⟩

-- Whether two filters have the same directives, in whatever order.
def agrees (a b : LogFilter) : Bool :=
  a.directives.all b.directives.contains && b.directives.all a.directives.contains

-- Reads a filter setting. A blank one counts as not given.
def ofSetting (setting : Option String) : Except Error LogFilter :=
  match (setting.map Text.trim).filter (!·.isEmpty) with
  | none => .ok usual
  | some text => do
      let pieces := (text.toList.splitOn ',').filter (!·.isEmpty)
      return ofDirectives (← pieces.mapM fun piece => Directive.ofText (String.ofList piece))

end LogFilter

end SoftConfirm
