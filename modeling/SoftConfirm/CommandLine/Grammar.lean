import SoftConfirm.Text.Numeral

/-!
Arguments of a command: long options with values or without, each at most once. An option is held
back until the next argument shows whether it has its value, and what is wrong with that one is
said first. Variables of the environment stand in for options that are not given.
-/

namespace SoftConfirm.CommandLine

-- Why there is nothing to carry out. The first two are what was asked for.
inductive Refusal where
  | help
  | version (program : String)
  | noCommand
  | unknownCommand
  | unknownArgument
  -- A value that is missing, empty, or none of the choices.
  | badValue
  | badNumber
  | repeated
  | surplusValue
  deriving DecidableEq, Repr

def Refusal.exitCode : Refusal → Nat
  | help | version _ => 0
  | _ => 2

inductive Word where
  -- Only plain words follow.
  | escape
  | long (name : String) (value : Option String)
  -- Letters after one dash. The first one decides.
  | short (letter : Char)
  | plain
  deriving DecidableEq, Repr

def Word.ofText (s : String) : Word :=
  match s.toList with
  | ['-', '-'] => .escape
  | '-' :: '-' :: cs =>
      let name := cs.takeWhile (· ≠ '=')
      .long (String.ofList name)
        (if name.length < cs.length then some (String.ofList (cs.drop (name.length + 1))) else none)
  | '-' :: letter :: _ => .short letter
  | _ => .plain

-- What an option does to a draft of the command's settings.
inductive Effect (δ : Type) where
  | mark (set : δ → δ)
  | value (read : String → δ → Except Refusal δ)

-- An option, and the variable that stands in for it.
structure Flag (δ : Type) where
  name : String
  fallback : Option String
  isSet : δ → Bool
  effect : Effect δ

-- Arguments as far as they are read: a draft, and the last option with its value if it has got
-- that already.
structure Progress (δ : Type) where
  draft : δ
  pending : Option (Flag δ × Option String)

variable {δ : Type}

-- Puts a value into the draft, unless there is one.
def Flag.give (flag : Flag δ) (text : String) (draft : δ) : Except Refusal δ :=
  if flag.isSet draft then .error .repeated
  else
    match flag.effect with
    | .mark set => .ok (set draft)
    | .value read => read text draft

-- The draft with the option that was held back.
def Progress.settle (p : Progress δ) : Except Refusal δ :=
  match p.pending with
  | none => .ok p.draft
  | some (_, none) => .error .badValue
  | some (flag, some text) => flag.give text p.draft

-- Ends the reading, but only after the option that was held back.
def Progress.stop {α : Type} (p : Progress δ) (asked : Refusal) : Except Refusal α := do
  let _ ← p.settle
  .error asked

-- A long option, with what stands behind its equals sign.
def Progress.long (flags : List (Flag δ)) (program : String) (p : Progress δ) (name : String)
    (value : Option String) : Except Refusal (Progress δ) :=
  if name = "help" ∨ name = "version" then
    if value.isSome then .error .surplusValue
    else p.stop (if name = "help" then .help else .version program)
  else
    match flags.find? (·.name == name) with
    | none => .error .unknownArgument
    | some flag =>
        match flag.effect, value with
        | .mark _, some _ => .error .surplusValue
        | .mark _, none => do return ⟨← flag.give "" (← p.settle), none⟩
        | .value _, some text => do return ⟨← flag.give text (← p.settle), none⟩
        | .value _, none => do return ⟨← p.settle, some (flag, none)⟩

def Progress.step (flags : List (Flag δ)) (program : String) (p : Progress δ) (arg : String) :
    Except Refusal (Progress δ) :=
  match Word.ofText arg with
  | .long name value => p.long flags program name value
  | .short 'h' => p.stop .help
  | .short 'V' => p.stop (.version program)
  | .short _ | .escape => .error .unknownArgument
  | .plain =>
      match p.pending with
      | some (flag, none) => .ok { p with pending := some (flag, some arg) }
      | _ => .error .unknownArgument

-- Reads all arguments. No plain words are taken, so none may follow an escape.
def Progress.read (flags : List (Flag δ)) (program : String) (p : Progress δ) :
    List String → Except Refusal δ
  | [] => p.settle
  | arg :: args =>
      if Word.ofText arg = .escape then
        if args.isEmpty then p.settle else .error .unknownArgument
      else do
        let p ← p.step flags program arg
        p.read flags program args

-- Gives the options that are still open the values of their variables, in their order.
def fill (flags : List (Flag δ)) (environment : String → Option String) (draft : δ) :
    Except Refusal δ :=
  flags.foldlM (fun draft flag =>
    if flag.isSet draft then .ok draft
    else
      match flag.fallback.bind environment with
      | none => .ok draft
      | some text => flag.give text draft) draft

-- The settings that arguments and the environment amount to.
def readAll (flags : List (Flag δ)) (program : String) (environment : String → Option String)
    (blank : δ) (args : List String) : Except Refusal δ := do
  fill flags environment (← Progress.read flags program ⟨blank, none⟩ args)

def word64 (text : String) : Except Refusal UInt64 :=
  match Text.word64? text with
  | some value => .ok value
  | none => .error .badNumber

-- A number of 16 bits. Zero may have a minus sign.
def port (text : String) : Except Refusal UInt16 :=
  match Text.word16? text, text.toList with
  | some value, _ => .ok value
  | none, '-' :: c :: cs => if (c :: cs).all (· == '0') then .ok 0 else .error .badNumber
  | none, _ => .error .badNumber

-- A path, which is not empty.
def path (text : String) : Except Refusal String :=
  if text.isEmpty then .error .badValue else .ok text

end SoftConfirm.CommandLine
