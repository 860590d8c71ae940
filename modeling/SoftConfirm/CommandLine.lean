import SoftConfirm.Chain
import SoftConfirm.CommandLine.Grammar
import SoftConfirm.KeySource

/-!
The program's commands and their settings. `run` starts the node, `keygen` writes a new key file,
`version` tells what this is.
-/

namespace SoftConfirm

namespace CommandLine

inductive LogFormat where
  | pretty
  | json
  deriving DecidableEq, Repr

namespace LogFormat

def name : LogFormat → String
  | pretty => "pretty"
  | json => "json"

def ofText (s : String) : Except Refusal LogFormat :=
  match [pretty, json].find? (·.name == s) with
  | some format => .ok format
  | none => .error .badValue

end LogFormat

structure RunSettings where
  context : ChainContext
  rpcPort : UInt16
  metricsPort : UInt16
  logFormat : LogFormat
  signers : SignerSettings
  scanLimit : UInt64
  -- The time between blocks, and how long an attempt may take, in milliseconds.
  blockTime : UInt64
  requestTimeout : UInt64
  deriving DecidableEq

structure KeygenSettings where
  home : String
  out : Option String
  force : Bool
  deriving DecidableEq, Repr

inductive Command where
  | run (settings : RunSettings)
  | keygen (settings : KeygenSettings)
  | version
  deriving DecidableEq

-- The settings of `run` as far as they are given.
structure RunDraft where
  chainId : Option String := none
  evmChainId : Option UInt64 := none
  rpcPort : Option UInt16 := none
  metricsPort : Option UInt16 := none
  logFormat : Option LogFormat := none
  inlineList : Option String := none
  pathList : Option String := none
  inlineSingle : Option String := none
  pathSingle : Option String := none
  threshold : Option String := none
  scanLimit : Option String := none
  blockTime : Option UInt64 := none
  requestTimeout : Option UInt64 := none

namespace RunDraft

-- The options of `run` in the order in which variables are looked at.
def flags : List (Flag RunDraft) :=
  [{ name := "chain-id", fallback := "YNX_CHAIN_ID", isSet := (·.chainId.isSome)
     effect := .value fun s d => .ok { d with chainId := some s } },
   { name := "evm-chain-id", fallback := "YNX_EVM_CHAIN_ID", isSet := (·.evmChainId.isSome)
     effect := .value fun s d => return { d with evmChainId := some (← word64 s) } },
   { name := "rpc-port", fallback := "YNX_RPC_PORT", isSet := (·.rpcPort.isSome)
     effect := .value fun s d => return { d with rpcPort := some (← port s) } },
   { name := "metrics-port", fallback := "YNX_METRICS_PORT", isSet := (·.metricsPort.isSome)
     effect := .value fun s d => return { d with metricsPort := some (← port s) } },
   { name := "log-format", fallback := "YNX_LOG_FORMAT", isSet := (·.logFormat.isSome)
     effect := .value fun s d => return { d with logFormat := some (← LogFormat.ofText s) } },
   { name := "privkey-hexes", fallback := SignerSettings.inlineListVariable
     isSet := (·.inlineList.isSome)
     effect := .value fun s d => .ok { d with inlineList := some s } },
   { name := "key-paths", fallback := SignerSettings.pathListVariable
     isSet := (·.pathList.isSome)
     effect := .value fun s d => .ok { d with pathList := some s } },
   { name := "privkey-hex", fallback := SignerSettings.inlineSingleVariable
     isSet := (·.inlineSingle.isSome)
     effect := .value fun s d => .ok { d with inlineSingle := some s } },
   { name := "key-path", fallback := SignerSettings.pathSingleVariable
     isSet := (·.pathSingle.isSome)
     effect := .value fun s d => .ok { d with pathSingle := some s } },
   { name := "threshold", fallback := SignerSettings.thresholdVariable
     isSet := (·.threshold.isSome)
     effect := .value fun s d => .ok { d with threshold := some s } },
   { name := "mempool-scan-limit", fallback := "YNX_PRECONFIRM_MEMPOOL_SCAN_LIMIT"
     isSet := (·.scanLimit.isSome)
     effect := .value fun s d => .ok { d with scanLimit := some s } },
   { name := "block-time-ms", fallback := "YNX_BLOCK_TIME_MS", isSet := (·.blockTime.isSome)
     effect := .value fun s d => return { d with blockTime := some (← word64 s) } },
   { name := "request-timeout-ms", fallback := "YNX_REQUEST_TIMEOUT_MS"
     isSet := (·.requestTimeout.isSome)
     effect := .value fun s d => return { d with requestTimeout := some (← word64 s) } }]

-- The settings, with the usual ones where none are given.
def complete (d : RunDraft) : RunSettings where
  context := {
    chainId := d.chainId.getD "ynx_devnet-1"
    evmChainId := d.evmChainId.getD 9001 }
  rpcPort := d.rpcPort.getD 8545
  metricsPort := d.metricsPort.getD 9464
  logFormat := d.logFormat.getD .pretty
  signers := {
    sources := {
      inlineList := d.inlineList
      pathList := d.pathList
      inlineSingle := d.inlineSingle
      pathSingle := d.pathSingle }
    threshold := d.threshold }
  scanLimit := Settings.scanLimit d.scanLimit
  blockTime := d.blockTime.getD 1000
  requestTimeout := d.requestTimeout.getD 5000

end RunDraft

-- The settings of `keygen` as far as they are given.
structure KeygenDraft where
  home : Option String := none
  out : Option String := none
  force : Bool := false

namespace KeygenDraft

def flags : List (Flag KeygenDraft) :=
  [{ name := "home", fallback := "YNX_HOME", isSet := (·.home.isSome)
     effect := .value fun s d => return { d with home := some (← path s) } },
   { name := "out", fallback := none, isSet := (·.out.isSome)
     effect := .value fun s d => return { d with out := some (← path s) } },
   { name := "force", fallback := none, isSet := (·.force)
     effect := .mark fun d => { d with force := true } }]

def complete (d : KeygenDraft) : KeygenSettings :=
  { home := d.home.getD ".", out := d.out, force := d.force }

end KeygenDraft

def programName : String := "ynx-node"

def commandNames : List String := ["run", "keygen", "version"]

-- What is said to a request for help about commands. Commands have no commands of their own.
def helpAbout : List String → Refusal
  | [] => .help
  | [name] => if name = "help" ∨ name ∈ commandNames then .help else .unknownCommand
  | _ => .unknownCommand

-- What the program is to do, from its arguments and its environment.
def Command.ofArguments (environment : String → Option String) :
    List String → Except Refusal Command
  | [] => .error .noCommand
  | arg :: args => do
      match arg with
      | "run" =>
          let draft ← readAll RunDraft.flags (programName ++ "-run") environment {} args
          return .run draft.complete
      | "keygen" =>
          let draft ← readAll KeygenDraft.flags (programName ++ "-keygen") environment {} args
          return .keygen draft.complete
      | "version" =>
          let _ ← readAll ([] : List (Flag Unit)) (programName ++ "-version") environment () args
          return .version
      | "help" => .error (helpAbout args)
      | _ =>
          match Word.ofText arg, args with
          | .escape, [] => .error .noCommand
          | .escape, name :: _ =>
              -- After an escape no word can be a command, though it may look like one.
              .error (if name = "help" ∨ name ∈ commandNames then .unknownArgument
                else .unknownCommand)
          | .plain, _ => .error .unknownCommand
          | _, _ => do
              let _ ← (⟨(), none⟩ : Progress Unit).step [] programName arg
              .error .unknownArgument

end CommandLine

end SoftConfirm
