import SoftConfirm.CommandLine
import SoftConfirm.ErrorReport
import SoftConfirm.Node

/-!
What the commands do. `keygen` writes a fresh key to a file and shows its address, never the
secret; `run` checks its settings before anything is served. All of it is a function of the
arguments, the environment, the files and a fresh key.
-/

namespace SoftConfirm.CommandLine

-- The version of the program, and that of the receipts it issues.
def programVersion : String := "0.1.0"

def receiptVersion : String := "0.1.0"

def versionLines : List String :=
  [s!"{programName}  {programVersion}", s!"protocol  {receiptVersion}", "rustc     unknown"]

-- What is printed on a request for the version of a part of the program.
def versionLine (program : String) : String := s!"{program} {programVersion}"

-- Where a key file is written below the node's home.
def keyFileName : String := "config/ynx_preconfirm.key"

def below (directory path : String) : String :=
  if directory.toList.getLast? = some '/' then directory ++ path else directory ++ "/" ++ path

def KeygenSettings.path (s : KeygenSettings) : String := s.out.getD (below s.home keyFileName)

-- Writes the key and gives the lines that announce it.
def KeygenSettings.perform [SignatureScheme] (s : KeygenSettings) (fs : FileSystem)
    (fresh : SecretKey) : Except ErrorReport (List String) × FileSystem :=
  match KeyFile.write fs s.path fresh.toHex s.force with
  | (.error e, fs) => (.error ⟨s!"failed to write key file {s.path}", e.causes⟩, fs)
  | (.ok (), fs) =>
      (.ok ["Preconfirm key generated.",
        s!"  Address  : {(Key.ofSecret fresh).address.toHex}",
        s!"  Key file : {s.path}"], fs)

def logVariable : String := "RUST_LOG"

def logFilter (setting : Option String) : Except ErrorReport LogFilter :=
  (LogFilter.ofSetting setting).mapError fun e => ⟨"invalid " ++ logVariable, e.causes⟩

-- The node before its first request. Without any key it starts, but issues no receipts.
def RunSettings.prepare [SignatureScheme] (s : RunSettings) (fs : FileSystem)
    (logSetting : Option String) : Except ErrorReport Node := do
  let _ ← logFilter logSetting
  let active ← match s.signers.load fs with
    | .ok set => .ok (some set)
    | .error .missingKeyMaterial => .ok none
    | .error e => .error ⟨"invalid preconfirm signer configuration", e.causes⟩
  let node : Node := {
    version := s!"{programVersion} (protocol {receiptVersion})"
    context := s.context
    decode := Decoder.keccak
    hasBackend := true
    scanLimit := Settings.usableScanLimit s.scanLimit
    active
    chain := .empty
    metrics := .zero }
  return node.recordSigners

inductive Outcome where
  | refused (refusal : Refusal)
  | finished (lines : List String)
  | failed (report : ErrorReport)
  -- The node is ready and goes on to serve.
  | serving (settings : RunSettings) (node : Node)

namespace Outcome

def exitCode : Outcome → Nat
  | refused refusal => refusal.exitCode
  | failed _ => 1
  | finished _ | serving _ _ => 0

-- The lines on standard output, the text of help apart.
def printed : Outcome → List String
  | refused (.version program) => [versionLine program]
  | finished lines => lines
  | refused _ | failed _ | serving _ _ => []

def report? : Outcome → Option ErrorReport
  | failed report => some report
  | refused _ | finished _ | serving _ _ => none

def ofResult {α : Type} (view : α → Outcome) : Except ErrorReport α → Outcome
  | .ok value => view value
  | .error report => .failed report

end Outcome

def Command.perform [SignatureScheme] (environment : String → Option String) (fs : FileSystem)
    (fresh : SecretKey) : Command → Outcome × FileSystem
  | .version => (.finished versionLines, fs)
  | .keygen s =>
      let (result, fs) := s.perform fs fresh
      (.ofResult .finished result, fs)
  | .run s => (.ofResult (.serving s) (s.prepare fs (environment logVariable)), fs)

def execute [SignatureScheme] (environment : String → Option String) (fs : FileSystem)
    (fresh : SecretKey) (args : List String) : Outcome × FileSystem :=
  match Command.ofArguments environment args with
  | .ok command => command.perform environment fs fresh
  | .error refusal => (.refused refusal, fs)

-- The files that a command line may read or write.
def touched (environment : String → Option String) (args : List String) : List String :=
  match Command.ofArguments environment args with
  | .ok (.keygen s) => [s.path]
  | .ok (.run s) =>
      match KeySource.ofSettings s.signers.sources with
      | .ok (.files paths) => paths
      | _ => []
  | _ => []

end SoftConfirm.CommandLine
