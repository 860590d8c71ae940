import Std.Time.DateTime.Timestamp
import SoftConfirm.Api
import SoftConfirm.Crypto.Ecdsa
import SoftConfirm.Launch

/-!
The program. It takes a picture of the files that the command line is about, has the command
carried out on it, and brings the disk up to date. A running node answers one request to its
gateway for each line of standard input.
-/

namespace SoftConfirm.Shell

def settingNames : List String :=
  CommandLine.logVariable :: (CommandLine.RunDraft.flags.filterMap (·.fallback) ++
    CommandLine.KeygenDraft.flags.filterMap (·.fallback))

-- The paths that lead to a path, itself the last.
def stages (path : FileSystem.Path) : List (List String) :=
  (List.range path.names.length).map fun n => path.names.take (n + 1)

def toText (path : FileSystem.Path) (names : List String) : String :=
  (if path.absolute then "/" else "") ++ String.intercalate "/" names

def attempt {α : Type} (act : IO α) : IO (Option α) := do
  try return some (← act) catch _ => return none

-- What is at a path. The mode of a file says what the program may do with it.
def inode? (path : String) : IO (Option Inode) := do
  let place := (← IO.currentDir) / path
  if ← place.isDir then return some .directory
  else if ← place.pathExists then
    let content ← attempt (IO.FS.readBinFile place)
    let handle ← attempt (IO.FS.Handle.mk place .append)
    let mode := (if content.isSome then 0o400 else 0) + if handle.isSome then 0o200 else 0
    return some (.file mode ((content.map (·.toList)).getD []))
  else return none

def picture (fs : FileSystem) (text : String) : IO FileSystem := do
  let path := FileSystem.Path.ofText text
  (stages path).foldlM (fun fs names => do
    match fs.walk path.start names, ← inode? (toText path names) with
    | .ok place, some inode => return fs.put place inode
    | _, _ => return fs) fs

-- Writes what is new at a path. A new file is its owner's alone before anything is in it.
def storeInode (text : String) (isNew : Bool) : Inode → IO Unit
  | .directory => IO.FS.createDirAll text
  | .file _ content => do
      if isNew then
        IO.FS.writeBinFile text ⟨#[]⟩
        IO.setAccessRights text
          ⟨⟨true, true, false⟩, ⟨false, false, false⟩, ⟨false, false, false⟩⟩
      IO.FS.writeBinFile text ⟨content.toArray⟩

def store (before after : FileSystem) (text : String) : IO Unit := do
  let path := FileSystem.Path.ofText text
  for names in stages path do
    match after.walk path.start names with
    | .error _ => pure ()
    | .ok place =>
        match after.at? place with
        | some inode =>
            let old := before.at? place
            if old ≠ some inode then storeInode (toText path names) old.isNone inode
        | none => pure ()

-- A secret from the system's random bytes. A draw fails with negligible probability.
def freshSecret : IO SecretKey := do
  for _ in [0:16] do
    if let .ok secret := SecretKey.ofBytes (← IO.getRandomBytes 32).toList then return secret
  throw (IO.userError "no random key")

def now : IO Timestamp := do
  let total := (← Std.Time.Timestamp.now).toNanosecondsSinceUnixEpoch.val.toNat
  return ⟨UInt64.ofNat (total / 1000000000), total % 1000000000⟩

-- The node after the blocks that are due, and the number of blocks until then.
def catchUp (interval started : Nat) (blocks : Nat) (node : Node) : IO (Nat × Node) := do
  let due := ((← IO.monoMsNow) - started) / max interval 1
  return (due, (List.range (due - blocks)).foldl (fun node _ => node.tick) node)

partial def serve (interval started : Nat) (blocks : Nat) (node : Node) : IO Unit := do
  let line ← (← IO.getStdin).getLine
  if line.isEmpty then return
  let (blocks, node) ← catchUp interval started blocks node
  let request : Http.Request :=
    ⟨"POST", "/rpc", [("content-type", Http.Response.jsonType)], Text.utf8 line⟩
  let (response, node) := node.serve (← now) request
  IO.println response.body.render
  (← IO.getStdout).flush
  serve interval started blocks node

end SoftConfirm.Shell

open SoftConfirm Shell in
def main (args : List String) : IO UInt32 := do
  let values ← settingNames.mapM fun name => return (name, ← IO.getEnv name)
  let environment (name : String) : Option String := (values.lookup name).join
  let paths := CommandLine.touched environment args
  let before ← paths.foldlM picture .empty
  let (outcome, after) := CommandLine.execute environment before (← freshSecret) args
  for path in paths do store before after path
  for line in outcome.printed do IO.println line
  if let some report := outcome.report? then IO.eprintln report.render
  if let .refused _ := outcome then
    if outcome.printed.isEmpty then
      IO.eprintln s!"usage: {CommandLine.programName} run | keygen | version"
  if let .serving settings node := outcome then
    serve settings.blockTime.toNat (← IO.monoMsNow) 0 node
  return UInt32.ofNat outcome.exitCode
