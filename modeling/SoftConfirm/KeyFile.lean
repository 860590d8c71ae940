import SoftConfirm.FileSystem
import SoftConfirm.Signature

/-!
Key files: one hex secret each, readable by their owner only. A secret is checked before anything
is touched, and an existing file stays as it is unless it is to be overwritten.
-/

namespace SoftConfirm

namespace KeyFile

-- Why a key was not loaded or written. No cause carries a secret.
inductive Error where
  | badKey (cause : SecretKey.Error)
  | emptyPath
  | unreadable (path : String) (fault : FileSystem.Fault)
  | alreadyExists (path : String)
  | writeFailed (path : String) (fault : FileSystem.Fault)
  deriving DecidableEq, Repr

def Error.message : Error → String
  | .badKey cause => cause.message
  | .emptyPath => "empty key path"
  | .unreadable path fault => s!"cannot read key file {path}: {fault.message}"
  | .alreadyExists path => s!"file already exists: {path}"
  | .writeFailed path fault => s!"cannot write key file {path}: {fault.message}"

def ofText [SignatureScheme] (s : String) : Except Error Key := (Key.ofHex s).mapError .badKey

def load [SignatureScheme] (fs : FileSystem) (path : String) : Except Error Key :=
  if path.isEmpty then .error .emptyPath
  else
    match fs.readText path with
    | .error fault => .error (.unreadable path fault)
    | .ok text => ofText text

-- A secret as it goes into a file: trimmed, and without its marker.
def normalize (secret : String) : String :=
  String.ofList (Hex.stripMarker (Text.trimChars secret.toList))

-- Writes a secret and a line end, after making the directories that are missing.
def write (fs : FileSystem) (path secret : String) (overwrite : Bool) :
    Except Error Unit × FileSystem :=
  if path.isEmpty then (.error .emptyPath, fs)
  else
    let content := normalize secret
    match SecretKey.ofHex content with
    | .error cause => (.error (.badKey cause), fs)
    | .ok _ =>
        if !overwrite && fs.pathExists path then (.error (.alreadyExists path), fs)
        else
          match fs.makeParents path with
          | (.error fault, partly) => (.error (.writeFailed path fault), partly)
          | (.ok (), ready) =>
              match ready.write path (Text.utf8 (content ++ "\n")) with
              | .error fault => (.error (.writeFailed path fault), ready)
              | .ok written => (.ok (), written)

end KeyFile

end SoftConfirm
