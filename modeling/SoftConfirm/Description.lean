import SoftConfirm.Settings

/-!
Errors described with all their parts, for those who look into the program. What a part is, is
written as its own type writes it: texts in quotes, addresses with the name of their kind.
-/

namespace SoftConfirm

-- A fault of the operating system has its number; the others have only their kind and a text.
def FileSystem.Fault.describe : Fault → String
  | .notFound => numbered 2 "NotFound" "No such file or directory"
  | .permissionDenied => numbered 13 "PermissionDenied" "Permission denied"
  | .alreadyExists => numbered 17 "AlreadyExists" "File exists"
  | .isADirectory => numbered 21 "IsADirectory" "Is a directory"
  | .notADirectory => numbered 20 "NotADirectory" "Not a directory"
  | .invalidFilename => numbered 36 "InvalidFilename" "File name too long"
  | .invalidInput => plain "InvalidInput" "file name contained an unexpected NUL byte"
  | .invalidData => plain "InvalidData" "stream did not contain valid UTF-8"
where
  numbered (code : Nat) (kind text : String) : String :=
    s!"Os \x7b code: {code}, kind: {kind}, message: {Text.quoted text} \x7d"
  plain (kind text : String) : String :=
    s!"Error \x7b kind: {kind}, message: {Text.quoted text} \x7d"

def SecretKey.Error.describe : SecretKey.Error → String
  | .badHex => "InvalidHex"
  | .wrongLength got => s!"InvalidLength \x7b got: {got} \x7d"
  | .badScalar => "InvalidScalar"

def KeyFile.Error.describe : KeyFile.Error → String
  | .badKey cause => cause.describe
  | .emptyPath => "EmptyPath"
  | .unreadable path fault =>
      s!"Unreadable \x7b path: {Text.quoted path}, source: {fault.describe} \x7d"
  | .alreadyExists path => s!"AlreadyExists({Text.quoted path})"
  | .writeFailed path fault =>
      s!"WriteFailed \x7b path: {Text.quoted path}, source: {fault.describe} \x7d"

def ConfigError.describe : ConfigError → String
  | .key index cause => s!"Key \x7b index: {index}, source: {cause.describe} \x7d"
  | .missingKeyMaterial => "MissingKeyMaterial"
  | .conflictingKeySources => "ConflictingKeySources"
  | .emptySignerSet => "EmptySignerSet"
  | .duplicateSigner address => s!"DuplicateSigner({address.labelled})"
  | .invalidThreshold text => s!"InvalidThreshold({Text.quoted text})"
  | .thresholdExceedsSigners threshold signers =>
      s!"ThresholdExceedsSigners \x7b threshold: {threshold.toNat}, signers: {signers} \x7d"

end SoftConfirm
