import SoftConfirm.Text.Blank
import SoftConfirm.Text.Numeral
import SoftConfirm.KeyFile

/-!
Signer configuration: what can be wrong with it, and its two numeric settings. A bad threshold is
an error, while a bad scan limit gives way to the usual one.
-/

namespace SoftConfirm

inductive ConfigError where
  | key (index : Nat) (cause : KeyFile.Error)
  | missingKeyMaterial
  | conflictingKeySources
  | emptySignerSet
  | duplicateSigner (address : Address)
  | invalidThreshold (text : String)
  | thresholdExceedsSigners (threshold : UInt32) (signers : Nat)
  deriving DecidableEq

def ConfigError.message : ConfigError → String
  | .key index cause => s!"signer key #{index}: {cause.message}"
  | .missingKeyMaterial =>
      "missing preconfirm key material: set exactly one of the inline-secret or key-path sources"
  | .conflictingKeySources =>
      "conflicting preconfirm key sources: inline secrets and key paths are mutually exclusive"
  | .emptySignerSet => "no preconfirm signers configured"
  | .duplicateSigner address => s!"duplicate preconfirm signer {address.toHex}"
  | .invalidThreshold text => s!"invalid preconfirm threshold: {Text.quoted text}"
  | .thresholdExceedsSigners threshold signers =>
      s!"preconfirm threshold={threshold.toNat} exceeds signer count={signers}"

namespace Settings

-- The trimmed text of a setting that is there and not blank.
def given? (setting : Option String) : Option String :=
  (setting.map Text.trim).filter (!·.isEmpty)

-- A threshold setting. None means that every signer is required.
def threshold (setting : Option String) : Except ConfigError (Option UInt32) :=
  match given? setting with
  | none => .ok none
  | some text =>
      match Text.word32? text with
      | some value => if 0 < value then .ok (some value) else .error (.invalidThreshold text)
      | none => .error (.invalidThreshold text)

-- How many pending transactions are looked at when nothing else is set.
def defaultScanLimit : UInt64 := 2000

-- A scan-limit setting. What is no positive number counts as not set.
def scanLimit (setting : Option String) : UInt64 :=
  match (given? setting).bind Text.word64? with
  | some value => if 0 < value then value else defaultScanLimit
  | none => defaultScanLimit

-- The limit that a resolver uses: it may look at one transaction at least.
def usableScanLimit (limit : UInt64) : UInt64 := max limit 1

end Settings

end SoftConfirm
