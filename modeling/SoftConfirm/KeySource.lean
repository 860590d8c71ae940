import SoftConfirm.SignerSet
import SoftConfirm.Text.CommaList

/-!
Where signing keys come from: secrets given inline or files that hold them, never both. The
settings for a single key count only when neither list is given.
-/

namespace SoftConfirm

inductive KeySource where
  | inline (secrets : List String)
  | files (paths : List String)
  deriving DecidableEq

namespace KeySource

def entries : KeySource → List String
  | .inline secrets => secrets
  | .files paths => paths

def size (source : KeySource) : Nat := source.entries.length

def label : KeySource → String
  | .inline _ => "inline"
  | .files _ => "files"

-- A description that only counts the secrets.
def describe : KeySource → String
  | .inline secrets => s!"InlineSecrets({secrets.length} entries)"
  | .files paths =>
      "FileRefs([" ++ String.intercalate ", " (paths.map Text.quoted) ++ "])"

-- The entries of a list setting, none if there are none.
def entries? (setting : Option String) : Option (List String) :=
  (setting.map Text.commaList).filter (!·.isEmpty)

-- The source that two list settings name. One of them has to have an entry, and only one.
def ofLists (inline paths : Option String) : Except ConfigError KeySource :=
  match entries? inline, entries? paths with
  | some _, some _ => .error .conflictingKeySources
  | some secrets, none => .ok (.inline secrets)
  | none, some paths => .ok (.files paths)
  | none, none => .error .missingKeyMaterial

structure Settings where
  inlineList : Option String
  pathList : Option String
  inlineSingle : Option String
  pathSingle : Option String
  deriving DecidableEq

def ofSettings (s : Settings) : Except ConfigError KeySource :=
  match ofLists s.inlineList s.pathList with
  | .error .missingKeyMaterial => ofLists s.inlineSingle s.pathSingle
  | result => result

variable [SignatureScheme]

def loadEntry (fs : FileSystem) (source : KeySource) (entry : String) :
    Except KeyFile.Error Key :=
  match source with
  | .inline _ => KeyFile.ofText entry
  | .files _ => KeyFile.load fs entry

-- The keys of entries that are counted from `index`, up to the first fault.
def loadFrom (load : String → Except KeyFile.Error Key) :
    (index : Nat) → List String → Except ConfigError (List Key)
  | _, [] => .ok []
  | index, entry :: rest =>
      match load entry with
      | .error cause => .error (.key index cause)
      | .ok key => (loadFrom load (index + 1) rest).map (key :: ·)

def loadKeys (fs : FileSystem) (source : KeySource) : Except ConfigError (List Key) :=
  loadFrom (source.loadEntry fs) 0 source.entries

def loadSigners (fs : FileSystem) (source : KeySource) (threshold : Option UInt32) :
    Except ConfigError SignerSet := do
  SignerSet.ofKeys (← source.loadKeys fs) threshold

end KeySource

structure SignerSettings where
  sources : KeySource.Settings
  threshold : Option String
  deriving DecidableEq

namespace SignerSettings

def inlineListVariable : String := "YNX_PRECONFIRM_PRIVKEY_HEXES"

def pathListVariable : String := "YNX_PRECONFIRM_KEY_PATHS"

def inlineSingleVariable : String := "YNX_PRECONFIRM_PRIVKEY_HEX"

def pathSingleVariable : String := "YNX_PRECONFIRM_KEY_PATH"

def thresholdVariable : String := "YNX_PRECONFIRM_THRESHOLD"

def ofEnvironment (setting? : String → Option String) : SignerSettings where
  sources := {
    inlineList := setting? inlineListVariable
    pathList := setting? pathListVariable
    inlineSingle := setting? inlineSingleVariable
    pathSingle := setting? pathSingleVariable }
  threshold := setting? thresholdVariable

-- Picks the source, reads the threshold, and loads the keys, in this order.
def load [SignatureScheme] (fs : FileSystem) (s : SignerSettings) :
    Except ConfigError SignerSet := do
  let source ← KeySource.ofSettings s.sources
  let threshold ← Settings.threshold s.threshold
  source.loadSigners fs threshold

end SignerSettings

end SoftConfirm
