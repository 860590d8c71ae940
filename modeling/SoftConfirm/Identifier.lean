import SoftConfirm.Hex
import SoftConfirm.Text.Blank

/-!
Fixed-width identifiers: transaction hashes, digests and addresses. All are written as `0x` and
lower-case hex; reading ignores blanks at the ends and takes the marker or leaves it out.
-/

namespace SoftConfirm

inductive IdentifierKind where
  | txHash
  | digest
  | address
  deriving DecidableEq, Repr

namespace IdentifierKind

def width : IdentifierKind → Nat
  | txHash => 32
  | digest => 32
  | address => 20

def label : IdentifierKind → String
  | txHash => "TxHash"
  | digest => "Digest"
  | address => "Address"

end IdentifierKind

structure Identifier (kind : IdentifierKind) where
  bytes : Bytes
  length_bytes : bytes.length = kind.width
  deriving DecidableEq

abbrev TxHash := Identifier .txHash

abbrev Digest := Identifier .digest

abbrev Address := Identifier .address

namespace Identifier

variable {kind : IdentifierKind}

inductive Error where
  | badHex (cause : Hex.Error)
  | wrongLength (expected got : Nat)
  deriving DecidableEq, Repr

def Error.message : Error → String
  | .badHex cause => "invalid hex: " ++ cause.message
  | .wrongLength expected got => s!"invalid length: expected {expected} bytes, got {got}"

instance : Hashable (Identifier kind) where
  hash id := id.bytes.foldl (fun h byte => mixHash h byte.toUInt64) 7

def zero : Identifier kind := ⟨List.replicate kind.width 0, List.length_replicate⟩

instance : Inhabited (Identifier kind) := ⟨zero⟩

-- These bytes as an identifier, if there are as many as its kind has.
def ofBytes? (bytes : Bytes) : Option (Identifier kind) :=
  if h : bytes.length = kind.width then some ⟨bytes, h⟩ else none

-- The canonical text: a marker and two lower-case digits for each byte.
def toHex (id : Identifier kind) : String := "0x" ++ Hex.encode id.bytes

-- The text with the name of its kind around it.
def labelled (id : Identifier kind) : String := s!"{kind.label}({id.toHex})"

def ofHex (s : String) : Except Error (Identifier kind) :=
  match Hex.decodeMarked (Text.trimChars s.toList) with
  | .error cause => .error (.badHex cause)
  | .ok bytes =>
      if h : bytes.length = kind.width then .ok ⟨bytes, h⟩
      else .error (.wrongLength kind.width bytes.length)

end Identifier

end SoftConfirm
