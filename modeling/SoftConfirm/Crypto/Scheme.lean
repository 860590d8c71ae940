import SoftConfirm.Crypto.Keccak
import SoftConfirm.Crypto.Secp256k1
import SoftConfirm.Identifier

/-!
What the library asks of recoverable signatures, and how a public key becomes an address.
Everything above this module works for any such scheme; the curve's own is one instance.
-/

namespace SoftConfirm

open Secp256k1 (order)

-- A scalar that is the secret of some public key.
structure SecretKey where
  scalar : Nat
  scalar_pos : 0 < scalar
  scalar_lt : scalar < order
  deriving DecidableEq

abbrev PublicKey := Secp256k1.Point

-- The two scalars of a signature on 32 bytes each.
structure CompactSignature where
  bytes : Bytes
  length_bytes : bytes.length = 64
  deriving DecidableEq

class SignatureScheme where
  publicKey : SecretKey → PublicKey
  -- A signature and the number that tells which public key it recovers to.
  sign : SecretKey → Digest → CompactSignature × UInt8
  -- The public key that made a signature, with the parity of the recovery number.
  recover : Digest → CompactSignature → Bool → Option PublicKey

def Digest.ofMessage (message : Bytes) : Digest :=
  ⟨Keccak.hash message, Keccak.length_hash message⟩

namespace SecretKey

-- Why bytes or a text are no secret key. No cause carries any of the text.
inductive Error where
  | badHex
  | wrongLength (got : Nat)
  | badScalar
  deriving DecidableEq, Repr

def Error.message : Error → String
  | .badHex => "invalid private key hex"
  | .wrongLength got => s!"invalid private key length: got {got}, expected 32"
  | .badScalar => "private key is not a valid secp256k1 scalar"

def ofBytes (bytes : Bytes) : Except Error SecretKey :=
  if bytes.length ≠ 32 then .error (.wrongLength bytes.length)
  else
    let scalar := Bytes.toNat bytes
    if h : 0 < scalar ∧ scalar < order then .ok ⟨scalar, h.1, h.2⟩
    else .error .badScalar

-- Reads a hex secret. Blanks around it and a marker before it are ignored.
def ofHex (s : String) : Except Error SecretKey :=
  match Hex.decodeMarked (Text.trimChars s.toList) with
  | .error _ => .error .badHex
  | .ok bytes => ofBytes bytes

def toBytes (key : SecretKey) : Bytes := Bytes.bigEndian 32 key.scalar

-- The secret itself, as hex digits without a marker.
def toHex (key : SecretKey) : String := Hex.encode key.toBytes

end SecretKey

-- The first coordinate after a byte that tells the parity of the second.
def PublicKey.compressed (key : PublicKey) : Bytes :=
  (if key.y % 2 = 1 then 3 else 2) :: Bytes.bigEndian 32 key.x

-- The last twenty bytes of the hash of both coordinates.
def PublicKey.address (key : PublicKey) : Address :=
  ⟨(Keccak.hash (Bytes.bigEndian 32 key.x ++ Bytes.bigEndian 32 key.y)).drop 12, by
    simp [IdentifierKind.width]⟩

end SoftConfirm
