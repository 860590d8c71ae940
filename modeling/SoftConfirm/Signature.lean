import SoftConfirm.Crypto.Scheme

/-!
Signatures as receipts carry them: any bytes at all, of which only sixty-five can recover to a
signer. The last byte is the recovery number, 0 or 1, or the same plus 27.
-/

namespace SoftConfirm

structure Signature where
  bytes : Bytes
  deriving DecidableEq

structure Key where
  secret : SecretKey
  address : Address
  deriving DecidableEq

namespace Key

variable [SignatureScheme]

def ofSecret (secret : SecretKey) : Key :=
  ⟨secret, (SignatureScheme.publicKey secret).address⟩

def ofBytes (bytes : Bytes) : Except SecretKey.Error Key :=
  (SecretKey.ofBytes bytes).map ofSecret

def ofHex (s : String) : Except SecretKey.Error Key := (SecretKey.ofHex s).map ofSecret

-- A description that keeps the secret out.
def describe (key : Key) : String :=
  "PreconfirmKey \x7b address: " ++ key.address.labelled ++ ", secret: \"<redacted>\" \x7d"

end Key

namespace Signature

inductive Error where
  | wrongLength (got : Nat)
  | badRecoveryByte (byte : UInt8)
  | unrecoverable
  deriving DecidableEq, Repr

def Error.message : Error → String
  | .wrongLength got => s!"invalid signature length: {got} (expected 65)"
  | .badRecoveryByte byte => s!"invalid signature recovery byte: {byte.toNat}"
  | .unrecoverable => "signature does not recover to a public key"

def toHex (signature : Signature) : String := "0x" ++ Hex.encode signature.bytes

def labelled (signature : Signature) : String := s!"Signature({signature.toHex})"

-- Reads hex of any even length.
def ofHex? (s : String) : Option Signature :=
  match Hex.decodeMarked (Text.trimChars s.toList) with
  | .error _ => none
  | .ok bytes => some ⟨bytes⟩

def badHexMessage : String := "invalid signature hex"

-- Whether a recovery byte asks for the odd point; the byte is 0, 1, 27 or 28.
def recoveryParity? (byte : UInt8) : Option Bool :=
  if byte = 0 ∨ byte = 27 then some false
  else if byte = 1 ∨ byte = 28 then some true
  else none

theorem recoveryParity?_of_number {byte : UInt8} (h : byte = 0 ∨ byte = 1) :
    recoveryParity? byte = some (byte == 1) := by
  rcases h with rfl | rfl <;> rfl

variable [SignatureScheme]

-- The signature of a digest under a key: both scalars, then the recovery number.
def ofDigest (key : Key) (digest : Digest) : Signature :=
  let signed := SignatureScheme.sign key.secret digest
  ⟨signed.1.bytes ++ [signed.2]⟩

-- The address whose key made this signature over the digest.
def recover (digest : Digest) (signature : Signature) : Except Error Address :=
  if h : signature.bytes.length = 65 then
    let byte := signature.bytes[64]
    match recoveryParity? byte with
    | none => .error (.badRecoveryByte byte)
    | some odd =>
        match SignatureScheme.recover digest ⟨signature.bytes.take 64, by simp [h]⟩ odd with
        | none => .error .unrecoverable
        | some key => .ok key.address
  else .error (.wrongLength signature.bytes.length)

-- Of sixty-five bytes, the last one is the recovery number and the others are the two scalars.
theorem recover_concat (digest : Digest) (compact : CompactSignature) (byte : UInt8) :
    recover digest ⟨compact.bytes ++ [byte]⟩ =
      match recoveryParity? byte with
      | none => .error (.badRecoveryByte byte)
      | some odd =>
          match SignatureScheme.recover digest compact odd with
          | none => .error .unrecoverable
          | some key => .ok key.address := by
  have hlen : compact.bytes.length = 64 := compact.length_bytes
  have hlong : 64 < (compact.bytes ++ [byte]).length := by simp [hlen]
  have hlast : (compact.bytes ++ [byte])[64] = byte := by
    rw [List.getElem_append_right (by omega)]
    simp [hlen]
  have hfirst : (⟨(compact.bytes ++ [byte]).take 64, by simp [hlen]⟩ : CompactSignature) =
      compact := by
    cases compact
    simp [hlen]
  rw [recover, dif_pos (by simp [hlen])]
  simp only [hlast, hfirst]

def isBy (signature : Signature) (digest : Digest) (address : Address) : Bool :=
  match recover digest signature with
  | .ok signer => signer == address
  | .error _ => false

end Signature

end SoftConfirm
