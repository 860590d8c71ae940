import SoftConfirm.Crypto.Scheme

/-!
Raw transactions and the hashes that name them. A chain picks a decoder; the usual one hashes the
signed envelope as it is.
-/

namespace SoftConfirm

abbrev RawTx := Bytes

inductive DecodeError where
  | empty
  | malformed (reason : String)
  deriving DecidableEq, Repr

def DecodeError.message : DecodeError → String
  | .empty => "empty transaction bytes"
  | .malformed reason => "malformed transaction: " ++ reason

abbrev Decoder := RawTx → Except DecodeError TxHash

namespace Decoder

-- The Keccak-256 hash of the envelope, which must not be empty.
def keccak : Decoder := fun raw =>
  if raw.isEmpty then .error .empty
  else .ok ⟨Keccak.hash raw, Keccak.length_hash raw⟩

-- Envelopes that are hashes already and stand for themselves.
def identity : Decoder := fun raw =>
  match Identifier.ofBytes? raw with
  | some hash => .ok hash
  | none => .error (.malformed "not a hash")

end Decoder

end SoftConfirm
