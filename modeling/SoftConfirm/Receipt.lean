import SoftConfirm.Attestation
import SoftConfirm.Signature

/-!
Receipts: a payload, the digest that was signed, and the signatures over it. There is always a
first entry, and clients that know only one signer look at that one.
-/

namespace SoftConfirm

structure Entry where
  signer : Address
  signature : Signature
  deriving DecidableEq

structure Receipt where
  payload : Payload
  digest : Digest
  -- How many valid signatures are required. Zero says nothing, and all are required then.
  threshold : UInt32
  primary : Entry
  others : List Entry
  deriving DecidableEq

namespace Receipt

inductive Error where
  | noSignatures
  | lengthMismatch (signers signatures : Nat)
  | primaryMismatch
  deriving DecidableEq, Repr

def Error.message : Error → String
  | .noSignatures => "receipt carries no signatures"
  | .lengthMismatch signers signatures =>
      s!"signers/signatures length mismatch: {signers} signers, {signatures} signatures"
  | .primaryMismatch => "primary signer/signature does not match the first entry"

-- All entries in their order, the primary one first.
def entries (r : Receipt) : List Entry := r.primary :: r.others

def signers (r : Receipt) : List Address := r.entries.map (·.signer)

def ofEntries (payload : Payload) (digest : Digest) (entries : List Entry)
    (threshold : UInt32) : Except Error Receipt :=
  match entries with
  | [] => .error .noSignatures
  | primary :: others => .ok { payload, digest, threshold, primary, others }

end Receipt

end SoftConfirm
