import SoftConfirm.Receipt

/-!
Checking a receipt with nothing but its own contents: the digest has to be that of its fields, and
enough distinct signers have to have signed it. Entries that prove nothing are passed over.
-/

namespace SoftConfirm

structure Verification where
  digest : Digest
  threshold : UInt32
  -- Distinct signers with a valid signature, in the order of the receipt.
  validSigners : List Address
  deriving DecidableEq

namespace Verification

inductive Error where
  | digestMismatch (claimed computed : Digest)
  | thresholdExceedsSigners (threshold : UInt32) (signers : Nat)
  | insufficientSignatures (valid : Nat) (threshold : UInt32)
  deriving DecidableEq

def Error.message : Error → String
  | .digestMismatch claimed computed =>
      s!"digest mismatch: receipt carries {claimed.toHex}, fields hash to {computed.toHex}"
  | .thresholdExceedsSigners threshold signers =>
      s!"threshold {threshold.toNat} exceeds signer count {signers}"
  | .insufficientSignatures valid threshold =>
      s!"insufficient valid signatures: {valid} < threshold {threshold.toNat}"

-- The stated threshold, or the number of entries when none is stated.
def effectiveThreshold (r : Receipt) : UInt32 :=
  if r.threshold = 0 then UInt32.ofNat (min r.entries.length (UInt32.size - 1)) else r.threshold

variable [SignatureScheme]

-- Whether an entry's claim is admitted and true. An empty allowlist admits every signer.
def counts (digest : Digest) (allowlist : List Address) (entry : Entry) : Bool :=
  (allowlist.isEmpty || allowlist.contains entry.signer) &&
    entry.signature.isBy digest entry.signer

-- Adds an entry's signer to those found before it, unless it is there or proves nothing.
def collect (digest : Digest) (allowlist : List Address) (found : List Address)
    (entry : Entry) : List Address :=
  if counts digest allowlist entry && !found.contains entry.signer then found ++ [entry.signer]
  else found

-- The signers with a valid entry, each once, by their first valid entry.
def tally (digest : Digest) (allowlist : List Address) (entries : List Entry) :
    List Address :=
  entries.foldl (collect digest allowlist) []

end Verification

open Verification in
-- Verifies a receipt, counting only signers on the allowlist if there is one.
def Receipt.verify [SignatureScheme] (r : Receipt) (allowlist : List Address) :
    Except Verification.Error Verification :=
  let computed := r.payload.digest
  if computed ≠ r.digest then .error (.digestMismatch r.digest computed)
  else
    let threshold := effectiveThreshold r
    if r.entries.length < threshold.toNat then
      .error (.thresholdExceedsSigners threshold r.entries.length)
    else
      let valid := tally computed allowlist r.entries
      if valid.length < threshold.toNat then
        .error (.insufficientSignatures valid.length threshold)
      else .ok ⟨computed, threshold, valid⟩

end SoftConfirm
