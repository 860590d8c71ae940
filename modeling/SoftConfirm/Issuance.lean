import SoftConfirm.Issuance.Call
import SoftConfirm.Receipt

/-!
Issuing a receipt: find the transaction, build the digest, have every signer of one set sign it.
Whatever fails, nothing is issued. The signer set is taken once, at the start, so a receipt never
mixes two sets.
-/

namespace SoftConfirm

inductive IssueError where
  | config (cause : ConfigError)
  | disabled
  | backendMissing
  | backendUnavailable (cause : BackendError)
  | txNotFound (hash : TxHash)
  | signing (cause : SigningError)
  | interrupted (cause : Interruption)
  deriving DecidableEq

namespace IssueError

def message : IssueError → String
  | config cause => cause.message
  | disabled => "preconfirm is disabled"
  | backendMissing => "backend is not available"
  | backendUnavailable cause => "backend unavailable: " ++ cause.message
  | txNotFound hash => "tx not found (not pending, not included): " ++ hash.toHex
  | signing cause => "signing failed: " ++ cause.message
  | interrupted cause => cause.message

end IssueError

-- Where a transaction was found, and the block that it is in or aims at.
structure Resolution where
  status : Status
  targetBlock : UInt64
  deriving DecidableEq

-- The chain whose transactions are confirmed, and how it names them.
structure Backend where
  context : ChainContext
  decode : Decoder

def Backend.describe (b : Backend) : String :=
  s!"Backend \x7b chain: ChainContext \x7b chain_id: {Text.quoted b.context.chainId}, " ++
    s!"evm_chain_id: {b.context.evmChainId.toNat} \x7d, .. \x7d"

abbrev Attempt := ExceptT IssueError Program

namespace Issuance

def ask (call : Call) : Attempt call.Answer := ExceptT.lift (.ask call .done)

def check : Attempt Unit := do
  match ← ask .check with
  | none => return ()
  | some cause => throw (.interrupted cause)

-- A query that is not even begun when the request is to stop.
def query (q : Query) : Attempt q.Value := do
  check
  match ← ask (.query q) with
  | .error cause => throw (.interrupted cause)
  | .ok (.error cause) => throw (.backendUnavailable cause)
  | .ok (.ok value) => return value

def names (decode : Decoder) (hash : TxHash) (raw : RawTx) : Bool :=
  match decode raw with
  | .ok found => found == hash
  | .error _ => false

-- The height above a head, which stays at the greatest one.
def nextHeight (head : UInt64) : UInt64 := if head.toNat + 1 < UInt64.size then head + 1 else head

-- Looks in the index, then among the first `limit` waiting transactions, then in the index once
-- more, for the transaction may have moved from the one to the other.
def resolve (decode : Decoder) (limit : UInt64) (hash : TxHash) : Attempt Resolution := do
  match ← query (.lookup hash) with
  | some height => return ⟨.included, height⟩
  | none =>
      let raws : List RawTx ← query (.pending limit)
      -- The pool is asked for so many, and not trusted to obey.
      if (raws.take limit.toNat).any (names decode hash) then
        let head : UInt64 ← query .head
        return ⟨.pending, nextHeight head⟩
      else
        match ← query (.lookup hash) with
        | some height => return ⟨.included, height⟩
        | none => throw (.txNotFound hash)

-- Has one signer sign, unless the request is to stop.
def signWith (digest : Digest) (signer : Signer) : Attempt Entry := do
  check
  match ← ask (.sign signer digest) with
  | .ok signature => return ⟨signer.address, signature⟩
  | .error cause => throw (.signing cause)

def payload (context : ChainContext) (hash : TxHash) (found : Resolution)
    (issuedAt : UInt64) : Payload where
  chainId := context.chainId
  evmChainId := context.evmChainId
  txHash := hash
  status := found.status
  targetBlock := found.targetBlock
  issuedAt := issuedAt

-- Issues a receipt that is dated `issuedAt`.
def issue (backend : Option Backend) (limit : UInt64) (hash : TxHash) (issuedAt : UInt64) :
    Attempt Receipt := do
  let active : Option SignerSet ← ask .signers
  match active, backend with
  | none, _ => throw .disabled
  | some _, none => throw .backendMissing
  | some set, some backend =>
      let found ← resolve backend.decode limit hash
      check
      let payload := payload backend.context hash found issuedAt
      let digest := payload.digest
      let entries ← set.signers.mapM (signWith digest)
      check
      match Receipt.ofEntries payload digest entries set.threshold with
      | .ok receipt => return receipt
      | .error _ => throw (.config .emptySignerSet)

end Issuance

end SoftConfirm
