import SoftConfirm.Crypto.Scheme

/-!
What a confirmation attests, and the exact bytes that its signers commit to. Every field goes into
the preimage; the chain name is the only one of variable length and stands behind its length.
-/

namespace SoftConfirm

inductive Status where
  | pending
  | included
  deriving DecidableEq, Repr

namespace Status

def name : Status → String
  | pending => "pending"
  | included => "included"

def modeByte : Status → UInt8
  | pending => 0
  | included => 1

-- Reads a status name in any ASCII case, with blanks around it.
def ofText? (s : String) : Option Status :=
  let lowered := (Text.trimChars s.toList).map Char.toLower
  if lowered = included.name.toList then some included
  else if lowered = pending.name.toList then some pending
  else none

def unknownMessage (s : String) : String :=
  "unknown preconfirm status: " ++ Text.quoted (Text.trim s)

end Status

-- The fields of a confirmation. `issuedAt` counts seconds from 1970.
structure Payload where
  chainId : String
  evmChainId : UInt64
  txHash : TxHash
  status : Status
  targetBlock : UInt64
  issuedAt : UInt64
  deriving DecidableEq

namespace Payload

def unnamedChain : String := "unknown"

-- How many bytes of a chain name count. More do not fit the length field.
def chainIdLimit : Nat := 65535

-- The bytes of a chain name: trimmed, never empty, and cut between bytes, not characters.
def chainIdBytes (chainId : String) : Bytes :=
  let trimmed := Text.trim chainId
  (Text.utf8 (if trimmed.isEmpty then unnamedChain else trimmed)).take chainIdLimit

-- Keeps these signatures apart from signatures over any other kind of message.
def domain : Bytes := Text.utf8 "YNX_TXCONFIRM_V0"

def preimage (p : Payload) : Bytes :=
  let chain := chainIdBytes p.chainId
  domain ++ [p.status.modeByte] ++ Bytes.bigEndian 2 chain.length ++ chain ++
    Bytes.bigEndian 8 p.evmChainId.toNat ++ p.txHash.bytes ++
    Bytes.bigEndian 8 p.targetBlock.toNat ++ Bytes.bigEndian 8 p.issuedAt.toNat

-- What every signer signs.
def digest (p : Payload) : Digest := Digest.ofMessage p.preimage

end Payload

end SoftConfirm
