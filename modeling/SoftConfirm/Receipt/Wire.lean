import SoftConfirm.Json.Reader
import SoftConfirm.Quantity
import SoftConfirm.Receipt

/-!
Receipts as JSON. The primary entry is written twice, alone and at the head of the lists; older
receipts have no lists, and then it is the only entry. A threshold of zero is left out.
-/

namespace SoftConfirm

open Json (Member Origin Reading Shape Term need)

namespace Json.Term

-- A hex identifier of the kind that the place asks for.
def readIdentifier {kind : IdentifierKind} (term : Term) : Reading (Identifier kind) :=
  term.readSpelled fun s => (Identifier.ofHex s).mapError (·.message)

def readQuantity (term : Term) : Reading UInt64 :=
  term.readSpelled fun s => (Quantity.decode s).mapError (·.message)

def readSignature (term : Term) : Reading Signature :=
  term.readSpelled fun s =>
    match Signature.ofHex? s with
    | some signature => .ok signature
    | none => .error Signature.badHexMessage

-- A status name in any case, with blanks around it.
def readStatus (term : Term) : Reading Status :=
  term.readSpelled fun s =>
    match Status.ofText? s with
    | some status => .ok status
    | none => .error (Status.unknownMessage s)

def readStatusName (depth : Nat) (term : Term) : Reading Status :=
  term.readVariant depth [(Status.pending.name, .pending), (Status.included.name, .included)]

end Json.Term

namespace Receipt

-- The members of a receipt as far as they are known.
structure Draft where
  status : Option Status := none
  chainId : Option String := none
  evmChainId : Option UInt64 := none
  txHash : Option TxHash := none
  targetBlock : Option UInt64 := none
  issuedAt : Option UInt64 := none
  signer : Option Address := none
  digest : Option Digest := none
  signature : Option Signature := none
  signers : Option (List Address) := none
  signatures : Option (List Signature) := none
  threshold : Option UInt32 := none

namespace Draft

def fields : List (Member Draft) :=
  [{ name := "status", optional := false, isSet := (·.status.isSome)
     read := fun _ t d => return { d with status := some (← t.readStatus) } },
   { name := "chainId", optional := false, isSet := (·.chainId.isSome)
     read := fun _ t d => return { d with chainId := some (← t.readText) } },
   { name := "evmChainId", optional := false, isSet := (·.evmChainId.isSome)
     read := fun _ t d => return { d with evmChainId := some (← t.readQuantity) } },
   { name := "txHash", optional := false, isSet := (·.txHash.isSome)
     read := fun _ t d => return { d with txHash := some (← t.readIdentifier) } },
   { name := "targetBlock", optional := false, isSet := (·.targetBlock.isSome)
     read := fun _ t d => return { d with targetBlock := some (← t.readQuantity) } },
   { name := "issuedAt", optional := false, isSet := (·.issuedAt.isSome)
     read := fun _ t d => return { d with issuedAt := some (← t.readQuantity) } },
   { name := "signer", optional := false, isSet := (·.signer.isSome)
     read := fun _ t d => return { d with signer := some (← t.readIdentifier) } },
   { name := "digest", optional := false, isSet := (·.digest.isSome)
     read := fun _ t d => return { d with digest := some (← t.readIdentifier) } },
   { name := "signature", optional := false, isSet := (·.signature.isSome)
     read := fun _ t d => return { d with signature := some (← t.readSignature) } },
   { name := "signers", optional := true, isSet := (·.signers.isSome)
     read := fun depth t d =>
       return { d with signers := some (← t.readList depth Term.readIdentifier) } },
   { name := "signatures", optional := true, isSet := (·.signatures.isSome)
     read := fun depth t d =>
       return { d with signatures := some (← t.readList depth Term.readSignature) } },
   { name := "threshold", optional := true, isSet := (·.threshold.isSome)
     read := fun _ t d => return { d with threshold := some (← t.readWord32) } }]

-- The entries that a primary pair and two lists amount to.
def pairUp (primary : Entry) (signers : List Address) (signatures : List Signature) :
    Except Error (List Entry) :=
  if signers.length ≠ signatures.length then
    .error (.lengthMismatch signers.length signatures.length)
  else
    match List.zipWith Entry.mk signers signatures with
    | [] => .ok [primary]
    | first :: others => if first = primary then .ok (first :: others) else .error .primaryMismatch

def toReceipt (d : Draft) : Except Json.Mismatch Receipt := do
  let status ← need "status" d.status
  let chainId ← need "chainId" d.chainId
  let evmChainId ← need "evmChainId" d.evmChainId
  let txHash ← need "txHash" d.txHash
  let targetBlock ← need "targetBlock" d.targetBlock
  let issuedAt ← need "issuedAt" d.issuedAt
  let signer ← need "signer" d.signer
  let digest ← need "digest" d.digest
  let signature ← need "signature" d.signature
  let payload : Payload := { chainId, evmChainId, txHash, status, targetBlock, issuedAt }
  let receipt := do
    let entries ← pairUp ⟨signer, signature⟩ (d.signers.getD []) (d.signatures.getD [])
    ofEntries payload digest entries (d.threshold.getD 0)
  receipt.mapError fun e => .rejected e.message

def shape : Shape Draft Receipt where
  name := "WireReceipt"
  fields := fields
  blank := {}
  finish := toReceipt

end Draft

-- Reads a receipt from the tree of a text or of a value.
def ofTerm (origin : Origin) (term : Term) : Reading Receipt :=
  Draft.shape.read origin Json.nestingLimit term

def ofText (s : String) : Reading Receipt := Json.readDocument (ofTerm .text) s

-- The receipt that a JSON value holds, its members taken in the order of their keys.
def ofJson (value : Json) : Reading Receipt := ofTerm .value value.toTerm

-- The members in the order in which receipts are written.
def toJson (r : Receipt) : Json :=
  let quantity (value : UInt64) : Json := .text (Quantity.encode value)
  .object <|
    [("status", .text r.payload.status.name), ("chainId", .text r.payload.chainId),
      ("evmChainId", quantity r.payload.evmChainId), ("txHash", .text r.payload.txHash.toHex),
      ("targetBlock", quantity r.payload.targetBlock), ("issuedAt", quantity r.payload.issuedAt),
      ("signer", .text r.primary.signer.toHex), ("digest", .text r.digest.toHex),
      ("signature", .text r.primary.signature.toHex),
      ("signers", .array (r.entries.map fun e => .text e.signer.toHex)),
      ("signatures", .array (r.entries.map fun e => .text e.signature.toHex))] ++
    if r.threshold = 0 then [] else [("threshold", .number (.integer r.threshold.toNat))]

end Receipt

end SoftConfirm
