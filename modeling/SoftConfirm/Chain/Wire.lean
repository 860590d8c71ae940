import SoftConfirm.Chain
import SoftConfirm.Json.Reader

/-!
Chain names and index records as JSON.
-/

namespace SoftConfirm

open Json (Member Reading Shape Term need)

namespace ChainContext

structure Draft where
  chainId : Option String := none
  evmChainId : Option UInt64 := none

def shape : Shape Draft ChainContext where
  name := "ChainContext"
  fields :=
    [{ name := "chain_id", optional := false, isSet := (·.chainId.isSome)
       read := fun _ t d => return { d with chainId := some (← t.readText) } },
     { name := "evm_chain_id", optional := false, isSet := (·.evmChainId.isSome)
       read := fun _ t d => return { d with evmChainId := some (← t.readWord64) } }]
  blank := {}
  finish := fun d => do
    let chainId ← need "chain_id" d.chainId
    let evmChainId ← need "evm_chain_id" d.evmChainId
    return { chainId, evmChainId }

def ofText (s : String) : Reading ChainContext :=
  Json.readDocument (shape.read .text Json.nestingLimit) s

def toJson (c : ChainContext) : Json :=
  .object [("chain_id", .text c.chainId),
    ("evm_chain_id", .number (.integer c.evmChainId.toNat))]

end ChainContext

namespace Chain

-- An index record says at which height a transaction was included.
def recordShape : Shape (Option UInt64) UInt64 where
  name := "IndexedTx"
  fields :=
    [{ name := "height", optional := false, isSet := (·.isSome)
       read := fun _ t _ => return some (← t.readWord64) }]
  blank := none
  finish := need "height"

def recordOfText (s : String) : Reading UInt64 :=
  Json.readDocument (recordShape.read .text Json.nestingLimit) s

def recordToJson (height : UInt64) : Json :=
  .object [("height", .number (.integer height.toNat))]

end Chain

end SoftConfirm
