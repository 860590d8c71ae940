import Std.Data.HashMap
import SoftConfirm.Transaction

/-!
A small chain: an index of included transactions, a head, and a pool of waiting ones in the order
of their arrival. A block takes everything that is waiting; it is indexed before it leaves the
pool, so at any moment a transaction can be found in one place or the other.
-/

namespace SoftConfirm

-- The names of a chain that every receipt commits to.
structure ChainContext where
  chainId : String
  evmChainId : UInt64
  deriving DecidableEq

structure Chain where
  -- The height at which each included transaction was recorded.
  index : Std.HashMap TxHash UInt64
  head : UInt64
  -- Waiting transactions, the oldest first.
  pool : List RawTx

structure Block where
  height : UInt64
  included : List TxHash
  dropped : Nat
  deriving DecidableEq

namespace Chain

def empty : Chain := ⟨∅, 0, []⟩

def height? (c : Chain) (hash : TxHash) : Option UInt64 := c.index[hash]?

-- The oldest waiting transactions, at most `limit` of them.
def pending (c : Chain) (limit : UInt64) : List RawTx := c.pool.take limit.toNat

-- Puts transactions behind those that wait already.
def push (c : Chain) (raws : List RawTx) : Chain := { c with pool := c.pool ++ raws }

def setHead (c : Chain) (height : UInt64) : Chain := { c with head := height }

def advance (c : Chain) : Chain := { c with head := c.head + 1 }

-- Records at which height a transaction was included; an older record gives way.
def record (c : Chain) (hash : TxHash) (height : UInt64) : Chain :=
  { c with index := c.index.insert hash height }

def forget (c : Chain) (hash : TxHash) : Chain := { c with index := c.index.erase hash }

def prune (c : Chain) (count : Nat) : Chain := { c with pool := c.pool.drop count }

-- One block: a snapshot of the pool, a higher head, a record for each transaction of the
-- snapshot that has a hash, and the snapshot leaves the pool.
def produceBlock (decode : Decoder) (c : Chain) : Block × Chain :=
  let snapshot := c.pool
  let raised := c.advance
  let included := snapshot.filterMap fun raw => (decode raw).toOption
  let recorded := included.foldl (fun c hash => c.record hash raised.head) raised
  (⟨raised.head, included, snapshot.length - included.length⟩, recorded.prune snapshot.length)

end Chain

end SoftConfirm
