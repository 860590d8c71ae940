import SoftConfirm.Chain

namespace SoftConfirm

-- How far a producer is with its block. Between any two of its steps the chain is open to others,
-- so each phase keeps what the producer itself remembers.
inductive Production where
  | waiting (last : Option Block)
  | copied (snapshot : List RawTx)
  | indexing (snapshot : List RawTx) (block : Block) (rest : List RawTx)

namespace Production

-- One step copies the pool, raises the head, records one transaction, or prunes the pool. The
-- snapshot leaves the pool only when nothing of it is left to record.
def step (decode : Decoder) (c : Chain) : Production → Production × Chain
  | waiting _ => (copied c.pool, c)
  | copied snapshot =>
      let raised := c.advance
      (indexing snapshot ⟨raised.head, [], 0⟩ snapshot, raised)
  | indexing snapshot block (raw :: rest) =>
      match decode raw with
      | .ok hash =>
          (indexing snapshot { block with included := block.included ++ [hash] } rest,
            c.record hash block.height)
      | .error _ => (indexing snapshot { block with dropped := block.dropped + 1 } rest, c)
  | indexing snapshot block [] => (waiting (some block), c.prune snapshot.length)

end Production

end SoftConfirm
