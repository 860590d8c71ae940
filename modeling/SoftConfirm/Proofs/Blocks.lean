import Mathlib.Data.List.Forall2
import SoftConfirm.Proofs.Production

namespace SoftConfirm.Chain

-- What a block makes of a chain: it takes every transaction that has a hash, in the order of the
-- pool, counts the others, and leaves no trace in the records of hashes that it does not take.
structure TakesPool (decode : Decoder) (c : Chain) (block : Block) (after : Chain) : Prop where
  height : block.height.toNat = c.head.toNat + 1
  included : List.Forall₂ (fun raw hash => decode raw = .ok hash)
    (c.pool.filter fun raw => (decode raw).isOk) block.included
  dropped : block.dropped = c.pool.countP fun raw => !(decode raw).isOk
  accounted : block.included.length + block.dropped = c.pool.length
  head : after.head = block.height
  pool : after.pool = []
  recorded : ∀ hash ∈ block.included, after.height? hash = some block.height
  kept : ∀ hash ∉ block.included, after.height? hash = c.height? hash

variable {decode : Decoder} {c : Chain}

-- Hashes stand in the order of the transactions that have them, one for each.
theorem forall₂_filterMap_decode (decode : Decoder) (raws : List RawTx) :
    List.Forall₂ (fun raw hash => decode raw = .ok hash)
      (raws.filter fun raw => (decode raw).isOk)
      (raws.filterMap fun raw => (decode raw).toOption) := by
  induction raws with
  | nil => exact .nil
  | cons raw raws ih =>
      cases hraw : decode raw with
      | ok hash =>
          rw [List.filter_cons_of_pos (by simp [hraw, Except.isOk, Except.toBool]),
            List.filterMap_cons_some (by rw [hraw, Except.toOption])]
          exact .cons hraw ih
      | error e =>
          rw [List.filter_cons_of_neg (by simp [hraw, Except.isOk, Except.toBool]),
            List.filterMap_cons_none (by rw [hraw, Except.toOption])]
          exact ih

theorem takesPool_produceBlock (decode : Decoder) (hroom : c.head.toNat + 1 < UInt64.size) :
    c.TakesPool decode (c.produceBlock decode).1 (c.produceBlock decode).2 := by
  have hincluded : List.Forall₂ (fun raw hash => decode raw = .ok hash)
      (c.pool.filter fun raw => (decode raw).isOk) (c.produceBlock decode).1.included :=
    forall₂_filterMap_decode decode c.pool
  have hcount : (c.pool.countP fun raw => (decode raw).isOk) =
      (c.produceBlock decode).1.included.length := by
    rw [List.countP_eq_length_filter, hincluded.length_eq]
  have hparts : c.pool.length = (c.pool.countP fun raw => (decode raw).isOk) +
      c.pool.countP fun raw => !(decode raw).isOk := by
    simpa using List.length_eq_countP_add_countP (fun raw => (decode raw).isOk) (l := c.pool)
  have hdropped : (c.produceBlock decode).1.dropped =
      c.pool.length - (c.produceBlock decode).1.included.length := rfl
  exact
    { height := toNat_add_one hroom
      included := hincluded
      dropped := by omega
      accounted := by omega
      head := head_produceBlock c decode
      pool := pool_produceBlock c decode
      recorded := fun hash hmem => height?_produceBlock_of_waits (mem_included_iff.mp hmem)
      kept := fun hash hnot =>
        height?_produceBlock_of_not_waits fun hwaits => hnot (mem_included_iff.mpr hwaits) }

-- A producer that nobody disturbs ends with a block that has taken the whole pool.
theorem alone_takesPool (decode : Decoder) (c : Chain) (last : Option Block)
    (hroom : c.head.toNat + 1 < UInt64.size) :
    ∃ block after,
      (Production.alone decode)^[c.pool.length + 3] (.waiting last, c) =
          (.waiting (some block), after) ∧
        c.produceBlock decode = (block, after) ∧ c.TakesPool decode block after :=
  ⟨_, _, Production.alone_produces decode c last, rfl, takesPool_produceBlock decode hroom⟩

-- A pool with a transaction twice that was recorded before, one that is no hash, and a new one.
theorem alone_takesPool_recorded :
    let hash : UInt8 → TxHash := fun byte => ⟨List.replicate 32 byte, List.length_replicate⟩
    let c := ((((Chain.empty.record (hash 1) 3).record (hash 3) 5).setHead 7).push
      [(hash 1).bytes, [], (hash 2).bytes, (hash 1).bytes])
    c.head.toNat + 1 < UInt64.size ∧
      ∃ after, (Production.alone .identity)^[7] (.waiting none, c) =
          (.waiting (some ⟨8, [hash 1, hash 2, hash 1], 1⟩), after) ∧
        after.head = 8 ∧ after.pool = [] ∧ after.height? (hash 1) = some 8 ∧
        after.height? (hash 2) = some 8 ∧ after.height? (hash 3) = some 5 := by
  intro hash c
  have hroom : c.head.toNat + 1 < UInt64.size := by decide
  obtain ⟨block, after, hrun, hproduced, htakes⟩ := alone_takesPool .identity c none hroom
  have hblock : block = ⟨8, [hash 1, hash 2, hash 1], 1⟩ :=
    (congrArg Prod.fst hproduced).symm.trans (by decide)
  subst hblock
  refine ⟨hroom, after, hrun, htakes.head, htakes.pool, ?_, ?_, ?_⟩
  · exact htakes.recorded _ (by decide)
  · exact htakes.recorded _ (by decide)
  · rw [htakes.kept _ (by decide), show c.height? (hash 3) = _ from height?_record _ _ _ _]
    rfl

end SoftConfirm.Chain
