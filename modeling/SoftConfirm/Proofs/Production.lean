import Mathlib.Logic.Function.Iterate
import SoftConfirm.Chain.Production

namespace SoftConfirm

theorem toNat_add_one {height : UInt64} (h : height.toNat + 1 < UInt64.size) :
    (height + 1).toNat = height.toNat + 1 := by
  rw [UInt64.toNat_add]
  exact Nat.mod_eq_of_lt h

namespace Chain

@[simp] theorem pool_push (c : Chain) (raws : List RawTx) :
    (c.push raws).pool = c.pool ++ raws := rfl

@[simp] theorem pool_prune (c : Chain) (count : Nat) :
    (c.prune count).pool = c.pool.drop count := rfl

theorem height?_record (c : Chain) (hash other : TxHash) (height : UInt64) :
    (c.record hash height).height? other =
      if hash = other then some height else c.height? other := by
  simp only [height?, record, Std.HashMap.getElem?_insert, beq_iff_eq]

-- Whether a transaction with this hash is in the pool, however far from its front.
def Waits (c : Chain) (decode : Decoder) (hash : TxHash) : Prop :=
  ∃ raw ∈ c.pool, decode raw = .ok hash

section

variable {c : Chain} {decode : Decoder} {hash : TxHash}

theorem mem_filterMap_decode {raws : List RawTx} :
    hash ∈ raws.filterMap (fun raw => (decode raw).toOption) ↔
      ∃ raw ∈ raws, decode raw = .ok hash := by
  rw [List.mem_filterMap]
  refine exists_congr fun raw => and_congr_right fun _ => ?_
  cases decode raw with
  | ok found => simp [Except.toOption]
  | error e => simp [Except.toOption]

theorem waits_push {raws : List RawTx} :
    (c.push raws).Waits decode hash ↔
      c.Waits decode hash ∨ ∃ raw ∈ raws, decode raw = .ok hash := by
  simp only [Waits, pool_push, List.mem_append, or_and_right, exists_or]

-- Recording many transactions of one height leaves everything but their records as it is.
theorem foldl_record (hashes : List TxHash) (c : Chain) (height : UInt64) :
    let recorded := hashes.foldl (fun c hash => c.record hash height) c
    recorded.head = c.head ∧ recorded.pool = c.pool ∧
      ∀ hash, recorded.height? hash = if hash ∈ hashes then some height else c.height? hash := by
  induction hashes generalizing c with
  | nil => exact ⟨rfl, rfl, fun hash => (if_neg List.not_mem_nil).symm⟩
  | cons first rest ih =>
      obtain ⟨hhead, hpool, hheight⟩ := ih (c.record first height)
      refine ⟨hhead, hpool, fun hash => (hheight hash).trans ?_⟩
      rw [height?_record]
      by_cases hrest : hash ∈ rest
      · rw [if_pos hrest, if_pos (List.mem_cons_of_mem first hrest)]
      · rw [if_neg hrest]
        refine if_congr ?_ rfl rfl
        rw [List.mem_cons, or_iff_left hrest, eq_comm]

theorem mem_included_iff :
    hash ∈ (c.produceBlock decode).1.included ↔ c.Waits decode hash :=
  mem_filterMap_decode

theorem head_produceBlock (c : Chain) (decode : Decoder) :
    (c.produceBlock decode).2.head = c.head + 1 :=
  (foldl_record _ c.advance _).1

theorem pool_produceBlock (c : Chain) (decode : Decoder) :
    (c.produceBlock decode).2.pool = [] :=
  (congrArg (List.drop c.pool.length) (foldl_record _ c.advance _).2.1).trans List.drop_length

theorem height?_produceBlock_of_waits (h : c.Waits decode hash) :
    (c.produceBlock decode).2.height? hash = some (c.head + 1) :=
  ((foldl_record _ c.advance _).2.2 hash).trans (if_pos (mem_included_iff.mpr h))

theorem height?_produceBlock_of_not_waits (h : ¬ c.Waits decode hash) :
    (c.produceBlock decode).2.height? hash = c.height? hash :=
  ((foldl_record _ c.advance _).2.2 hash).trans (if_neg fun hmem => h (mem_included_iff.mp hmem))

end

end Chain

namespace Production

-- A producer and its chain when nobody else touches the chain.
def alone (decode : Decoder) (s : Production × Chain) : Production × Chain :=
  step decode s.2 s.1

theorem alone_indexing (decode : Decoder) (snapshot rest : List RawTx) (block : Block)
    (c : Chain) :
    (alone decode)^[rest.length] (indexing snapshot block rest, c) =
      (indexing snapshot
        { block with
          included := block.included ++ rest.filterMap fun raw => (decode raw).toOption
          dropped := block.dropped +
            (rest.length - (rest.filterMap fun raw => (decode raw).toOption).length) } [],
        (rest.filterMap fun raw => (decode raw).toOption).foldl
          (fun c hash => c.record hash block.height) c) := by
  induction rest generalizing block c with
  | nil => simp
  | cons raw rest ih =>
      rw [List.length_cons, Function.iterate_succ_apply]
      cases hraw : decode raw with
      | ok hash =>
          simp only [alone, step, hraw]
          rw [ih]
          simp [hraw, Except.toOption]
      | error e =>
          simp only [alone, step, hraw]
          rw [ih]
          have hle := List.length_filterMap_le (fun raw => (decode raw).toOption) rest
          simp only [List.filterMap_cons, hraw, Except.toOption]
          simp only [Except.toOption] at hle
          congr 3
          omega

-- Left alone, a producer takes one step for each transaction and three for the rest, and then has
-- produced the block.
theorem alone_produces (decode : Decoder) (c : Chain) (last : Option Block) :
    (alone decode)^[c.pool.length + 3] (waiting last, c) =
      (waiting (some (c.produceBlock decode).1), (c.produceBlock decode).2) := by
  have hstart : (alone decode)^[2] (waiting last, c) =
      (indexing c.pool ⟨c.advance.head, [], 0⟩ c.pool, c.advance) := rfl
  rw [show c.pool.length + 3 = 1 + (c.pool.length + 2) by omega, Function.iterate_add_apply,
    Function.iterate_add_apply, hstart, alone_indexing]
  simp [alone, step, Chain.produceBlock]

end Production

end SoftConfirm
