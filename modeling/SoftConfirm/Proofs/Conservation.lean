import SoftConfirm.Proofs.Targets

namespace SoftConfirm

namespace Production

variable {decode : Decoder} {c : Chain} {p : Production}

-- The copy of the pool that a producer works from.
def snapshot? : Production → Option (List RawTx)
  | waiting _ => none
  | copied snapshot => some snapshot
  | indexing snapshot _ _ => some snapshot

-- What a producer's next step takes out of the pool.
def pruning (c : Chain) : Production → List RawTx
  | indexing snapshot _ [] => c.pool.take snapshot.length
  | _ => []

theorem pruning_append_pool_step (decode : Decoder) (c : Chain) (p : Production) :
    p.pruning c ++ (p.step decode c).2.pool = c.pool := by
  cases p with
  | waiting last => rfl
  | copied snapshot => rfl
  | indexing snapshot block rest =>
      cases rest with
      | nil => exact List.take_append_drop snapshot.length c.pool
      | cons raw rest =>
          simp only [step]
          split
          · rfl
          · rfl

-- A producer starts from a copy of the whole pool, and has that copy until it prunes.
theorem snapshot?_step {snapshot : List RawTx}
    (h : (p.step decode c).1.snapshot? = some snapshot) :
    (p.step decode c).2.pool = c.pool ∧
      ((p.snapshot? = none ∧ snapshot = c.pool) ∨ p.snapshot? = some snapshot) := by
  cases p with
  | waiting last => exact ⟨rfl, .inl ⟨rfl, (Option.some.inj h).symm⟩⟩
  | copied other => exact ⟨rfl, .inr h⟩
  | indexing other block rest =>
      cases rest with
      | nil => exact absurd h nofun
      | cons raw rest =>
          simp only [step] at h ⊢
          cases hraw : decode raw with
          | ok hash =>
              rw [hraw] at h
              exact ⟨rfl, .inr h⟩
          | error e =>
              rw [hraw] at h
              exact ⟨rfl, .inr h⟩

theorem Sound.pruning_eq {snapshot : List RawTx} {block : Block}
    (h : (indexing snapshot block []).Sound decode c) :
    (indexing snapshot block []).pruning c = snapshot :=
  (List.prefix_iff_eq_take.mp h.1).symm

theorem Sound.indexed_of_pruning (h : p.Sound decode c) {raw : RawTx} {hash : TxHash}
    (hraw : raw ∈ p.pruning c) (hhash : decode raw = .ok hash) : c.Indexed hash := by
  cases p with
  | waiting last => exact absurd hraw List.not_mem_nil
  | copied snapshot => exact absurd hraw List.not_mem_nil
  | indexing snapshot block rest =>
      cases rest with
      | nil =>
          rw [h.pruning_eq] at hraw
          obtain ⟨-, passed, rfl, hpassed⟩ := h
          rw [List.append_nil] at hraw
          exact hpassed raw hraw hash hhash
      | cons next rest => exact absurd hraw List.not_mem_nil

-- A producer records what is still in the pool.
theorem Sound.waits_of_recording (h : p.Sound decode c) {hash : TxHash} {height : UInt64}
    (hrecording : p.recording? decode = some (hash, height)) : c.Waits decode hash := by
  cases p with
  | waiting last => exact absurd hrecording nofun
  | copied snapshot => exact absurd hrecording nofun
  | indexing snapshot block rest =>
      cases rest with
      | nil => exact absurd hrecording nofun
      | cons raw rest =>
          obtain ⟨found, hfound, hentry⟩ := Option.map_eq_some_iff.mp hrecording
          obtain rfl := (Prod.mk.inj hentry).1
          obtain ⟨hpre, passed, rfl, -⟩ := h
          have hmem : raw ∈ c.pool := hpre.subset (by simp)
          cases hraw : decode raw with
          | ok other =>
              rw [hraw] at hfound
              exact ⟨raw, hmem, hraw.trans (congrArg _ (Option.some.inj hfound))⟩
          | error e =>
              rw [hraw] at hfound
              exact absurd hfound nofun

theorem record_step (decode : Decoder) (c : Chain) (p : Production) (hash : TxHash) :
    (p.step decode c).2.height? hash =
      match p.recording? decode with
      | some (other, height) => if other = hash then some height else c.height? hash
      | none => c.height? hash := by
  rw [Chain.height?, index_step]
  cases p.recording? decode with
  | none => rfl
  | some entry => exact Chain.height?_record c entry.1 hash entry.2

end Production

-- The books of a chain: what has arrived is gone or waits, in the order of its arrival; what is
-- gone and has a hash is indexed; and every record is of something that has arrived, at a height
-- from one up to the head.
structure Chain.Accounted (decode : Decoder) (arrived gone : List RawTx) (c : Chain) : Prop where
  pool : arrived = gone ++ c.pool
  indexed : ∀ raw ∈ gone, ∀ hash, decode raw = .ok hash → c.Indexed hash
  recorded : ∀ hash height, c.height? hash = some height →
    (∃ raw ∈ arrived, decode raw = .ok hash) ∧ 1 ≤ height ∧ height ≤ c.head

namespace LiveNode

variable {α : Type}

-- The transactions that moves put into the pool, in their order.
def pushed (moves : List (Move Event α)) : List RawTx :=
  moves.filterMap fun
    | .occur (.push raw) => some raw
    | _ => none

-- What a move takes out of the pool.
def leaving (s : LiveNode) : Move Event α → List RawTx
  | .occur .produce => s.production.pruning s.node.chain
  | _ => []

theorem pushed_concat (moves : List (Move Event α)) (move : Move Event α) :
    pushed (moves ++ [move]) = pushed moves ++ pushed [move] :=
  List.filterMap_append

section

variable [SignatureScheme]

-- Everything that moves take out of the pool, in the order in which it leaves.
def pruned (r : Run α) : List (Move Event α) → List RawTx
  | [] => []
  | move :: moves =>
      leaving r.shared move ++ pruned (Interleaving.step act surroundings r move) moves

theorem pruned_concat (r : Run α) (moves : List (Move Event α)) (move : Move Event α) :
    pruned r (moves ++ [move]) = pruned r moves ++ leaving (r.after moves).shared move := by
  induction moves generalizing r with
  | nil => exact List.append_nil _
  | cons first moves ih =>
      rw [List.cons_append, pruned, ih, pruned, List.append_assoc]
      rfl

-- A move is a step of the producer, or all that it does is to put what it pushes into the pool.
theorem produce_or_push (r : Run α) (move : Move Event α) :
    (move = .occur .produce ∧
        (Interleaving.step act surroundings r move).shared = act .produce r.shared) ∨
      (leaving r.shared move = [] ∧
        (Interleaving.step act surroundings r move).shared =
          ⟨r.shared.node.updateChain (·.push (pushed [move])), r.shared.production⟩) := by
  rw [shared_step]
  have hidle : r.shared = ⟨r.shared.node.updateChain (·.push []), r.shared.production⟩ := by
    simp only [Node.updateChain, Chain.push, List.append_nil]
  cases move with
  | start program => exact .inr ⟨rfl, hidle⟩
  | proceed place => exact .inr ⟨rfl, hidle⟩
  | occur event =>
      cases event with
      | push raw => exact .inr ⟨rfl, rfl⟩
      | produce => exact .inl ⟨rfl, rfl⟩

theorem leaving_append_pool_step (r : Run α) (move : Move Event α) :
    leaving r.shared move ++ (Interleaving.step act surroundings r move).shared.node.chain.pool =
      r.shared.node.chain.pool ++ pushed [move] := by
  rcases produce_or_push r move with ⟨rfl, hshared⟩ | ⟨hleaving, hshared⟩
  · rw [hshared]
    exact (Production.pruning_append_pool_step _ _ _).trans (List.append_nil _).symm
  · rw [hleaving, hshared]
    rfl

-- Nothing is lost on the way into the pool and out of it, nothing comes twice, and nothing
-- overtakes.
theorem pruned_append_pool (r : Run α) (moves : List (Move Event α)) :
    pruned r moves ++ (r.after moves).shared.node.chain.pool =
      r.shared.node.chain.pool ++ pushed moves := by
  induction moves using List.reverseRecOn with
  | nil => exact (List.append_nil _).symm
  | append_singleton moves move ih =>
      rw [pruned_concat, after_concat, List.append_assoc, leaving_append_pool_step,
        ← List.append_assoc, ih, List.append_assoc, pushed_concat]

theorem snapshot?_step {r : Run α} {move : Move Event α} {snapshot : List RawTx}
    (h : (Interleaving.step act surroundings r move).shared.production.snapshot? =
      some snapshot) :
    (Interleaving.step act surroundings r move).shared.node.chain.pool =
        r.shared.node.chain.pool ++ pushed [move] ∧
      ((move = .occur .produce ∧ r.shared.production.snapshot? = none ∧
          snapshot = r.shared.node.chain.pool) ∨
        r.shared.production.snapshot? = some snapshot) := by
  rcases produce_or_push r move with ⟨rfl, hshared⟩ | ⟨-, hshared⟩
  · rw [hshared] at h ⊢
    obtain ⟨hpool, hcopy | hkept⟩ := Production.snapshot?_step h
    · exact ⟨hpool.trans (List.append_nil _).symm, .inl ⟨rfl, hcopy⟩⟩
    · exact ⟨hpool.trans (List.append_nil _).symm, .inr hkept⟩
  · rw [hshared] at h ⊢
    exact ⟨rfl, .inr h⟩

-- What a producer works from is the pool at an earlier moment, and what has been pushed since
-- then is behind it.
theorem exists_copy (n : Node) (moves : List (Move Event α)) {snapshot : List RawTx}
    (h : ((Run.ofNode α n).after moves).shared.production.snapshot? = some snapshot) :
    ∃ before between, moves = before ++ .occur .produce :: between ∧
      ((Run.ofNode α n).after before).shared.production.snapshot? = none ∧
      snapshot = ((Run.ofNode α n).after before).shared.node.chain.pool ∧
      (∀ part, before ++ [.occur .produce] <+: part → part <+: moves →
        ((Run.ofNode α n).after part).shared.production.snapshot? = some snapshot) ∧
      ((Run.ofNode α n).after moves).shared.node.chain.pool = snapshot ++ pushed between := by
  induction moves using List.reverseRecOn with
  | nil => exact absurd h nofun
  | append_singleton moves move ih =>
      have hnow := h
      rw [after_concat] at h
      obtain ⟨hpool, ⟨rfl, hnone, rfl⟩ | hkept⟩ := snapshot?_step h
      · refine ⟨moves, [], rfl, hnone, rfl, fun part hfrom hto => ?_, ?_⟩
        · rw [hto.eq_of_length_le hfrom.length_le]
          exact hnow
        · rw [after_concat]
          exact hpool
      · obtain ⟨before, between, rfl, hnone, hsnapshot, hheld, hbehind⟩ := ih hkept
        refine ⟨before, between ++ [move], by simp, hnone, hsnapshot, fun part hfrom hto => ?_, ?_⟩
        · rcases List.prefix_concat_iff.mp hto with rfl | hto
          · exact hnow
          · exact hheld part hfrom hto
        · rw [after_concat, hpool, hbehind, List.append_assoc, pushed_concat]

theorem indexed_step {r : Run α} {hash : TxHash} (h : r.shared.node.chain.Indexed hash)
    (move : Move Event α) :
    (Interleaving.step act surroundings r move).shared.node.chain.Indexed hash := by
  rcases produce_or_push r move with ⟨rfl, hshared⟩ | ⟨-, hshared⟩
  · rw [hshared]
    exact Production.indexed_step h
  · rw [hshared]
    exact h

theorem indexed_of_pruned {n : Node} {moves : List (Move Event α)} {raw : RawTx} {hash : TxHash}
    (hraw : raw ∈ pruned (Run.ofNode α n) moves) (hhash : n.decode raw = .ok hash) :
    ((Run.ofNode α n).after moves).shared.node.chain.Indexed hash := by
  induction moves using List.reverseRecOn with
  | nil => exact absurd hraw List.not_mem_nil
  | append_singleton moves move ih =>
      rw [pruned_concat] at hraw
      rw [after_concat]
      refine indexed_step ?_ move
      rcases List.mem_append.mp hraw with hraw | hraw
      · exact ih hraw
      · rcases produce_or_push ((Run.ofNode α n).after moves) move with ⟨rfl, -⟩ | ⟨hleaving, -⟩
        · obtain ⟨hdecode, hsound⟩ := sound_after n moves
          exact hsound.indexed_of_pruning hraw (hdecode ▸ hhash)
        · rw [hleaving] at hraw
          exact absurd hraw List.not_mem_nil

-- A record stays as it is unless a producer makes a new one for the same transaction.
theorem record_step (r : Run α) (move : Move Event α) (hash : TxHash) :
    (Interleaving.step act surroundings r move).shared.node.chain.height? hash =
        r.shared.node.chain.height? hash ∨
      ∃ height, r.shared.production.recording? r.shared.node.decode = some (hash, height) ∧
        (Interleaving.step act surroundings r move).shared.node.chain.height? hash =
          some height := by
  rcases produce_or_push r move with ⟨rfl, hshared⟩ | ⟨-, hshared⟩
  · have hrecord : (act .produce r.shared).node.chain.height? hash = _ :=
      Production.record_step r.shared.node.decode r.shared.node.chain r.shared.production hash
    rw [hshared, hrecord]
    cases hrecording : r.shared.production.recording? r.shared.node.decode with
    | none => exact .inl rfl
    | some entry =>
        by_cases hhash : entry.1 = hash
        · exact .inr ⟨entry.2, by rw [← hhash], if_pos hhash⟩
        · exact .inl (if_neg hhash)
  · exact .inl (by rw [hshared]; rfl)

-- A record has the height of the head at which it is made.
theorem height_of_recording {n : Node} {moves : List (Move Event α)} (hroom : HasRoom n moves)
    {decode : Decoder} {hash : TxHash} {height : UInt64}
    (h : ((Run.ofNode α n).after moves).shared.production.recording? decode =
      some (hash, height)) :
    1 ≤ height ∧ height = ((Run.ofNode α n).after moves).shared.node.chain.head := by
  obtain ⟨raised, hraised, -, hheight, hlevel⟩ :=
    exists_raise n moves (Production.height?_of_recording h)
  refine ⟨?_, (hlevel moves hraised (List.prefix_refl moves)).symm⟩
  rw [hheight, UInt64.le_iff_toNat_le,
    toNat_add_one (hroom raised ((List.prefix_append _ _).trans hraised))]
  exact Nat.le_add_left 1 _

theorem accounted_after {n : Node} (hempty : n.chain = .empty) {moves : List (Move Event α)}
    (hroom : HasRoom n moves) :
    ((Run.ofNode α n).after moves).shared.node.chain.Accounted n.decode (pushed moves)
      (pruned (Run.ofNode α n) moves) where
  pool :=
    (congrArg (· ++ pushed moves) (congrArg Chain.pool hempty)).symm.trans
      (pruned_append_pool (Run.ofNode α n) moves).symm
  indexed _ hraw _ hhash := indexed_of_pruned hraw hhash
  recorded := by
    induction moves using List.reverseRecOn with
    | nil =>
        intro hash height hheight
        have hnone : n.chain.height? hash = none := by
          rw [hempty]
          exact Std.HashMap.getElem?_empty
        exact absurd (hnone.symm.trans hheight) nofun
    | append_singleton moves move ih =>
        intro hash height hheight
        have hbefore := List.prefix_append moves [move]
        have hle := head_le_of_prefix hroom hbefore (List.prefix_refl _)
        rw [pushed_concat]
        rw [after_concat] at hheight
        -- What a producer records is in the pool still, and the pool has been pushed.
        rcases record_step ((Run.ofNode α n).after moves) move hash with
          hsame | ⟨new, hnew, hrecord⟩
        · obtain ⟨⟨raw, hraw, hhash⟩, hpos, hhead⟩ :=
            ih (hroom.of_prefix hbefore) hash height (hsame.symm.trans hheight)
          exact ⟨⟨raw, List.mem_append_left _ hraw, hhash⟩, hpos, UInt64.le_trans hhead hle⟩
        · obtain rfl := Option.some.inj (hrecord.symm.trans hheight)
          obtain ⟨hpos, hhead⟩ := height_of_recording (hroom.of_prefix hbefore) hnew
          obtain ⟨hdecode, hsound⟩ := sound_after n moves
          obtain ⟨raw, hraw, hhash⟩ := hsound.waits_of_recording hnew
          have hpool := pruned_append_pool (Run.ofNode α n) moves
          rw [show (Run.ofNode α n).shared.node.chain.pool = [] from congrArg Chain.pool hempty,
            List.nil_append] at hpool
          refine ⟨⟨raw, ?_, hdecode ▸ hhash⟩, hpos, hhead ▸ hle⟩
          rw [← hpool]
          exact List.mem_append_left _ (List.mem_append_right _ hraw)

-- Records do not disappear. One that is replaced gives way to a higher one.
theorem exists_later_record {n : Node} (hempty : n.chain = .empty)
    {early late : List (Move Event α)} (hroom : HasRoom n late) (h : early <+: late)
    {hash : TxHash} {height : UInt64}
    (hheight : ((Run.ofNode α n).after early).shared.node.chain.height? hash = some height) :
    ∃ later, height ≤ later ∧
      ((Run.ofNode α n).after late).shared.node.chain.height? hash = some later := by
  induction late using List.reverseRecOn with
  | nil =>
      obtain rfl := List.prefix_nil.mp h
      exact ⟨height, UInt64.le_refl _, hheight⟩
  | append_singleton late move ih =>
      rcases List.prefix_concat_iff.mp h with rfl | h
      · exact ⟨height, UInt64.le_refl _, hheight⟩
      · have hroom := hroom.of_prefix (List.prefix_append late [move])
        obtain ⟨later, hle, hlater⟩ := ih hroom h
        rw [after_concat]
        rcases record_step ((Run.ofNode α n).after late) move hash with
          hsame | ⟨new, hnew, hrecord⟩
        · exact ⟨later, hle, hsame.trans hlater⟩
        · refine ⟨new, UInt64.le_trans hle ?_, hrecord⟩
          rw [(height_of_recording hroom hnew).2]
          exact ((accounted_after hempty hroom).recorded hash later hlater).2.2

-- At every moment the pool is what has been pushed and not yet pruned, everything that has left it
-- and has a hash is indexed, and the index has records of pushed transactions alone, none of them
-- above the head. Records stay, and a prune takes the very copy that its own block has worked from:
-- what has been pushed since then is all that is left.
theorem pool_is_pushed_not_pruned {n : Node} (hempty : n.chain = .empty)
    {moves : List (Move Event α)} (hroom : HasRoom n moves) :
    let run := (Run.ofNode α n).after
    let chain := fun part => (run part).shared.node.chain
    (chain moves).Accounted n.decode (pushed moves) (pruned (Run.ofNode α n) moves) ∧
      (∀ early, early <+: moves → ∀ hash height, (chain early).height? hash = some height →
        ∃ later, height ≤ later ∧ (chain moves).height? hash = some later) ∧
      ∀ snapshot block, (run moves).shared.production = .indexing snapshot block [] →
        (∀ raw ∈ snapshot, ∀ hash, n.decode raw = .ok hash → (chain moves).Indexed hash) ∧
        ∃ before between, moves = before ++ .occur .produce :: between ∧
          (run before).shared.production.snapshot? = none ∧ snapshot = (chain before).pool ∧
          (∀ part, before ++ [.occur .produce] <+: part → part <+: moves →
            (run part).shared.production.snapshot? = some snapshot) ∧
          pruned (Run.ofNode α n) (moves ++ [.occur .produce]) =
            pruned (Run.ofNode α n) moves ++ snapshot ∧
          (chain (moves ++ [.occur .produce])).pool = pushed between := by
  intro run chain
  refine ⟨accounted_after hempty hroom,
    fun early hearly hash height => exists_later_record hempty hroom hearly, ?_⟩
  intro snapshot block hproduction
  obtain ⟨before, between, hmoves, hnone, hsnapshot, hheld, hbehind⟩ :=
    exists_copy n moves (congrArg Production.snapshot? hproduction)
  obtain ⟨hdecode, hsound⟩ := sound_after n moves
  have hpruning : (run moves).shared.production.pruning (chain moves) = snapshot := by
    rw [hproduction] at hsound ⊢
    exact hsound.pruning_eq
  have hpruned : pruned (Run.ofNode α n) (moves ++ [.occur .produce]) =
      pruned (Run.ofNode α n) moves ++ snapshot :=
    (pruned_concat _ _ _).trans (congrArg _ hpruning)
  have hpool : snapshot ++ (chain (moves ++ [.occur .produce])).pool = (chain moves).pool := by
    have hleaving := leaving_append_pool_step (run moves) (.occur .produce)
    rw [← after_concat, show leaving (run moves).shared (.occur .produce) = snapshot from hpruning]
      at hleaving
    exact hleaving.trans (List.append_nil _)
  refine ⟨fun raw hraw hash hhash => ?_, before, between, hmoves, hnone, hsnapshot, hheld, hpruned,
    List.append_cancel_left (hpool.trans hbehind)⟩
  exact hsound.indexed_of_pruning (hpruning.symm ▸ hraw) (hdecode ▸ hhash)

end

-- A second transaction comes while the first is in a block, and the prune leaves it where it is.
theorem pool_is_pushed_while_block_lands :
    let n : Node := ⟨"", ⟨"", 0⟩, .identity, true, 1, none, .empty, .zero⟩
    let run := (Run.ofNode Unit n).after
    let first : RawTx := (Identifier.zero : TxHash).bytes
    let moves : List (Move Event Unit) :=
      [.occur (.push first), .occur .produce, .occur (.push [1]), .occur .produce, .occur .produce]
    HasRoom n moves ∧ (run moves).shared.production = .indexing [first] ⟨1, [.zero], 0⟩ [] ∧
      pruned (Run.ofNode Unit n) (moves ++ [.occur .produce]) = [first] ∧
      ∃ before between, moves = before ++ .occur .produce :: between ∧
        [first] = (run before).shared.node.chain.pool ∧
        (run (moves ++ [.occur .produce])).shared.node.chain.pool = pushed between := by
  intro n run first moves
  have hroom : HasRoom n moves := hasRoom_of_length (by decide)
  have hproduction : (run moves).shared.production = .indexing [first] ⟨1, [.zero], 0⟩ [] := rfl
  have hearlier : pruned (Run.ofNode Unit n) moves = [] := rfl
  obtain ⟨-, -, hprune⟩ := pool_is_pushed_not_pruned rfl hroom
  obtain ⟨-, before, between, hmoves, -, hsnapshot, -, hpruned, hpool⟩ :=
    hprune [first] ⟨1, [.zero], 0⟩ hproduction
  exact ⟨hroom, hproduction, hpruned.trans (congrArg (· ++ [first]) hearlier), before, between,
    hmoves, hsnapshot, hpool⟩

end LiveNode

end SoftConfirm
