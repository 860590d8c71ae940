import SoftConfirm.Crypto.Ecdsa
import SoftConfirm.Node.Live
import SoftConfirm.Proofs.Production
import SoftConfirm.Proofs.Rely

namespace SoftConfirm

-- Where a request that looks at `limit` waiting transactions can find a transaction.
def Chain.Indexed (c : Chain) (hash : TxHash) : Prop := (c.height? hash).isSome

def Chain.Listed (c : Chain) (decode : Decoder) (limit : UInt64) (hash : TxHash) : Prop :=
  ∃ raw ∈ c.pending limit, decode raw = .ok hash

namespace Chain

variable {c : Chain} {decode : Decoder} {limit : UInt64} {hash : TxHash}

-- A resolver trusts no listing and cuts it again, which changes nothing in an honest one.
theorem listed_iff :
    c.Listed decode limit hash ↔
      ((c.pending limit).take limit.toNat).any (Issuance.names decode hash) := by
  simp only [Listed, pending, List.take_take, Nat.min_self, List.any_eq_true, Issuance.names]
  refine exists_congr fun raw => and_congr_right fun _ => ?_
  cases decode raw with
  | ok found => simp
  | error e => simp

theorem Indexed.record (h : c.Indexed hash) (other : TxHash) (height : UInt64) :
    (c.record other height).Indexed hash := by
  unfold Indexed
  rw [height?_record]
  split
  · rfl
  · exact h

theorem indexed_record_self (c : Chain) (hash : TxHash) (height : UInt64) :
    (c.record hash height).Indexed hash := by
  simp [Indexed, height?_record]

theorem Listed.push (h : c.Listed decode limit hash) (raws : List RawTx) :
    (c.push raws).Listed decode limit hash := by
  obtain ⟨raw, hraw, hd⟩ := h
  refine ⟨raw, ?_, hd⟩
  simp only [pending, pool_push, List.take_append]
  exact List.mem_append_left _ hraw

-- What comes to a pool that is shorter than a listing is listed.
theorem listed_push_self {raw : RawTx} (hraw : decode raw = .ok hash)
    (hshort : c.pool.length < limit.toNat) : (c.push [raw]).Listed decode limit hash := by
  refine ⟨raw, List.mem_take_iff_getElem.mpr ⟨c.pool.length, ?_, ?_⟩, hraw⟩
  · simp only [pool_push, List.length_append, List.length_singleton]
    omega
  · simp

theorem Listed.waits (h : c.Listed decode limit hash) : c.Waits decode hash := by
  obtain ⟨raw, hraw, hhash⟩ := h
  exact ⟨raw, List.mem_of_mem_take hraw, hhash⟩

-- What leaves the pool from its front was at the front of the listing as well, and the rest moves
-- up.
theorem Listed.prune (h : c.Listed decode limit hash) (count : Nat) :
    (∃ raw ∈ c.pool.take count, decode raw = .ok hash) ∨
      (c.prune count).Listed decode limit hash := by
  obtain ⟨raw, hraw, hd⟩ := h
  obtain ⟨i, hi, rfl⟩ := List.mem_iff_getElem.mp hraw
  simp only [pending, List.length_take, Nat.lt_min] at hi
  simp only [pending, List.getElem_take] at hd
  by_cases hcount : i < count
  · exact .inl ⟨_, List.mem_take_iff_getElem.mpr ⟨i, by omega, rfl⟩, hd⟩
  · refine .inr ⟨c.pool[i], ?_, hd⟩
    refine List.mem_take_iff_getElem.mpr ⟨i - count, ?_, ?_⟩
    · simp only [pool_prune, List.length_drop]
      omega
    · simp only [pool_prune, List.getElem_drop]
      congr 1
      omega

end Chain

-- What holds at every moment of a block: the snapshot stays at the front of the pool, and all of it
-- that has been passed over and has a hash is indexed.
def Production.Sound (decode : Decoder) (c : Chain) : Production → Prop
  | .waiting _ => True
  | .copied snapshot => snapshot <+: c.pool
  | .indexing snapshot _ rest =>
      snapshot <+: c.pool ∧ ∃ passed, snapshot = passed ++ rest ∧
        ∀ raw ∈ passed, ∀ hash, decode raw = .ok hash → c.Indexed hash

namespace Production

variable {decode : Decoder} {c : Chain} {p : Production}

theorem Sound.push (h : p.Sound decode c) (raws : List RawTx) : p.Sound decode (c.push raws) := by
  have hpool : c.pool <+: (c.push raws).pool := List.prefix_append c.pool raws
  cases p with
  | waiting last => trivial
  | copied snapshot => exact List.IsPrefix.trans h hpool
  | indexing snapshot block rest => exact ⟨h.1.trans hpool, h.2⟩

theorem Sound.step (h : p.Sound decode c) :
    (p.step decode c).1.Sound decode (p.step decode c).2 := by
  cases p with
  | waiting last => exact List.prefix_refl c.pool
  | copied snapshot => exact ⟨h, [], rfl, by simp⟩
  | indexing snapshot block rest =>
      obtain ⟨hpre, passed, hsplit, hpassed⟩ := h
      cases rest with
      | nil => trivial
      | cons raw rest =>
          have hsplit' : snapshot = (passed ++ [raw]) ++ rest := by simp [hsplit]
          simp only [Production.step]
          split
          · rename_i hash hraw
            refine ⟨hpre, passed ++ [raw], hsplit', fun other hother found hfound => ?_⟩
            rcases List.mem_append.mp hother with hm | hm
            · exact (hpassed other hm found hfound).record hash block.height
            · obtain rfl := List.mem_singleton.mp hm
              obtain rfl := Except.ok.inj (hraw.symm.trans hfound)
              exact Chain.indexed_record_self c hash block.height
          · rename_i e hraw
            refine ⟨hpre, passed ++ [raw], hsplit', fun other hother found hfound => ?_⟩
            rcases List.mem_append.mp hother with hm | hm
            · exact hpassed other hm found hfound
            · obtain rfl := List.mem_singleton.mp hm
              exact absurd (hraw.symm.trans hfound) (by simp)

theorem indexed_step {hash : TxHash} (h : c.Indexed hash) : (p.step decode c).2.Indexed hash := by
  cases p with
  | waiting last => exact h
  | copied snapshot => exact h
  | indexing snapshot block rest =>
      cases rest with
      | nil => exact h
      | cons raw rest =>
          simp only [Production.step]
          split
          · exact h.record _ _
          · exact h

-- A step that takes a transaction out of the pool finds it recorded.
theorem Sound.listed_step {limit : UInt64} {hash : TxHash} (h : p.Sound decode c)
    (hl : c.Listed decode limit hash) :
    (p.step decode c).2.Indexed hash ∨ (p.step decode c).2.Listed decode limit hash := by
  cases p with
  | waiting last => exact .inr hl
  | copied snapshot => exact .inr hl
  | indexing snapshot block rest =>
      obtain ⟨hpre, passed, hsplit, hpassed⟩ := h
      cases rest with
      | nil =>
          rcases hl.prune snapshot.length with ⟨raw, hraw, hd⟩ | hl
          · rw [← List.prefix_iff_eq_take.mp hpre, hsplit, List.append_nil] at hraw
            exact .inl (hpassed raw hraw hash hd)
          · exact .inr hl
      | cons raw rest =>
          simp only [Production.step]
          split
          · exact .inr hl
          · exact .inr hl

end Production

namespace LiveNode

-- What a request for one transaction counts on while a node goes about its blocks: nothing that is
-- indexed is forgotten, and nothing that is listed vanishes.
structure Keeps (limit : UInt64) (hash : TxHash) (s t : LiveNode) : Prop where
  decode : t.node.decode = s.node.decode
  sound : s.production.Sound s.node.decode s.node.chain →
    t.production.Sound t.node.decode t.node.chain
  indexed : s.node.chain.Indexed hash → t.node.chain.Indexed hash
  listed : s.production.Sound s.node.decode s.node.chain →
    s.node.chain.Listed s.node.decode limit hash →
    t.node.chain.Indexed hash ∨ t.node.chain.Listed t.node.decode limit hash

namespace Keeps

variable {limit : UInt64} {hash : TxHash} {s t u : LiveNode}

theorem refl (limit : UInt64) (hash : TxHash) (s : LiveNode) : Keeps limit hash s s :=
  ⟨rfl, id, id, fun _ => .inr⟩

theorem trans (hst : Keeps limit hash s t) (htu : Keeps limit hash t u) : Keeps limit hash s u where
  decode := htu.decode.trans hst.decode
  sound hs := htu.sound (hst.sound hs)
  indexed hi := htu.indexed (hst.indexed hi)
  listed hs hl := (hst.listed hs hl).elim (.inl ∘ htu.indexed) (htu.listed (hst.sound hs))

theorem act (limit : UInt64) (hash : TxHash) (event : Event) (s : LiveNode) :
    Keeps limit hash s (act event s) := by
  cases event with
  | push raw =>
      exact ⟨rfl, fun hs => hs.push [raw], id, fun _ hl => .inr (hl.push [raw])⟩
  | produce =>
      exact ⟨rfl, fun hs => hs.step, Production.indexed_step, fun hs hl => hs.listed_step hl⟩

end Keeps

section

variable [SignatureScheme]

def rely (limit : UInt64) (hash : TxHash) : Rely act surroundings where
  keeps := Keeps limit hash
  refl := Keeps.refl limit hash
  trans := Keeps.trans
  of_act := Keeps.act limit hash
  of_answer _ := Keeps.refl limit hash

-- A query takes two turns, the first to see that nothing interrupts it.
theorem attains_query {ρ : Rely act surroundings} {α : Type}
    {post : Except IssueError α → Prop} {turns : Nat} {q : Query} {next : q.Value → Attempt α}
    {s : LiveNode}
    (h : ∀ t, ρ.keeps s t → (next (t.node.look q)).run.Attains ρ post turns t) :
    (Issuance.query q >>= next).run.Attains ρ post (turns + 2) s :=
  fun _ hst u htu => h u (ρ.trans hst htu)

-- What a resolver says of a transaction that it has found.
def Found (outcome : Except IssueError Resolution) : Prop :=
  ∃ height, outcome = .ok ⟨.included, height⟩ ∨ outcome = .ok ⟨.pending, height⟩

-- From a moment at which a transaction is visible it is seen three times at most, and the second
-- look can only miss it if it has been indexed since the first.
theorem attains_resolve {limit : UInt64} {hash : TxHash} {s : LiveNode}
    (hs : s.production.Sound s.node.decode s.node.chain)
    (hv : s.node.chain.Indexed hash ∨ s.node.chain.Listed s.node.decode limit hash) :
    (Issuance.resolve s.node.decode limit hash).run.Attains (rely limit hash)
      Found 6 s := by
  apply attains_query
  intro t (hst : Keeps limit hash s t)
  cases hfirst : t.node.chain.height? hash with
  | some height =>
      simp only [Node.look, hfirst]
      exact Program.attains_done.mpr ⟨_, .inl rfl⟩
  | none =>
      simp only [Node.look, hfirst]
      have hlisted : t.node.chain.Listed t.node.decode limit hash := by
        rcases hv with hi | hl
        · exact absurd (hst.indexed hi) (by simp [Chain.Indexed, hfirst])
        · exact (hst.listed hs hl).resolve_left (by simp [Chain.Indexed, hfirst])
      apply attains_query
      intro u (htu : Keeps limit hash t u)
      split
      · apply attains_query
        intro _ _
        exact Program.attains_done.mpr ⟨_, .inr rfl⟩
      · rename_i hmiss
        have hindexed : u.node.chain.Indexed hash := by
          refine (htu.listed (hst.sound hs) hlisted).resolve_right fun hl => hmiss ?_
          rw [htu.decode, hst.decode] at hl
          exact Chain.listed_iff.mp hl
        apply attains_query
        intro v (huv : Keeps limit hash u v)
        obtain ⟨height, hheight⟩ := Option.isSome_iff_exists.mp (huv.indexed hindexed)
        simp only [Node.look, hheight]
        exact Program.attains_done.mpr ⟨_, .inl rfl⟩

-- No block is ever left in a state that would lose a transaction.
theorem sound_after {α : Type} (n : Node) (moves : List (Move Event α)) :
    let live := ((Run.ofNode α n).after moves).shared
    live.node.decode = n.decode ∧ live.production.Sound live.node.decode live.node.chain := by
  have hk : Keeps 0 .zero (Run.ofNode α n).shared ((Run.ofNode α n).after moves).shared :=
    Interleaving.keeps_run (rely 0 .zero) moves (Run.ofNode α n)
  exact ⟨hk.decode, hk.sound trivial⟩

-- A transaction that is indexed or listed when a resolver starts is found, whatever the producer,
-- those who submit, and any other programs do from then on. Six turns are enough.
theorem found_of_visible (n : Node)
    (before after : List (Move Event (Except IssueError Resolution)))
    (limit : UInt64) (hash : TxHash)
    (hv : ((Run.ofNode _ n).after before).shared.node.chain.Indexed hash ∨
      ((Run.ofNode _ n).after before).shared.node.chain.Listed n.decode limit hash) :
    let now := (Run.ofNode _ n).after before
    let later := now.after (.start (Issuance.resolve n.decode limit hash).run :: after)
    let place := now.programs.length
    (∀ outcome, later.value? place = some outcome → Found outcome) ∧
      (6 ≤ after.countP (Move.proceeds place) → ∃ outcome, later.value? place = some outcome) := by
  intro now later place
  obtain ⟨hdecode, hsound⟩ := sound_after n before
  have hattains : (Issuance.resolve n.decode limit hash).run.Attains (rely limit hash) Found 6
      now.shared := by
    rw [← hdecode] at hv ⊢
    exact attains_resolve hsound hv
  exact Interleaving.value?_run after
    (Interleaving.step act surroundings now (.start (Issuance.resolve n.decode limit hash).run))
    (by simp [Interleaving.step, place]) hattains

end

-- A block lands between the first look and the second: the first finds no record, and the second
-- finds an empty pool.
theorem found_while_block_lands :
    let n : Node :=
      ⟨"", ⟨"", 0⟩, .identity, true, 1, none, ⟨∅, 0, [(Identifier.zero : TxHash).bytes]⟩, .zero⟩
    let moves : List (Move Event (Except IssueError Resolution)) :=
      [.proceed 0, .proceed 0, .occur .produce, .occur .produce,
        .proceed 0, .proceed 0, .proceed 0, .proceed 0]
    let now := (Run.ofNode _ n).after [.occur .produce, .occur .produce]
    let later := now.after (.start (Issuance.resolve n.decode 1 .zero).run :: moves)
    (now.shared.node.chain.Indexed .zero ∨ now.shared.node.chain.Listed n.decode 1 .zero) ∧
      ∃ outcome, later.value? 0 = some outcome ∧ Found outcome := by
  intro n moves now later
  have hv : now.shared.node.chain.Indexed .zero ∨ now.shared.node.chain.Listed n.decode 1 .zero :=
    .inr ⟨_, List.mem_singleton_self _, rfl⟩
  obtain ⟨hfound, hended⟩ := found_of_visible n [.occur .produce, .occur .produce] moves 1 .zero hv
  obtain ⟨outcome, houtcome⟩ := hended (by decide)
  exact ⟨hv, outcome, houtcome, hfound outcome houtcome⟩

end LiveNode

end SoftConfirm
