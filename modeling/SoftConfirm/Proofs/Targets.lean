import Mathlib.Data.List.Induction
import SoftConfirm.Crypto.Ecdsa
import SoftConfirm.Node.Live
import SoftConfirm.Proofs.Production
import SoftConfirm.Proofs.Turns
import SoftConfirm.Proofs.Visibility

namespace SoftConfirm

namespace Production

variable {decode : Decoder} {c : Chain} {p : Production}

-- What a producer's next step writes into the index, if it writes at all.
def recording? (decode : Decoder) : Production → Option (TxHash × UInt64)
  | indexing _ block (raw :: _) => (decode raw).toOption.map fun hash => (hash, block.height)
  | _ => none

-- Whether a producer's next step raises the head.
def raises : Production → Bool
  | copied _ => true
  | _ => false

-- The height of the block whose transactions a producer records.
def height? : Production → Option UInt64
  | indexing _ block _ => some block.height
  | _ => none

theorem index_step (decode : Decoder) (c : Chain) (p : Production) :
    (p.step decode c).2.index =
      (p.recording? decode).elim c.index fun entry => c.index.insert entry.1 entry.2 := by
  cases p with
  | waiting last => rfl
  | copied snapshot => rfl
  | indexing snapshot block rest =>
      cases rest with
      | nil => rfl
      | cons raw rest =>
          simp only [step, recording?]
          cases decode raw with
          | ok hash => rfl
          | error e => rfl

theorem head_step (decode : Decoder) (c : Chain) (p : Production) :
    (p.step decode c).2.head = if p.raises then c.head + 1 else c.head := by
  cases p with
  | waiting last => rfl
  | copied snapshot => rfl
  | indexing snapshot block rest =>
      cases rest with
      | nil => rfl
      | cons raw rest =>
          simp only [step, raises]
          cases decode raw with
          | ok hash => rfl
          | error e => rfl

theorem height?_of_recording {hash : TxHash} {height : UInt64}
    (h : p.recording? decode = some (hash, height)) : p.height? = some height := by
  cases p with
  | waiting last => exact absurd h nofun
  | copied snapshot => exact absurd h nofun
  | indexing snapshot block rest =>
      cases rest with
      | nil => exact absurd h nofun
      | cons raw rest =>
          obtain ⟨found, -, hfound⟩ := Option.map_eq_some_iff.mp h
          exact congrArg some (Prod.ext_iff.mp hfound).2

-- A block has the height to which its own step has raised the head, and keeps it.
theorem height?_step {height : UInt64} (h : (p.step decode c).1.height? = some height) :
    (p.raises ∧ height = c.head + 1) ∨ (p.raises = false ∧ p.height? = some height) := by
  cases p with
  | waiting last => exact absurd h nofun
  | copied snapshot => exact .inl ⟨rfl, (Option.some.inj h).symm⟩
  | indexing snapshot block rest =>
      cases rest with
      | nil => exact absurd h nofun
      | cons raw rest =>
          refine .inr ⟨rfl, ?_⟩
          simp only [step] at h
          cases hraw : decode raw with
          | ok hash =>
              rw [hraw] at h
              exact h
          | error e =>
              rw [hraw] at h
              exact h

end Production

namespace LiveNode

variable {α : Type}

theorem head_act (event : Event) (s : LiveNode) :
    (act event s).node.chain.head = s.node.chain.head ∨
      (act event s).node.chain.head = s.node.chain.head + 1 := by
  cases event with
  | push raw => exact .inl rfl
  | produce =>
      have hhead : (act .produce s).node.chain.head = _ :=
        Production.head_step s.node.decode s.node.chain s.production
      rw [hhead]
      split
      · exact .inr rfl
      · exact .inl rfl

-- What a producer is about to write is in the index after its step.
theorem height?_act_produce {s : LiveNode} {hash : TxHash} {height : UInt64}
    (h : s.production.recording? s.node.decode = some (hash, height)) :
    (act .produce s).node.chain.height? hash = some height := by
  have hindex : (act .produce s).node.chain.index = _ :=
    Production.index_step s.node.decode s.node.chain s.production
  rw [Chain.height?, hindex, h]
  exact Std.HashMap.getElem?_insert_self

theorem height?_act {event : Event} {s : LiveNode} {height : UInt64}
    (h : (act event s).production.height? = some height) :
    (event = .produce ∧ s.production.raises ∧ height = s.node.chain.head + 1 ∧
        (act event s).node.chain.head = height) ∨
      (s.production.height? = some height ∧
        (act event s).node.chain.head = s.node.chain.head) := by
  cases event with
  | push raw => exact .inr ⟨h, rfl⟩
  | produce =>
      have hhead : (act .produce s).node.chain.head = _ :=
        Production.head_step s.node.decode s.node.chain s.production
      rcases Production.height?_step h with ⟨hraises, hheight⟩ | ⟨hraises, hheight⟩
      · rw [if_pos hraises] at hhead
        exact .inl ⟨rfl, hraises, hheight, hhead.trans hheight.symm⟩
      · rw [hraises, if_neg Bool.false_ne_true] at hhead
        exact .inr ⟨hheight, hhead⟩

section

variable [SignatureScheme]

-- Programs only look, so what happens to a node are the events alone.
theorem shared_step (r : Run α) (move : Move Event α) :
    (Interleaving.step act surroundings r move).shared =
      match move with
      | .occur event => act event r.shared
      | _ => r.shared := by
  cases move with
  | occur event => rfl
  | start program => rfl
  | proceed place =>
      simp only [Interleaving.step]
      split
      · rfl
      · rfl

theorem after_append (r : Run α) (moves others : List (Move Event α)) :
    r.after (moves ++ others) = (r.after moves).after others :=
  Interleaving.run_append r moves others

theorem after_concat (r : Run α) (moves : List (Move Event α)) (move : Move Event α) :
    r.after (moves ++ [move]) = Interleaving.step act surroundings (r.after moves) move :=
  Interleaving.run_append r moves [move]

theorem head_step (r : Run α) (move : Move Event α) :
    (Interleaving.step act surroundings r move).shared.node.chain.head =
        r.shared.node.chain.head ∨
      (Interleaving.step act surroundings r move).shared.node.chain.head =
        r.shared.node.chain.head + 1 := by
  rw [shared_step]
  cases move with
  | occur event => exact head_act event r.shared
  | start program => exact .inl rfl
  | proceed place => exact .inl rfl

theorem height?_step {r : Run α} {move : Move Event α} {height : UInt64}
    (h : (Interleaving.step act surroundings r move).shared.production.height? = some height) :
    (move = .occur .produce ∧ r.shared.production.raises ∧
        height = r.shared.node.chain.head + 1 ∧
        (Interleaving.step act surroundings r move).shared.node.chain.head = height) ∨
      (r.shared.production.height? = some height ∧
        (Interleaving.step act surroundings r move).shared.node.chain.head =
          r.shared.node.chain.head) := by
  rw [shared_step] at h ⊢
  cases move with
  | occur event =>
      rcases height?_act h with ⟨rfl, hraise⟩ | hkept
      · exact .inl ⟨rfl, hraise⟩
      · exact .inr hkept
  | start program => exact .inr ⟨h, rfl⟩
  | proceed place => exact .inr ⟨h, rfl⟩

-- While a block's transactions are recorded the head is the height of the block, from the very
-- step on that has raised it.
theorem exists_raise (n : Node) (moves : List (Move Event α)) {height : UInt64}
    (h : ((Run.ofNode α n).after moves).shared.production.height? = some height) :
    ∃ raised, raised ++ [.occur .produce] <+: moves ∧
      ((Run.ofNode α n).after raised).shared.production.raises ∧
      height = ((Run.ofNode α n).after raised).shared.node.chain.head + 1 ∧
      ∀ part, raised ++ [.occur .produce] <+: part → part <+: moves →
        ((Run.ofNode α n).after part).shared.node.chain.head = height := by
  induction moves using List.reverseRecOn with
  | nil => exact absurd h nofun
  | append_singleton moves move ih =>
      rw [after_concat] at h
      rcases height?_step h with ⟨rfl, hraises, hheight, hhead⟩ | ⟨hkept, hhead⟩
      · refine ⟨moves, List.prefix_refl _, hraises, hheight, fun part hfrom hto => ?_⟩
        rw [hto.eq_of_length_le hfrom.length_le, after_concat]
        exact hhead
      · obtain ⟨raised, hraised, hraises, hheight, hlevel⟩ := ih hkept
        refine ⟨raised, hraised.trans (List.prefix_append moves [move]), hraises, hheight,
          fun part hfrom hto => ?_⟩
        rcases List.prefix_concat_iff.mp hto with rfl | hto
        · rw [after_concat]
          exact hhead.trans (hlevel moves hraised (List.prefix_refl moves))
        · exact hlevel part hfrom hto

-- At no moment of a run has the head come to its greatest value.
def HasRoom (n : Node) (moves : List (Move Event α)) : Prop :=
  ∀ part, part <+: moves →
    ((Run.ofNode α n).after part).shared.node.chain.head.toNat + 1 < UInt64.size

theorem HasRoom.of_prefix {n : Node} {moves part : List (Move Event α)} (h : HasRoom n moves)
    (hpart : part <+: moves) : HasRoom n part :=
  fun first hfirst => h first (hfirst.trans hpart)

theorem head_le_of_prefix {n : Node} {moves early late : List (Move Event α)}
    (hroom : HasRoom n moves) (h : early <+: late) (hlate : late <+: moves) :
    ((Run.ofNode α n).after early).shared.node.chain.head ≤
      ((Run.ofNode α n).after late).shared.node.chain.head := by
  induction late using List.reverseRecOn with
  | nil =>
      obtain rfl := List.prefix_nil.mp h
      exact UInt64.le_refl _
  | append_singleton late move ih =>
      rcases List.prefix_concat_iff.mp h with rfl | h
      · exact UInt64.le_refl _
      · have hbefore := (List.prefix_append late [move]).trans hlate
        refine UInt64.le_trans (ih h hbefore) ?_
        have hsmall := hroom late hbefore
        rw [after_concat]
        rcases head_step ((Run.ofNode α n).after late) move with hsame | hmore
        · rw [hsame]
          exact UInt64.le_refl _
        · rw [hmore, UInt64.le_iff_toNat_le, toNat_add_one hsmall]
          exact Nat.le_succ _

theorem head_le_length (n : Node) (moves : List (Move Event α)) :
    ((Run.ofNode α n).after moves).shared.node.chain.head.toNat ≤
      n.chain.head.toNat + moves.length := by
  induction moves using List.reverseRecOn with
  | nil => exact Nat.le_refl _
  | append_singleton moves move ih =>
      rw [after_concat, List.length_append, List.length_singleton]
      rcases head_step ((Run.ofNode α n).after moves) move with hsame | hmore
      · rw [hsame]
        omega
      · rw [hmore, UInt64.toNat_add]
        refine Nat.le_trans (Nat.mod_le _ _) ?_
        rw [show UInt64.toNat 1 = 1 from rfl]
        omega

theorem hasRoom_of_length {n : Node} {moves : List (Move Event α)}
    (h : n.chain.head.toNat + moves.length + 1 < UInt64.size) : HasRoom n moves := by
  intro part hpart
  have hhead := head_le_length n part
  have hlength := hpart.length_le
  omega

-- When one move reads the head and a block raises it at another, the block is higher than what was
-- read exactly if the read came first. A block under way at the read is as high as that.
theorem head_lt_iff {n : Node} {moves read raised recorded : List (Move Event α)} {place : Nat}
    {height : UInt64}
    (hroom : HasRoom n moves) (hread : read ++ [.proceed place] <+: moves)
    (hrecorded : recorded <+: moves)
    (hraised : raised ++ [.occur .produce] <+: recorded)
    (hheight : height = ((Run.ofNode α n).after raised).shared.node.chain.head + 1)
    (hlevel : ∀ part, raised ++ [.occur .produce] <+: part → part <+: recorded →
      ((Run.ofNode α n).after part).shared.node.chain.head = height) :
    (((Run.ofNode α n).after read).shared.node.chain.head < height ↔
        read ++ [.proceed place] <+: raised) ∧
      (read <+: recorded → ((Run.ofNode α n).after read).shared.node.chain.head ≤ height) := by
  have hread' := (List.prefix_append read [.proceed place]).trans hread
  have hraised' := (List.prefix_append raised [.occur .produce]).trans (hraised.trans hrecorded)
  constructor
  · constructor
    · intro hlt
      rcases List.prefix_or_prefix_of_prefix hread (hraised.trans hrecorded) with h | h
      · exact (List.prefix_concat_iff.mp h).resolve_left (by simp)
      · have hfrom := (List.prefix_concat_iff.mp h).resolve_left (by simp)
        refine absurd hlt (UInt64.not_lt.mpr ?_)
        rcases List.prefix_or_prefix_of_prefix hread' hrecorded with hto | hto
        · exact UInt64.le_of_eq (hlevel read hfrom hto).symm
        · rw [← hlevel recorded hraised (List.prefix_refl recorded)]
          exact head_le_of_prefix hroom hto hread'
    · intro h
      have hle := head_le_of_prefix hroom ((List.prefix_append _ _).trans h) hraised'
      rw [hheight, UInt64.lt_iff_toNat_lt, toNat_add_one (hroom raised hraised')]
      exact Nat.lt_succ_of_le (UInt64.le_iff_toNat_le.mp hle)
  · intro hto
    rw [← hlevel recorded hraised (List.prefix_refl recorded)]
    exact head_le_of_prefix hroom hto hrecorded

-- A query takes two turns, and the second one answers it.
theorem value?_query_iff {β : Type} {q : Query} {next : q.Value → Attempt β}
    {states : List LiveNode} {outcome : Except IssueError β} :
    ((Issuance.query q >>= next).run.turns surroundings states).value? = some outcome ↔
      ∃ checked asked rest, states = checked :: asked :: rest ∧
        ((next (asked.node.look q)).run.turns surroundings rest).value? = some outcome := by
  constructor
  · intro h
    match states with
    | [] => exact absurd h nofun
    | [checked] => exact absurd h nofun
    | checked :: asked :: rest => exact ⟨checked, asked, rest, rfl, h⟩
  · rintro ⟨checked, asked, rest, rfl, h⟩
    exact h

theorem value?_pure_iff {β : Type} {value : β} {states : List LiveNode}
    {outcome : Except IssueError β} :
    ((pure value : Attempt β).run.turns surroundings states).value? = some outcome ↔
      .ok value = outcome := by
  rw [show (pure value : Attempt β).run = .done (.ok value) from rfl, Program.turns_done]
  exact Option.some_inj

theorem value?_throw_iff {β : Type} {error : IssueError} {states : List LiveNode}
    {outcome : Except IssueError β} :
    ((throw error : Attempt β).run.turns surroundings states).value? = some outcome ↔
      .error error = outcome := by
  rw [show (throw error : Attempt β).run = .done (.error error) from rfl, Program.turns_done]
  exact Option.some_inj

-- A resolver that calls a transaction waiting has missed it in the index, has seen it in the pool,
-- and then has read the head.
theorem value?_resolve_pending_iff {decode : Decoder} {limit : UInt64} {hash : TxHash}
    {states : List LiveNode} {target : UInt64} :
    ((Issuance.resolve decode limit hash).run.turns surroundings states).value? =
        some (.ok ⟨.pending, target⟩) ↔
      ∃ a b c d e read rest, states = [a, b, c, d, e] ++ read :: rest ∧
        b.node.chain.height? hash = none ∧
        (((d.node.chain.pending limit).take limit.toNat).any (Issuance.names decode hash)) ∧
        target = Issuance.nextHeight read.node.chain.head := by
  constructor
  · intro h
    obtain ⟨a, b, states, rfl, hfirst⟩ := value?_query_iff.mp h
    cases hb : b.node.chain.height? hash with
    | some height =>
        simp only [Node.look, hb] at hfirst
        exact absurd (value?_pure_iff.mp hfirst) (by simp)
    | none =>
        simp only [Node.look, hb] at hfirst
        obtain ⟨c, d, states, rfl, hscan⟩ := value?_query_iff.mp hfirst
        split at hscan
        · rename_i hlisted
          obtain ⟨e, read, rest, rfl, hread⟩ := value?_query_iff.mp hscan
          have hfound := Except.ok.inj (value?_pure_iff.mp hread)
          exact ⟨a, b, c, d, e, read, rest, rfl, hb, hlisted, (Resolution.mk.inj hfound).2.symm⟩
        · obtain ⟨e, f, rest, rfl, hagain⟩ := value?_query_iff.mp hscan
          cases hf : f.node.chain.height? hash with
          | some height =>
              simp only [Node.look, hf] at hagain
              exact absurd (value?_pure_iff.mp hagain) (by simp)
          | none =>
              simp only [Node.look, hf] at hagain
              exact absurd (value?_throw_iff.mp hagain) (by simp)
  · rintro ⟨a, b, c, d, e, read, rest, rfl, hb, hlisted, rfl⟩
    refine value?_query_iff.mpr ⟨a, b, _, rfl, ?_⟩
    simp only [Node.look, hb]
    refine value?_query_iff.mpr ⟨c, d, _, rfl, ?_⟩
    simp only [Node.look, hlisted]
    refine value?_query_iff.mpr ⟨e, read, _, rfl, ?_⟩
    exact value?_pure_iff.mpr rfl

theorem views_replicate (place count : Nat) (r : Run α) :
    Interleaving.views act surroundings place r (List.replicate count (.proceed place)) =
      List.replicate count r.shared := by
  induction count generalizing r with
  | zero => rfl
  | succ count ih =>
      rw [List.replicate_succ, Interleaving.views, ih, shared_step, List.replicate_succ]
      simp [Move.proceeds]

-- A resolver that nothing comes between aims at the next block.
theorem value?_undisturbed {r : Run (Except IssueError Resolution)} (decode : Decoder)
    (limit : UInt64) (hash : TxHash) (hindex : r.shared.node.chain.height? hash = none)
    (hpool : r.shared.node.chain.Listed decode limit hash)
    (others : List (Move Event (Except IssueError Resolution))) :
    let place := r.programs.length
    let moves := List.replicate 6 (.proceed place) ++ others
    (r.after (.start (Issuance.resolve decode limit hash).run :: moves)).value? place =
      some (.ok ⟨.pending, Issuance.nextHeight r.shared.node.chain.head⟩) := by
  intro place moves
  refine (Interleaving.value?_run_start r (Issuance.resolve decode limit hash).run moves).trans ?_
  rw [Interleaving.views_append, views_replicate]
  exact value?_resolve_pending_iff.mpr
    ⟨_, _, _, _, _, _, _, rfl, hindex, Chain.listed_iff.mp hpool, rfl⟩

-- The aim of a resolver comes from its sixth turn.
theorem exists_head_read {r : Run (Except IssueError Resolution)} {decode : Decoder}
    {limit : UInt64} {hash : TxHash} {target : UInt64}
    {moves : List (Move Event (Except IssueError Resolution))}
    (h : (r.after (.start (Issuance.resolve decode limit hash).run :: moves)).value?
      r.programs.length = some (.ok ⟨.pending, target⟩)) :
    ∃ waiting rest, moves = waiting ++ .proceed r.programs.length :: rest ∧
      waiting.countP (Move.proceeds r.programs.length) = 5 ∧
      target = Issuance.nextHeight (r.after
        (.start (Issuance.resolve decode limit hash).run :: waiting)).shared.node.chain.head := by
  have hturns := (Interleaving.value?_run_start r _ moves).symm.trans h
  obtain ⟨a, b, c, d, e, read, others, hviews, -, -, rfl⟩ := value?_resolve_pending_iff.mp hturns
  obtain ⟨waiting, rest, hmoves, hread, hturned⟩ := Interleaving.exists_moves_of_views hviews
  refine ⟨waiting, rest, hmoves, ?_, ?_⟩
  · rw [← Interleaving.length_views act surroundings, hturned]
    rfl
  · rw [← hread]
    rfl

-- A resolver that finds a transaction waiting aims at the block above the head that it reads last.
-- A record of the transaction is at that height or above exactly if the head was raised for its
-- block after that read, whatever the producer, those who submit, and other programs do. The
-- record of a block that is under way at the read misses the aim by one.
theorem pending_target_le_iff (n : Node)
    (before after : List (Move Event (Except IssueError Resolution))) (limit : UInt64)
    (hash : TxHash) (target : UInt64) :
    let run := (Run.ofNode (Except IssueError Resolution) n).after
    let request := (Issuance.resolve n.decode limit hash).run
    let place := (run before).programs.length
    let moves := before ++ .start request :: after
    HasRoom n moves → (run moves).value? place = some (.ok ⟨.pending, target⟩) →
    ∃ waiting, waiting ++ [.proceed place] <+: after ∧
      waiting.countP (Move.proceeds place) = 5 ∧
      let read := before ++ .start request :: waiting
      target = (run read).shared.node.chain.head + 1 ∧
      ∀ recorded height, recorded ++ [.occur .produce] <+: moves →
        (run recorded).shared.production.recording? n.decode = some (hash, height) →
        ∃ raised, raised ++ [.occur .produce] <+: recorded ∧
          (run raised).shared.production.raises ∧
          height = (run raised).shared.node.chain.head + 1 ∧
          (target ≤ height ↔ read ++ [.proceed place] <+: raised) ∧
          (read <+: recorded → target ≤ height + 1) := by
  intro run request place moves hroom hpending
  have hrun : ∀ part, run (before ++ .start request :: part) =
      (run before).after (.start request :: part) := fun part => after_append _ _ _
  rw [hrun after] at hpending
  obtain ⟨waiting, rest, rfl, hturns, htarget⟩ := exists_head_read hpending
  rw [← hrun waiting] at htarget
  have hread : before ++ .start request :: waiting ++ [.proceed place] <+: moves :=
    ⟨rest, by simp [moves, place]⟩
  have hsmall := hroom _ ((List.prefix_append _ _).trans hread)
  have haim : target = (run (before ++ .start request :: waiting)).shared.node.chain.head + 1 :=
    htarget.trans (if_pos hsmall)
  refine ⟨waiting, ⟨rest, by simp [place]⟩, hturns, haim, ?_⟩
  intro recorded height hrecorded hrecording
  have hrecorded := (List.prefix_append recorded [.occur .produce]).trans hrecorded
  obtain ⟨raised, hraised, hraises, hheight, hlevel⟩ :=
    exists_raise n recorded (Production.height?_of_recording hrecording)
  obtain ⟨hiff, hle⟩ := head_lt_iff hroom hread hrecorded hraised hheight hlevel
  have hsmall' := hroom recorded hrecorded
  rw [hlevel recorded hraised (List.prefix_refl recorded)] at hsmall'
  refine ⟨raised, hraised, hraises, hheight, ?_, fun hto => ?_⟩
  · rw [← hiff, haim, UInt64.le_iff_toNat_le, UInt64.lt_iff_toNat_lt, toNat_add_one hsmall]
    exact Iff.rfl
  · rw [haim, UInt64.le_iff_toNat_le, toNat_add_one hsmall, toNat_add_one hsmall']
    exact Nat.succ_le_succ (UInt64.le_iff_toNat_le.mp (hle hto))

end

-- A resolver is through before the first block begins, and the block records what it aimed at.
theorem pending_target_reached :
    let n : Node :=
      ⟨"", ⟨"", 0⟩, .identity, true, 1, none, ⟨∅, 0, [(Identifier.zero : TxHash).bytes]⟩, .zero⟩
    let run := (Run.ofNode (Except IssueError Resolution) n).after
    let moves : Nat → List (Move Event (Except IssueError Resolution)) := fun produced =>
      .start (Issuance.resolve n.decode 1 .zero).run ::
        (List.replicate 6 (.proceed 0) ++ List.replicate produced (.occur .produce))
    HasRoom n (moves 3) ∧ (run (moves 3)).value? 0 = some (.ok ⟨.pending, 1⟩) ∧
      (run (moves 2)).shared.production.recording? n.decode = some (.zero, 1) ∧
      ∃ read raised, read ++ [.proceed 0] <+: raised ∧
        raised ++ [.occur .produce] <+: moves 2 ∧ (run raised).shared.production.raises := by
  intro n run moves
  have hroom : HasRoom n (moves 3) := hasRoom_of_length (by decide)
  have hpending : (run (moves 3)).value? 0 = some (.ok ⟨.pending, 1⟩) :=
    value?_undisturbed (r := Run.ofNode _ n) n.decode 1 .zero (by simp [Run.ofNode, n, Chain.height?])
      ⟨_, List.mem_singleton_self _, rfl⟩ _
  have hrecording : (run (moves 2)).shared.production.recording? n.decode = some (.zero, 1) := by
    simp only [run, moves, List.replicate, List.cons_append, List.nil_append, Run.after,
      Interleaving.run, List.foldl_cons, List.foldl_nil, shared_step]
    rfl
  obtain ⟨waiting, -, -, -, hrecords⟩ :=
    pending_target_le_iff n [] (moves 3).tail 1 .zero 1 hroom hpending
  obtain ⟨raised, hraised, hraises, -, hiff, -⟩ :=
    hrecords (moves 2) 1 (List.prefix_refl _) hrecording
  exact ⟨hroom, hpending, hrecording, _, raised, hiff.mp (UInt64.le_refl 1), hraised, hraises⟩

-- A resolver comes while the first block has raised the head and has recorded nothing yet. It finds
-- the transaction waiting and aims at the second block, and then the first one records it.
theorem pending_past_its_block :
    let n : Node :=
      ⟨"", ⟨"", 0⟩, .identity, true, 1, none, ⟨∅, 0, [(Identifier.zero : TxHash).bytes]⟩, .zero⟩
    let run := (Run.ofNode (Except IssueError Resolution) n).after
    let moves : List (Move Event (Except IssueError Resolution)) :=
      [.occur .produce, .occur .produce] ++
        .start (Issuance.resolve n.decode 1 .zero).run :: List.replicate 6 (.proceed 0)
    HasRoom n (moves ++ [.occur .produce]) ∧ (run moves).value? 0 = some (.ok ⟨.pending, 2⟩) ∧
      (run moves).shared.production.recording? n.decode = some (.zero, 1) ∧
      (run (moves ++ [.occur .produce])).shared.node.chain.height? .zero = some 1 := by
  intro n run moves
  have hroom : HasRoom n (moves ++ [.occur .produce]) := hasRoom_of_length (by decide)
  have hraised : (run [.occur .produce, .occur .produce]).shared =
      ⟨{ n with chain := n.chain.advance }, .indexing n.chain.pool ⟨1, [], 0⟩ n.chain.pool⟩ := rfl
  have hpending : (run moves).value? 0 = some (.ok ⟨.pending, 2⟩) := by
    rw [show run moves = (run [.occur .produce, .occur .produce]).after _ from after_append _ _ _]
    refine (value?_undisturbed n.decode 1 .zero ?_ ?_ []).trans ?_
    · rw [hraised]
      exact Std.HashMap.getElem?_empty
    · rw [hraised]
      exact ⟨_, List.mem_singleton_self _, rfl⟩
    · rw [hraised]
      rfl
  have hstill : (run moves).shared = (run [.occur .produce, .occur .produce]).shared := by
    simp only [run, moves, List.replicate, List.cons_append, List.nil_append, Run.after,
      Interleaving.run, List.foldl_cons, List.foldl_nil, shared_step]
  have hrecording : (run moves).shared.production.recording? n.decode = some (.zero, 1) := by
    rw [hstill, hraised]
    rfl
  have hnext : (run (moves ++ [.occur .produce])).shared = act .produce (run moves).shared :=
    (congrArg (·.shared) (after_concat (Run.ofNode _ n) moves _)).trans (shared_step _ _)
  refine ⟨hroom, hpending, hrecording, ?_⟩
  rw [hstill, hraised] at hnext hrecording
  rw [hnext]
  exact height?_act_produce hrecording

end LiveNode

end SoftConfirm
