import Mathlib.Data.List.Induction
import SoftConfirm.Crypto.Ecdsa
import SoftConfirm.Node.Managed
import SoftConfirm.Proofs.Receipt.Entries
import SoftConfirm.Proofs.SignerSet
import SoftConfirm.Proofs.Turns

namespace SoftConfirm

namespace ManagedNode

section

variable {ω α : Type} [SignatureScheme]

-- What an event makes of the active set, if it touches it at all.
def Event.sets? : Event ω → Option (Option SignerSet)
  | .install set => some (some set)
  | .installFrom fs source threshold => (source.loadSigners fs threshold).toOption.map some
  | .disable => some none
  | .elsewhere _ => none

-- Programs leave the set alone.
def moveSets? : Move (Event ω) α → Option (Option SignerSet)
  | .occur event => event.sets?
  | .start _ | .proceed _ => none

theorem active_act (event : Event ω) (s : ManagedNode ω) :
    (act event s).node.active = event.sets?.getD s.node.active := by
  cases event with
  | install set | disable | elsewhere change => rfl
  | installFrom fs source threshold =>
      simp only [act, Node.installFrom, Event.sets?]
      cases source.loadSigners fs threshold with
      | ok set => rfl
      | error e => rfl

omit [SignatureScheme] in
theorem node_surroundings (outside : Surroundings ω) (call : Call) (s : ManagedNode ω) :
    (surroundings outside call s).2.node = s.node := by
  cases call with
  | signers | check | query q | sign signer digest => rfl

theorem active_step (outside : Surroundings ω) (r : Run ω α) (move : Move (Event ω) α) :
    (Interleaving.step act (surroundings outside) r move).shared.node.active =
      (moveSets? move).getD r.shared.node.active := by
  cases move with
  | occur event => exact active_act event r.shared
  | start program => rfl
  | proceed place =>
      simp only [Interleaving.step]
      split
      · exact congrArg Node.active (node_surroundings outside _ _)
      · rfl

-- The active set is what the last event that touches it makes of it.
theorem active_after (outside : Surroundings ω) (start : Run ω α)
    (moves : List (Move (Event ω) α)) :
    (start.after outside moves).shared.node.active =
      (moves.reverse.findSome? moveSets?).getD start.shared.node.active := by
  induction moves using List.reverseRecOn with
  | nil => rfl
  | append_singleton moves move ih =>
      rw [Run.after, Interleaving.run_append, List.reverse_append, List.reverse_singleton,
        List.singleton_append, List.findSome?_cons]
      refine (active_step outside _ move).trans ?_
      cases moveSets? move with
      | none => exact ih
      | some active => rfl

theorem active_after_eq_some_iff (outside : Surroundings ω) {start : Run ω α}
    (hnone : start.shared.node.active = none) {moves : List (Move (Event ω) α)}
    {set : SignerSet} :
    (start.after outside moves).shared.node.active = some set ↔
      ∃ before event rest, moves = before ++ .occur event :: rest ∧
        event.sets? = some (some set) ∧ ∀ other, .occur other ∈ rest → other.sets? = none := by
  rw [active_after, hnone]
  have hlast : (moves.reverse.findSome? moveSets?).getD none = some set ↔
      moves.reverse.findSome? moveSets? = some (some set) := by
    cases moves.reverse.findSome? moveSets? <;> simp
  rw [hlast, List.findSome?_eq_some_iff]
  constructor
  · rintro ⟨later, move, earlier, hsplit, hset, hrest⟩
    cases move with
    | start program => exact absurd hset nofun
    | proceed place => exact absurd hset nofun
    | occur event =>
        refine ⟨earlier.reverse, event, later.reverse, ?_, hset, fun other hother => ?_⟩
        · rw [← List.reverse_reverse moves, hsplit]
          simp
        · exact hrest _ (List.mem_reverse.mp hother)
  · rintro ⟨before, event, rest, rfl, hset, hrest⟩
    refine ⟨rest.reverse, .occur event, before.reverse, by simp, hset, fun move hmove => ?_⟩
    cases move with
    | start program => rfl
    | proceed place => rfl
    | occur other => exact hrest other (List.mem_reverse.mp hmove)

-- A source replaces the active set exactly if its keys and the threshold make a set, and otherwise
-- nothing happens at all.
theorem installFrom_cases (n : Node) (fs : FileSystem) (source : KeySource)
    (threshold : Option UInt32) :
    let Made := fun set : SignerSet => ∃ keys, source.loadKeys fs = .ok keys ∧
      set.signers = keys.map Signer.held ∧
      set.threshold.toNat = threshold.elim keys.length UInt32.toNat
    (∃ set, Made set ∧ n.installFrom fs source threshold = (.ok (), n.install set)) ∨
      (∀ set, ¬ Made set) ∧ ∃ e, n.installFrom fs source threshold = (.error e, n) := by
  intro Made
  have hmade : ∀ set, source.loadSigners fs threshold = .ok set ↔ Made set :=
    fun set => KeySource.loadSigners_eq_ok_iff
  simp only [← hmade, Node.installFrom]
  cases source.loadSigners fs threshold with
  | ok set => exact .inl ⟨set, rfl, rfl⟩
  | error e => exact .inr ⟨nofun, e, rfl⟩

-- Whatever happens around a request, it ends in a receipt of a set or in an error that is not about
-- the configuration.
theorem outcome_of_issue (outside : Surroundings ω) (start : Run ω (Except IssueError Receipt))
    (backend : Option Backend) (limit : UInt64) (hash : TxHash) (issuedAt : UInt64)
    (moves : List (Move (Event ω) (Except IssueError Receipt)))
    {outcome : Except IssueError Receipt}
    (h : (start.after outside
        (.start (Issuance.issue backend limit hash issuedAt).run :: moves)).value?
      start.programs.length = some outcome) :
    (∀ r, outcome = .ok r → ∃ set : SignerSet, r.signers = set.addresses) ∧
      ∀ cause, outcome ≠ .error (.config cause) := by
  have hturns := (Interleaving.value?_run_start start _ moves).symm.trans h
  have hends : Program.Ensures (fun _ _ => True) _ _ :=
    (Issuance.ensures_issue backend limit hash issuedAt).and
      (Issuance.failsWith_issue backend limit hash issuedAt)
  obtain ⟨hissued, hfails⟩ := hends.value (fun _ _ => trivial) hturns
  refine ⟨fun r hr => ?_, fun cause hcause => hfails _ hcause cause rfl⟩
  obtain ⟨set, hset⟩ := hissued r hr
  exact ⟨set, hset.signers_eq⟩

-- The active set is the one that was installed last, if none has been removed since then, and a
-- source that makes no set changes nothing. A set has signers, all of them distinct, and a
-- threshold within their number. So no request fails over the configuration, and a receipt has a
-- first entry, whether it has been issued, put together or read.
theorem active_set_is_last_installed (outside : Surroundings ω)
    {start : Run ω (Except IssueError Receipt)} (hnone : start.shared.node.active = none)
    (moves : List (Move (Event ω) (Except IssueError Receipt))) :
    let later := fun moves => start.after outside moves
    let n := (later moves).shared.node
    (∀ set, n.active = some set ↔
        ∃ before event rest, moves = before ++ .occur event :: rest ∧
          event.sets? = some (some set) ∧ ∀ other, .occur other ∈ rest → other.sets? = none) ∧
      (∀ set, n.active = some set →
        set.signers ≠ [] ∧ set.addresses.Nodup ∧
          1 ≤ set.threshold.toNat ∧ set.threshold.toNat ≤ set.signers.length) ∧
      (∀ fs source threshold,
        let Made := fun set : SignerSet => ∃ keys, source.loadKeys fs = .ok keys ∧
          set.signers = keys.map Signer.held ∧
          set.threshold.toNat = threshold.elim keys.length UInt32.toNat
        (∃ set, Made set ∧ n.installFrom fs source threshold = (.ok (), n.install set)) ∨
          (∀ set, ¬ Made set) ∧ ∃ e, n.installFrom fs source threshold = (.error e, n)) ∧
      (∀ backend limit hash issuedAt before after,
        moves = before ++ .start (Issuance.issue backend limit hash issuedAt).run :: after →
        let outcome := (later moves).value? (later before).programs.length
        (∀ cause, outcome ≠ some (.error (.config cause))) ∧
          ∀ r, outcome = some (.ok r) →
            ∃ set : SignerSet, r.signers = set.addresses ∧ r.primary.signer = set.primary) ∧
      (∀ payload digest entries threshold,
        (∃ r, Receipt.ofEntries payload digest entries threshold = .ok r) ↔ entries ≠ []) ∧
      (∀ payload digest entries threshold r,
        Receipt.ofEntries payload digest entries threshold = .ok r →
          r.entries = entries ∧ entries.head? = some r.primary) ∧
      ∀ r, (∃ s, Receipt.ofText s = .ok r) ∨ (∃ value, Receipt.ofJson value = .ok r) →
        ∃ d : Receipt.Draft, d.toReceipt = .ok r ∧
          d.signer = some r.primary.signer ∧ d.signature = some r.primary.signature ∧
          Receipt.Draft.pairUp r.primary (d.signers.getD []) (d.signatures.getD []) =
            .ok r.entries := by
  intro later n
  refine ⟨fun set => active_after_eq_some_iff outside hnone, fun set _ => ?_,
    fun fs source threshold => installFrom_cases n fs source threshold, ?_, ?_, ?_, ?_⟩
  · exact ⟨set.signers_ne_nil, set.addresses_nodup, set.threshold_pos, set.threshold_le⟩
  · intro backend limit hash issuedAt before after hmoves outcome
    have hlater : later moves = (later before).after outside
        (.start (Issuance.issue backend limit hash issuedAt).run :: after) := by
      rw [hmoves]
      exact Interleaving.run_append start before _
    have hend : ∀ value, outcome = some value → _ := fun value hvalue =>
      outcome_of_issue outside (later before) backend limit hash issuedAt after
        ((congrArg (Interleaving.value? · _) hlater).symm.trans hvalue)
    refine ⟨fun cause hcause => (hend _ hcause).2 cause rfl, fun r hr => ?_⟩
    obtain ⟨set, hset⟩ := (hend _ hr).1 r rfl
    exact ⟨set, hset, Option.some.inj ((congrArg List.head? hset).trans set.head?_addresses)⟩
  · exact fun payload digest entries threshold => Receipt.exists_ofEntries_iff
  · intro payload digest entries threshold r hr
    obtain ⟨rfl, -⟩ := Receipt.ofEntries_eq_ok_iff.mp hr
    exact ⟨rfl, rfl⟩
  · intro r hread
    obtain ⟨d, hd⟩ : ∃ d : Receipt.Draft, d.toReceipt = .ok r := by
      rcases hread with ⟨s, hs⟩ | ⟨value, hvalue⟩
      · obtain ⟨term, hterm⟩ := Json.exists_read_of_readDocument hs
        exact Receipt.exists_draft_of_ofTerm hterm
      · exact Receipt.exists_draft_of_ofTerm hvalue
    exact ⟨d, hd, Receipt.pairUp_of_toReceipt hd⟩

end

-- A source without keys is tried after an install, and a request gets its receipt all the same.
theorem active_set_is_last_installed_once :
    let set : SignerSet := ⟨[.remote .zero 0], 1, by simp, by decide, by decide, by decide⟩
    let n : Node := ⟨"", ⟨"", 0⟩, .identity, true, 1, none, .empty, .zero⟩
    let start : Run Unit (Except IssueError Receipt) := ⟨⟨n, ()⟩, []⟩
    let managed : List (Move (Event Unit) (Except IssueError Receipt)) :=
      [.occur (.install set), .occur (.installFrom .empty (.inline []) none)]
    let moves := managed ++
      .start (Issuance.issue n.backend? 1 .zero 0).run :: List.replicate 7 (.proceed 0)
    let later := start.after (Issuance.settled none) moves
    let place := (start.after (Issuance.settled none) managed).programs.length
    start.shared.node.active = none ∧ later.shared.node.active = some set ∧
      ∃ r, later.value? place = some (.ok r) ∧
        ∃ signers : SignerSet, r.signers = signers.addresses ∧
          r.primary.signer = signers.primary := by
  intro set n start managed moves later place
  have hnone : start.shared.node.active = none := rfl
  let attested := Issuance.payload n.context .zero ⟨.included, 1⟩ 0
  let r : Receipt := ⟨attested, attested.digest, 1, ⟨.zero, ⟨[]⟩⟩, []⟩
  have hr : later.value? place = some (.ok r) := by decide +kernel
  obtain ⟨hactive, -, -, hissued, -⟩ :=
    active_set_is_last_installed (Issuance.settled none) hnone moves
  beta_reduce at hactive hissued
  have hlast : ∀ other, .occur other ∈ moves.tail → other.sets? = none := by
    intro other hother
    obtain rfl : other = .installFrom .empty (.inline []) none := by
      simpa [managed, moves] using hother
    rfl
  -- The run is matched by rewriting, for unfolding it would carry it out.
  have hlater : later = start.after (Issuance.settled none) moves := rfl
  have hset : later.shared.node.active = some set := by
    rw [hlater]
    exact (hactive set).mpr ⟨[], .install set, moves.tail, rfl, rfl, hlast⟩
  have hreceipt := (hissued n.backend? 1 .zero 0 managed _ rfl).2 r hr
  exact ⟨hnone, hset, r, hr, hreceipt⟩

end ManagedNode

end SoftConfirm
