import SoftConfirm.Node
import SoftConfirm.Proofs.Outcomes
import SoftConfirm.Proofs.Visibility

namespace SoftConfirm.Node

variable [SignatureScheme] {α β : Type} {n : Node} {hash : TxHash}

theorem run_surroundings_snd (p : Program α) (n : Node) : (p.run surroundings n).2 = n := by
  induction p with
  | done value => rfl
  | ask call next ih => exact ih (n.answer call)

-- What an attempt comes to when the node answers its calls.
def outcome (n : Node) (attempt : Attempt α) : Except IssueError α :=
  (attempt.run.run surroundings n).1

theorem outcome_bind (attempt : Attempt α) (f : α → Attempt β) :
    n.outcome (attempt >>= f) = (n.outcome attempt).bind fun value => n.outcome (f value) := by
  rw [outcome, Attempt.run_bind, Program.run_bind, run_surroundings_snd, ← outcome]
  cases n.outcome attempt with
  | ok value => rfl
  | error e => rfl

-- A query is answered with what the node sees, and nothing interrupts it.
theorem outcome_query_bind (q : Query) (next : q.Value → Attempt β) :
    n.outcome (Issuance.query q >>= next) = n.outcome (next (n.look q)) := rfl

theorem outcome_check_bind (next : Unit → Attempt β) :
    n.outcome (Issuance.check >>= next) = n.outcome (next ()) := rfl

theorem exists_outcome_mapM {f : α → Attempt β} {items : List α}
    (h : ∀ item ∈ items, ∃ value, n.outcome (f item) = .ok value) :
    ∃ values, n.outcome (items.mapM f) = .ok values ∧ values.length = items.length := by
  induction items with
  | nil => exact ⟨[], rfl, rfl⟩
  | cons item items ih =>
      obtain ⟨value, hvalue⟩ := h item List.mem_cons_self
      obtain ⟨values, hvalues, hlength⟩ := ih fun other hother =>
        h other (List.mem_cons_of_mem _ hother)
      refine ⟨value :: values, ?_, congrArg Nat.succ hlength⟩
      rw [List.mapM_cons, outcome_bind, hvalue]
      simp only [Except.bind, outcome_bind, hvalues]
      rfl

section resolve

variable {decode : Decoder} {limit : UInt64}

theorem outcome_resolve_of_indexed {height : UInt64} (h : n.chain.height? hash = some height) :
    n.outcome (Issuance.resolve decode limit hash) = .ok ⟨.included, height⟩ := by
  refine (outcome_query_bind (.lookup hash) _).trans ?_
  simp only [look, h]
  rfl

theorem outcome_resolve_of_listed (hindex : n.chain.height? hash = none)
    (hpool : n.chain.Listed decode limit hash) :
    n.outcome (Issuance.resolve decode limit hash) =
      .ok ⟨.pending, Issuance.nextHeight n.chain.head⟩ := by
  refine (outcome_query_bind (.lookup hash) _).trans ?_
  simp only [look, hindex]
  refine (outcome_query_bind (.pending limit) _).trans ?_
  simp only [look, Chain.listed_iff.mp hpool, if_true]
  rfl

theorem outcome_resolve_of_absent (hindex : n.chain.height? hash = none)
    (hpool : ¬ n.chain.Listed decode limit hash) :
    n.outcome (Issuance.resolve decode limit hash) = .error (.txNotFound hash) := by
  rw [Chain.listed_iff] at hpool
  refine (outcome_query_bind (.lookup hash) _).trans ?_
  simp only [look, hindex]
  refine (outcome_query_bind (.pending limit) _).trans ?_
  simp only [look, hpool, Bool.false_eq_true, if_false]
  refine (outcome_query_bind (.lookup hash) _).trans ?_
  simp only [look, hindex]
  rfl

-- A node calls a transaction included exactly if it is indexed, and at the height of its record.
theorem outcome_resolve_included_iff {height : UInt64} :
    n.outcome (Issuance.resolve decode limit hash) = .ok ⟨.included, height⟩ ↔
      n.chain.height? hash = some height := by
  constructor
  · intro h
    cases hindex : n.chain.height? hash with
    | some recorded =>
        rw [outcome_resolve_of_indexed hindex] at h
        exact congrArg some (Resolution.mk.inj (Except.ok.inj h)).2
    | none =>
        by_cases hpool : n.chain.Listed decode limit hash
        · rw [outcome_resolve_of_listed hindex hpool] at h
          exact absurd (Resolution.mk.inj (Except.ok.inj h)).1 nofun
        · rw [outcome_resolve_of_absent hindex hpool] at h
          exact absurd h nofun
  · exact outcome_resolve_of_indexed

end resolve

-- A node that can issue receipts: it has a chain to ask, and it holds the keys of its signers.
structure Serving (n : Node) : Prop where
  backend : n.hasBackend
  keys : ∃ set, n.active = some set ∧ ∀ signer ∈ set.signers, ∃ key, signer = .held key

theorem issue_eq (n : Node) (hash : TxHash) (issuedAt : UInt64) :
    n.issue hash issuedAt =
      (n.outcome (Issuance.issueFrom n.active n.backend? n.scanLimit hash issuedAt), n) :=
  Prod.ext rfl (run_surroundings_snd _ n)

-- The signers of a node that holds their keys sign whatever has been found.
theorem exists_confirm (hserving : n.Serving) (payload : Payload) :
    ∃ set r, n.active = some set ∧ n.outcome (Issuance.confirm set payload) = .ok r := by
  obtain ⟨set, hactive, hkeys⟩ := hserving.keys
  have hsign : ∀ signer ∈ set.signers,
      ∃ entry, n.outcome (Issuance.signWith payload.digest signer) = .ok entry := by
    intro signer hsigner
    obtain ⟨key, rfl⟩ := hkeys signer hsigner
    exact ⟨_, rfl⟩
  obtain ⟨entries, hentries, hlength⟩ := exists_outcome_mapM hsign
  have hne : entries ≠ [] := by
    rw [← List.length_pos_iff, hlength, List.length_pos_iff]
    exact set.signers_ne_nil
  obtain ⟨primary, others, rfl⟩ := List.exists_cons_of_ne_nil hne
  refine ⟨set, ⟨payload, payload.digest, set.threshold, primary, others⟩, hactive, ?_⟩
  refine (outcome_check_bind _).trans ?_
  rw [outcome_bind, hentries]
  rfl

theorem payload_of_confirm {set : SignerSet} {payload : Payload} {r : Receipt}
    (h : n.outcome (Issuance.confirm set payload) = .ok r) : r.payload = payload := by
  have hends : (Issuance.confirm set payload).Ensures (fun _ _ => True) _ :=
    Issuance.ensures_confirm set payload
  exact (hends.run (fun _ _ => trivial) n r h).1

-- Whatever a node that can issue receipts finds, it issues a receipt of.
theorem exists_issue_of_found (hserving : n.Serving) {found : Resolution}
    (hfound : n.outcome (Issuance.resolve n.decode n.scanLimit hash) = .ok found)
    (issuedAt : UInt64) :
    ∃ r, (n.issue hash issuedAt).1 = .ok r ∧
      r.payload = Issuance.payload n.context hash found issuedAt := by
  obtain ⟨set, r, hactive, hr⟩ :=
    exists_confirm hserving (Issuance.payload n.context hash found issuedAt)
  refine ⟨r, ?_, ?_⟩
  · have hbackend : n.backend? = some ⟨n.context, n.decode⟩ := if_pos hserving.backend
    rw [issue_eq, hactive, hbackend, Issuance.issueFrom_some, outcome_bind, hfound]
    exact hr
  · exact payload_of_confirm hr

-- A receipt says what the node has found.
theorem exists_found_of_issue {issuedAt : UInt64} {r : Receipt}
    (h : (n.issue hash issuedAt).1 = .ok r) :
    ∃ found, n.outcome (Issuance.resolve n.decode n.scanLimit hash) = .ok found ∧
      r.payload = Issuance.payload n.context hash found issuedAt := by
  rw [issue_eq] at h
  cases hactive : n.active with
  | none =>
      rw [hactive] at h
      exact absurd h nofun
  | some set =>
      cases hbackend : n.hasBackend with
      | false =>
          rw [hactive, backend?, hbackend] at h
          exact absurd h nofun
      | true =>
          rw [hactive, backend?, hbackend, if_pos rfl, Issuance.issueFrom_some, outcome_bind] at h
          cases hfound : n.outcome (Issuance.resolve n.decode n.scanLimit hash) with
          | error e =>
              rw [hfound] at h
              exact absurd h nofun
          | ok found =>
              rw [hfound] at h
              exact ⟨found, rfl, payload_of_confirm h⟩

end SoftConfirm.Node
