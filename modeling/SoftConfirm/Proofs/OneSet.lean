import SoftConfirm.Crypto.Ecdsa
import SoftConfirm.Node.Managed
import SoftConfirm.Proofs.Turns

namespace SoftConfirm

namespace Issuance

variable {σ : Type} {answer : Surroundings σ}

-- From the turn on that takes the set, no answer to a request makes it leave this set.
theorem issuedBy_of_turns {set : SignerSet} {backend : Option Backend} {limit : UInt64}
    {hash : TxHash} {issuedAt : UInt64} {states : List σ} {r : Receipt}
    (h : ((issueFrom (some set) backend limit hash issuedAt).run.turns answer states).value? =
      some (.ok r)) : IssuedBy (fun _ _ => True) set r :=
  Program.Ensures.value (fun _ _ => trivial)
    (ensures_issueFrom set backend limit hash issuedAt) h r rfl

theorem issueFrom_none (backend : Option Backend) (limit : UInt64) (hash : TxHash)
    (issuedAt : UInt64) :
    (issueFrom none backend limit hash issuedAt).run = .done (.error .disabled) := rfl

theorem value?_issue_nil (backend : Option Backend) (limit : UInt64) (hash : TxHash)
    (issuedAt : UInt64) :
    (issue backend limit hash issuedAt).run.value? = none := rfl

end Issuance

namespace ManagedNode

-- The first turn of a request takes the set that is active then.
theorem turn_issue {ω : Type} {outside : Surroundings ω} (backend : Option Backend)
    (limit : UInt64) (hash : TxHash) (issuedAt : UInt64) (s : ManagedNode ω) :
    (Issuance.issue backend limit hash issuedAt).run.turn (surroundings outside) s =
      (Issuance.issueFrom s.node.active backend limit hash issuedAt).run := rfl

-- However the signer set is replaced and removed, a receipt has the signers and the threshold of
-- the set that was active when its request had its first turn, and of no other. A request that
-- finds no set then has been refused for good.
theorem receipt_of_one_set [SignatureScheme] {ω : Type} (outside : Surroundings ω)
    (start : Run ω (Except IssueError Receipt)) (backend : Option Backend) (limit : UInt64)
    (hash : TxHash) (issuedAt : UInt64) :
    let request := (Issuance.issue backend limit hash issuedAt).run
    let place := start.programs.length
    let later := fun moves => start.after outside (.start request :: moves)
    (∀ moves r, (later moves).value? place = some (.ok r) →
      ∃ waiting rest set, moves = waiting ++ .proceed place :: rest ∧
        waiting.countP (Move.proceeds place) = 0 ∧
        (later waiting).shared.node.active = some set ∧
        r.signers = set.addresses ∧ r.threshold = set.threshold) ∧
    ∀ waiting rest, waiting.countP (Move.proceeds place) = 0 →
      (later waiting).shared.node.active = none →
      (later (waiting ++ .proceed place :: rest)).value? place = some (.error .disabled) := by
  intro request place later
  let begun := Interleaving.step act (surroundings outside) start (.start request)
  have hvalue : ∀ moves, (later moves).value? place =
      (request.turns (surroundings outside)
        (Interleaving.views act (surroundings outside) place begun moves)).value? :=
    Interleaving.value?_run_start start request
  constructor
  · intro moves r hr
    rw [hvalue] at hr
    cases hviews : Interleaving.views act (surroundings outside) place begun moves with
    | nil =>
        rw [hviews] at hr
        exact absurd hr (by simp [request, Issuance.value?_issue_nil])
    | cons taken states =>
        obtain ⟨waiting, rest, hmoves, htaken, hnone⟩ :=
          Interleaving.exists_moves_of_views (hviews.trans (List.nil_append _).symm)
        rw [hviews, Program.turns_cons, turn_issue] at hr
        cases hactive : taken.node.active with
        | none =>
            rw [hactive, Issuance.issueFrom_none, Program.turns_done] at hr
            exact absurd hr (by simp [Program.value?])
        | some set =>
            rw [hactive] at hr
            have hissued := Issuance.issuedBy_of_turns hr
            refine ⟨waiting, rest, set, hmoves, ?_, ?_, hissued.signers_eq, hissued.threshold⟩
            · rw [← Interleaving.length_views act (surroundings outside),
                hnone, List.length_nil]
            · exact htaken ▸ hactive
  · intro waiting rest hnone hactive
    have hviews : Interleaving.views act (surroundings outside) place begun waiting = [] := by
      rw [← List.length_eq_zero_iff, Interleaving.length_views, hnone]
    have hactive : (Interleaving.run act (surroundings outside) begun waiting).shared.node.active =
        none := hactive
    rw [hvalue, Interleaving.views_append, hviews, List.nil_append, Interleaving.views,
      if_pos (by simp [Move.proceeds]), List.singleton_append, Program.turns_cons, turn_issue,
      hactive, Issuance.issueFrom_none, Program.turns_done]
    rfl

-- The set is replaced before the first signature and removed before the second.
theorem receipt_of_first_set :
    let first : SignerSet :=
      ⟨[.remote .zero 0, .remote ⟨List.replicate 20 1, rfl⟩ 1], 2, by simp, by decide, by decide,
        by decide⟩
    let second : SignerSet := ⟨[.remote .zero 0], 1, by simp, by decide, by decide, by decide⟩
    let n : Node := ⟨"", ⟨"", 0⟩, .identity, true, 1, some first, .empty, .zero⟩
    let moves : List (Move (Event Unit) (Except IssueError Receipt)) :=
      List.replicate 5 (.proceed 0) ++ [.occur (.install second), .proceed 0, .occur .disable] ++
        List.replicate 3 (.proceed 0)
    let request := (Issuance.issue n.backend? 1 .zero 0).run
    let later := Run.after ⟨⟨n, ()⟩, []⟩ (Issuance.settled none) (.start request :: moves)
    ∃ r, later.value? 0 = some (.ok r) ∧ later.shared.node.active = none ∧
      r.signers = first.addresses ∧ r.threshold = 2 := by
  intro first second n moves request later
  let attested := Issuance.payload n.context .zero ⟨.included, 1⟩ 0
  let r : Receipt := ⟨attested, attested.digest, 2, ⟨.zero, ⟨[]⟩⟩,
    [⟨⟨List.replicate 20 1, rfl⟩, ⟨[]⟩⟩]⟩
  have hr : later.value? 0 = some (.ok r) := by decide +kernel
  have hremoved : later.shared.node.active.isNone := by decide +kernel
  obtain ⟨waiting, rest, set, hmoves, hnone, hactive, hsigners, hthreshold⟩ :=
    (receipt_of_one_set (Issuance.settled none) ⟨⟨n, ()⟩, []⟩ n.backend? 1 .zero 0).1 moves r hr
  cases waiting with
  | nil =>
      obtain rfl : first = set := Option.some.inj hactive
      exact ⟨r, hr, Option.isNone_iff_eq_none.mp hremoved, hsigners, hthreshold⟩
  | cons move waiting =>
      obtain ⟨rfl, -⟩ := List.cons_eq_cons.mp hmoves
      exact absurd hnone (by simp [Move.proceeds])

end ManagedNode

end SoftConfirm
