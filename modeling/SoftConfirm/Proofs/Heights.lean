import SoftConfirm.Crypto.Ecdsa
import SoftConfirm.Proofs.History

namespace SoftConfirm.Node

section

variable [SignatureScheme]

-- A receipt that calls a transaction included is the first of many: later receipts call it included
-- as well, and at the same height, until a tick finds that it has been accepted once more. From
-- then on they have the height of the latest such tick.
theorem included_until_queued_again {n : Node} (hempty : n.chain = .empty)
    {earlier later : List Event} (hle : earlier <+: later) {now now' : Timestamp}
    {request request' : Http.Request} {r r' : Receipt}
    (hr : (n.after earlier).receipt? now request = some r)
    (hincluded : r.payload.status = .included)
    (hr' : (n.after later).receipt? now' request' = some r')
    (hhash : r'.payload.txHash = r.payload.txHash) :
    r'.payload.status = .included ∧
      ((∀ part, earlier <+: part → part ++ [.tick] <+: later →
          ¬ n.Queued part r.payload.txHash) →
        r'.payload.targetBlock = r.payload.targetBlock) ∧
      ∀ part, earlier <+: part → part ++ [.tick] <+: later → n.Queued part r.payload.txHash →
        (∀ next, part ++ [.tick] <+: next → next ++ [.tick] <+: later →
          ¬ n.Queued next r.payload.txHash) →
        r'.payload.targetBlock = (n.after part).chain.head + 1 := by
  have hpool : n.chain.pool = [] := congrArg Chain.pool hempty
  have hrecord := (included_iff hr _).mp ⟨hincluded, rfl⟩
  have hindexed : (n.after later).chain.Indexed r.payload.txHash :=
    indexed_after earlier later n hle (Option.isSome_of_eq_some hrecord)
  obtain ⟨height, hheight⟩ := Option.isSome_iff_exists.mp hindexed
  obtain ⟨hstatus, rfl⟩ := (included_iff hr' height).mpr (hhash ▸ hheight)
  refine ⟨hstatus, fun hnone => ?_, fun part _ hto hqueued hlast => ?_⟩
  · rw [height?_after_of_not_queued hpool hle hnone, hrecord] at hheight
    exact (Option.some.inj hheight).symm
  · rw [height?_after_of_not_queued hpool hto hlast, height?_after_of_queued hpool hqueued]
      at hheight
    exact (Option.some.inj hheight).symm

end

-- A transaction is handed in once more after its block, and no later tick finds it again.
theorem included_again_at_two :
    let ask := askFor oneByte
    let earlier : List Event := [.request ⟨0, 0⟩ handIn, .tick]
    let part := earlier ++ [.request ⟨0, 0⟩ ask, .request ⟨0, 0⟩ handIn]
    let later := part ++ [.tick] ++ [.tick]
    ∃ r r', (lone.after earlier).receipt? ⟨0, 0⟩ ask = some r ∧
      r.payload.status = .included ∧
      (lone.after later).receipt? ⟨0, 0⟩ ask = some r' ∧
      r'.payload.txHash = r.payload.txHash ∧ lone.Queued part oneByte ∧
      r'.payload.status = .included ∧ r'.payload.targetBlock = 2 := by
  intro ask earlier part later
  have hearlier : earlier <+: later :=
    ⟨[.request ⟨0, 0⟩ ask, .request ⟨0, 0⟩ handIn, .tick, .tick], rfl⟩
  have hfirst : (lone.after earlier).chain.height? oneByte = some 1 := by
    rw [show earlier = [] ++ [.request ⟨0, 0⟩ handIn, .tick] from rfl, height?_lone]
    rfl
  obtain ⟨height, hlater⟩ := Option.isSome_iff_exists.mp
    (indexed_after earlier later lone hearlier (Option.isSome_of_eq_some hfirst))
  obtain ⟨r, hr, hhash, hstatus, -⟩ := exists_receipt_of_found (serving_lone.after earlier)
    (asks_lone earlier) (outcome_resolve_of_indexed hfirst)
  obtain ⟨r', hr', hhash', -⟩ := exists_receipt_of_found (serving_lone.after later)
    (asks_lone later) (outcome_resolve_of_indexed hlater)
  have hsame := hhash'.trans hhash.symm
  have hqueued : lone.Queued part oneByte :=
    ⟨earlier ++ [.request ⟨0, 0⟩ ask], _, _, [], rfl, List.not_mem_nil, accepts_lone _⟩
  obtain ⟨hincluded, -, htarget⟩ :=
    included_until_queued_again rfl hearlier hr hstatus hr' hsame
  refine ⟨r, r', hr, hstatus, hr', hsame, hqueued, hincluded, ?_⟩
  have hqueued' : lone.Queued part r.payload.txHash := hhash ▸ hqueued
  refine (htarget part (List.prefix_append _ _) (List.prefix_append _ _) hqueued' ?_).trans ?_
  · intro next hfrom hto
    have hlength := hto.length_le
    obtain rfl := hfrom.eq_of_length_le (by simpa [later] using hlength)
    exact not_queued_tick part
  · rw [head_after]
    rfl

-- A transaction that is handed in again after its block is recorded at two heights, one after the
-- other, and receipts are issued for both.
theorem included_at_two_heights :
    let ask := askFor oneByte
    let first : List Event := [.request ⟨0, 0⟩ handIn, .tick]
    let second := first ++ [.request ⟨0, 0⟩ ask, .request ⟨0, 0⟩ handIn, .tick]
    ∃ r r', (lone.after first).receipt? ⟨0, 0⟩ ask = some r ∧
      r.payload.txHash = oneByte ∧ r.payload.status = .included ∧ r.payload.targetBlock = 1 ∧
      (lone.after second).receipt? ⟨0, 0⟩ ask = some r' ∧
      r'.payload.txHash = oneByte ∧ r'.payload.status = .included ∧
      r'.payload.targetBlock = 2 := by
  intro ask first second
  have hfirst : (lone.after first).chain.height? oneByte = some 1 := by
    rw [show first = [] ++ [.request ⟨0, 0⟩ handIn, .tick] from rfl, height?_lone]
    rfl
  have hsecond : (lone.after second).chain.height? oneByte = some 2 := by
    rw [show second = (first ++ [.request ⟨0, 0⟩ ask]) ++ [.request ⟨0, 0⟩ handIn, .tick] from rfl,
      height?_lone]
    rfl
  obtain ⟨r, hr, hhash, hstatus, htarget, -⟩ := exists_receipt_of_found
    (serving_lone.after first) (asks_lone first) (outcome_resolve_of_indexed hfirst)
  obtain ⟨r', hr', hhash', hstatus', htarget', -⟩ := exists_receipt_of_found
    (serving_lone.after second) (asks_lone second) (outcome_resolve_of_indexed hsecond)
  exact ⟨r, r', hr, hhash, hstatus, htarget, hr', hhash', hstatus', htarget'⟩

end SoftConfirm.Node
