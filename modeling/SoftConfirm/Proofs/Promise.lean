import SoftConfirm.Crypto.Ecdsa
import SoftConfirm.Launch
import SoftConfirm.Proofs.History
import SoftConfirm.Proofs.Receipt.Entries
import SoftConfirm.Proofs.SignerSet
import SoftConfirm.Proofs.Targets

namespace SoftConfirm

namespace Node

section

variable [SignatureScheme] {n : Node} {hash : TxHash}

-- A node that starts with signers holds all their keys, so it can issue receipts.
theorem serving_of_prepare {s : CommandLine.RunSettings} {fs : FileSystem}
    {logSetting : Option String} (h : s.prepare fs logSetting = .ok n)
    (hactive : n.active.isSome) : n.Serving := by
  obtain ⟨_, _, h⟩ := exists_of_bind_eq_ok h
  dsimp only at h
  split at h
  · rename_i set hload
    obtain rfl := Except.ok.inj h
    obtain ⟨source, _, hload⟩ := exists_of_bind_eq_ok hload
    obtain ⟨threshold, _, hload⟩ := exists_of_bind_eq_ok hload
    obtain ⟨keys, -, hsigners, -⟩ := KeySource.loadSigners_eq_ok_iff.mp hload
    refine ⟨rfl, set, rfl, fun signer hsigner => ?_⟩
    rw [hsigners] at hsigner
    obtain ⟨key, -, rfl⟩ := List.mem_map.mp hsigner
    exact ⟨key, rfl⟩
  · obtain rfl := Except.ok.inj h
    exact absurd hactive Bool.false_ne_true
  · exact absurd h nofun

-- Whoever asks for this transaction is given a receipt that says the same.
def Attests (n : Node) (hash : TxHash) (found : Resolution) : Prop :=
  ∀ now request, n.Asks now request hash →
    ∃ r, n.receipt? now request = some r ∧ r.payload.txHash = hash ∧
      r.payload.status = found.status ∧ r.payload.targetBlock = found.targetBlock ∧
      (request.method ≠ "HEAD" → (n.serve now request).1.Holds r)

-- Between two ticks a chain only gets longer in its pool.
theorem exists_chain_after_eq_push {events : List Event} (h : .tick ∉ events) (n : Node) :
    ∃ raws, (n.after events).chain = n.chain.push raws := by
  induction events using List.reverseRecOn with
  | nil => exact ⟨[], by simp [after, Chain.push]⟩
  | append_singleton events event ih =>
      rw [List.mem_append, not_or, List.mem_singleton] at h
      obtain ⟨raws, hraws⟩ := ih h.1
      rw [after_concat]
      cases event with
      | tick => exact absurd rfl h.2
      | stopped cause => exact ⟨raws, hraws⟩
      | request now request =>
          rw [chain_act_request, hraws]
          exact ⟨raws ++ _, congrArg (Chain.mk _ _) (List.append_assoc _ _ _)⟩

theorem exists_chain_after_accepts {now : Timestamp} {request : Http.Request}
    (haccepts : n.Accepts now request hash) {waiting : List Event} (hwaiting : .tick ∉ waiting) :
    ∃ raw raws, n.decode raw = .ok hash ∧
      (n.after (.request now request :: waiting)).chain = (n.chain.push [raw]).push raws := by
  obtain ⟨raw, hroute, hraw⟩ := accepts_iff.mp haccepts
  obtain ⟨raws, hchain⟩ := exists_chain_after_eq_push hwaiting (n.act (.request now request))
  rw [chain_act_request, hroute] at hchain
  exact ⟨raw, raws, hraw, hchain⟩

-- The record that a tick makes stays as long as nobody hands in the transaction anew.
theorem height?_after_of_not_accepted (hpool : n.chain.pool = []) {rest : List Event}
    (hnone : ∀ before now request after, rest = before ++ .request now request :: after →
      ¬ (n.after before).Accepts now request hash) :
    (n.after rest).chain.height? hash = n.chain.height? hash := by
  refine height?_after_of_not_queued hpool rest.nil_prefix fun part _ hto => ?_
  rintro ⟨before, now, request, between, rfl, -, haccepts⟩
  obtain ⟨others, rfl⟩ := hto
  exact hnone before now request (between ++ [.tick] ++ others) (by simp) haccepts

-- A transaction that is accepted while a listing still has room for it is promised to the next
-- block, and the promise is kept: until the next tick every receipt says that the transaction is
-- to come with that block, the tick puts it there, and from then on every receipt says that it is
-- there, as long as it is not handed in again.
theorem promised_block_kept (hserving : n.Serving)
    (hroom : n.chain.head.toNat + 1 < UInt64.size) {now : Timestamp} {request : Http.Request}
    (haccepts : n.Accepts now request hash) (hshort : n.chain.pool.length < n.scanLimit.toNat)
    (hfresh : n.chain.height? hash = none) :
    let target := n.chain.head + 1
    let since := fun events => n.after (.request now request :: events)
    target.toNat = n.chain.head.toNat + 1 ∧
      ∀ waiting, .tick ∉ waiting →
        (since waiting).Attests hash ⟨.pending, target⟩ ∧
        (since waiting).produceBlock.1.height = target ∧
        hash ∈ (since waiting).produceBlock.1.included ∧
        ∀ rest,
          (∀ before now request after, rest = before ++ .request now request :: after →
            ¬ (since (waiting ++ .tick :: before)).Accepts now request hash) →
          (since (waiting ++ .tick :: rest)).Attests hash ⟨.included, target⟩ := by
  intro target since
  refine ⟨toNat_add_one hroom, fun waiting hwaiting => ?_⟩
  have hserves : ∀ events, (since events).Serving := fun events => hserving.after _
  have hdecode : (since waiting).decode = n.decode := decode_after n _
  have hlimit : (since waiting).scanLimit = n.scanLimit := scanLimit_after n _
  obtain ⟨raw, raws, hraw, hchain⟩ : ∃ raw raws, n.decode raw = .ok hash ∧
      (since waiting).chain = (n.chain.push [raw]).push raws :=
    exists_chain_after_accepts haccepts hwaiting
  have hlisted : (since waiting).chain.Listed n.decode n.scanLimit hash := by
    rw [hchain]
    exact (Chain.listed_push_self hraw hshort).push raws
  have hhead : (since waiting).chain.head = n.chain.head := by rw [hchain]; rfl
  have hindex : (since waiting).chain.height? hash = none := by rw [hchain]; exact hfresh
  have hwaits : (since waiting).chain.Waits (since waiting).decode hash := hdecode ▸ hlisted.waits
  refine ⟨fun now' request' hasks => ?_, congrArg (· + 1) hhead, ?_, ?_⟩
  · refine exists_receipt_of_found (hserves waiting) hasks ?_
    rw [outcome_resolve_of_listed hindex (hdecode ▸ hlimit ▸ hlisted), hhead,
      Issuance.nextHeight, if_pos hroom]
  · exact Chain.mem_included_iff.mpr hwaits
  · intro rest hnone now' request' hasks
    have hsplit : ∀ part,
        since (waiting ++ .tick :: part) = ((since waiting).act .tick).after part :=
      fun part => after_append n (.request now request :: waiting) (.tick :: part)
    have hrecord : ((since waiting).act .tick).chain.height? hash = some target :=
      (Chain.height?_produceBlock_of_waits hwaits).trans (congrArg (some <| · + 1) hhead)
    refine exists_receipt_of_found (hserves _) hasks (outcome_resolve_of_indexed ?_)
    simp only [hsplit] at hnone ⊢
    rw [height?_after_of_not_accepted (Chain.pool_produceBlock _ _) hnone, hrecord]

end

-- The first transaction of a chain is promised to the first block, and a second block changes
-- nothing about it.
theorem promised_first_block_kept :
    let ask := askFor oneByte
    let waiting : List Event := [.request ⟨0, 0⟩ ask]
    let since := fun events => lone.after (.request ⟨0, 0⟩ handIn :: events)
    lone.Accepts ⟨0, 0⟩ handIn oneByte ∧ lone.chain.pool.length < lone.scanLimit.toNat ∧
      lone.chain.height? oneByte = none ∧
      ∃ r r', (since waiting).receipt? ⟨0, 0⟩ ask = some r ∧
        r.payload.status = .pending ∧ r.payload.targetBlock = 1 ∧
        (since (waiting ++ [.tick, .tick])).receipt? ⟨0, 0⟩ ask = some r' ∧
        r'.payload.status = .included ∧ r'.payload.targetBlock = 1 := by
  intro ask waiting since
  have haccepts : lone.Accepts ⟨0, 0⟩ handIn oneByte := accepts_lone []
  have hfresh : lone.chain.height? oneByte = none := Std.HashMap.getElem?_empty
  obtain ⟨-, hkept⟩ := promised_block_kept serving_lone (by decide) haccepts (by decide) hfresh
  obtain ⟨hpending, -, -, hincluded⟩ := hkept waiting (by simp [waiting])
  obtain ⟨r, hr, -, hstatus, htarget, -⟩ := hpending ⟨0, 0⟩ ask (asks_lone _)
  have hquiet : ∀ before now request after,
      [Event.tick] ≠ before ++ .request now request :: after := by
    intro before now request after hsplit
    have hmem : Event.request now request ∈ [Event.tick] := by simp [hsplit]
    exact absurd (List.mem_singleton.mp hmem) nofun
  obtain ⟨r', hr', -, hstatus', htarget', -⟩ :=
    hincluded [.tick] (fun _ _ _ _ hsplit => absurd hsplit (hquiet _ _ _ _)) ⟨0, 0⟩ ask
      (asks_lone _)
  exact ⟨haccepts, by decide, hfresh, r, r', hr, hstatus, htarget, hr', hstatus', htarget'⟩

end Node

end SoftConfirm
