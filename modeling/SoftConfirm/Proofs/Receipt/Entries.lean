import SoftConfirm.Proofs.Json.Reading
import SoftConfirm.Receipt.Wire

namespace SoftConfirm

namespace Receipt

variable {payload : Payload} {digest : Digest} {entries : List Entry} {threshold : UInt32}
  {r : Receipt}

-- Entries make a receipt exactly if there is a first one.
theorem ofEntries_eq_ok_iff :
    ofEntries payload digest entries threshold = .ok r ↔
      r.entries = entries ∧ r.payload = payload ∧ r.digest = digest ∧ r.threshold = threshold := by
  cases entries with
  | nil => exact ⟨nofun, fun h => absurd h.1 nofun⟩
  | cons first rest =>
      constructor
      · intro h
        obtain rfl := Except.ok.inj h
        exact ⟨rfl, rfl, rfl, rfl⟩
      · rintro ⟨hentries, rfl, rfl, rfl⟩
        obtain ⟨rfl, rfl⟩ := List.cons_eq_cons.mp hentries
        rfl

theorem exists_ofEntries_iff :
    (∃ r, ofEntries payload digest entries threshold = .ok r) ↔ entries ≠ [] := by
  cases entries with
  | nil => exact ⟨nofun, fun h => absurd rfl h⟩
  | cons first rest => exact ⟨fun _ => List.cons_ne_nil first rest, fun _ => ⟨_, rfl⟩⟩

namespace Draft

variable {primary : Entry} {signers : List Address} {signatures : List Signature} {d : Draft}

-- The pair and the lists amount to entries that start with the pair.
theorem pairUp_eq_ok_iff :
    pairUp primary signers signatures = .ok entries ↔
      signers.length = signatures.length ∧ entries.head? = some primary ∧
        entries = if signers = [] then [primary] else List.zipWith Entry.mk signers signatures := by
  unfold pairUp
  by_cases hlength : signers.length = signatures.length
  · rw [if_neg (not_not_intro hlength)]
    cases signers with
    | nil =>
        simp only [List.zipWith_nil_left, Except.ok.injEq, hlength, true_and, if_true]
        constructor
        · rintro rfl
          exact ⟨rfl, rfl⟩
        · exact fun h => h.2.symm
    | cons signer signers =>
        obtain ⟨signature, signatures, rfl⟩ := List.exists_cons_of_length_eq_add_one hlength.symm
        simp only [List.zipWith_cons_cons, hlength, true_and, List.cons_ne_nil, if_false]
        split
        · rename_i hfirst
          rw [Except.ok.injEq]
          constructor
          · rintro rfl
            exact ⟨congrArg some hfirst, rfl⟩
          · exact fun h => h.2.symm
        · rename_i hfirst
          refine ⟨nofun, ?_⟩
          rintro ⟨hhead, rfl⟩
          exact absurd (Option.some.inj hhead) hfirst
  · rw [if_pos hlength]
    exact ⟨nofun, fun h => absurd h.1 hlength⟩

-- The columns of a draft that amounts to a receipt.
structure Holds (d : Draft) (r : Receipt) : Prop where
  status : d.status = some r.payload.status
  chainId : d.chainId = some r.payload.chainId
  evmChainId : d.evmChainId = some r.payload.evmChainId
  txHash : d.txHash = some r.payload.txHash
  targetBlock : d.targetBlock = some r.payload.targetBlock
  issuedAt : d.issuedAt = some r.payload.issuedAt
  signer : d.signer = some r.primary.signer
  digest : d.digest = some r.digest
  signature : d.signature = some r.primary.signature
  entries : pairUp r.primary (d.signers.getD []) (d.signatures.getD []) = .ok r.entries
  threshold : d.threshold.getD 0 = r.threshold

theorem toReceipt_eq_ok_iff : d.toReceipt = .ok r ↔ d.Holds r := by
  constructor
  · intro h
    obtain ⟨status, hstatus, h⟩ := exists_of_bind_eq_ok h
    obtain ⟨chainId, hchainId, h⟩ := exists_of_bind_eq_ok h
    obtain ⟨evmChainId, hevmChainId, h⟩ := exists_of_bind_eq_ok h
    obtain ⟨txHash, htxHash, h⟩ := exists_of_bind_eq_ok h
    obtain ⟨targetBlock, htargetBlock, h⟩ := exists_of_bind_eq_ok h
    obtain ⟨issuedAt, hissuedAt, h⟩ := exists_of_bind_eq_ok h
    obtain ⟨signer, hsigner, h⟩ := exists_of_bind_eq_ok h
    obtain ⟨digest, hdigest, h⟩ := exists_of_bind_eq_ok h
    obtain ⟨signature, hsignature, h⟩ := exists_of_bind_eq_ok h
    obtain ⟨entries, hentries, h⟩ := exists_of_bind_eq_ok (mapError_eq_ok_iff.mp h)
    obtain ⟨rfl, hpayload, rfl, hthreshold⟩ := ofEntries_eq_ok_iff.mp h
    have hprimary : r.primary = ⟨signer, signature⟩ :=
      Option.some.inj (pairUp_eq_ok_iff.mp hentries).2.1
    simp only [Json.need_eq_ok_iff]
      at hstatus hchainId hevmChainId htxHash htargetBlock hissuedAt hsigner hdigest hsignature
    constructor
    case digest => exact hdigest
    case threshold => exact hthreshold.symm
    case entries => rw [hprimary, hentries]
    all_goals simp only [hpayload, hprimary]; assumption
  · intro h
    simp only [toReceipt, Json.need_eq_ok_iff.mpr h.status, Json.need_eq_ok_iff.mpr h.chainId,
      Json.need_eq_ok_iff.mpr h.evmChainId, Json.need_eq_ok_iff.mpr h.txHash,
      Json.need_eq_ok_iff.mpr h.targetBlock, Json.need_eq_ok_iff.mpr h.issuedAt,
      Json.need_eq_ok_iff.mpr h.signer, Json.need_eq_ok_iff.mpr h.digest,
      Json.need_eq_ok_iff.mpr h.signature, bind, Except.bind, h.entries, h.threshold]
    rfl

end Draft

theorem pairUp_of_toReceipt {d : Draft} (h : d.toReceipt = .ok r) :
    d.signer = some r.primary.signer ∧ d.signature = some r.primary.signature ∧
      Draft.pairUp r.primary (d.signers.getD []) (d.signatures.getD []) = .ok r.entries :=
  have hd := Draft.toReceipt_eq_ok_iff.mp h
  ⟨hd.signer, hd.signature, hd.entries⟩

theorem exists_draft_of_ofTerm {origin : Json.Origin} {term : Json.Term}
    (h : ofTerm origin term = .ok r) : ∃ d : Draft, d.toReceipt = .ok r := by
  have hread : Draft.shape.read origin Json.nestingLimit term = .ok r := h
  exact Json.Shape.exists_finish_of_read hread

end Receipt

end SoftConfirm
