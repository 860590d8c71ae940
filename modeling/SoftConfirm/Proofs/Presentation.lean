import Mathlib.Data.List.Forall2
import SoftConfirm.Crypto.Ecdsa
import SoftConfirm.Proofs.ProvedSigners

namespace SoftConfirm

-- Sixty-five bytes and the same with 27 more in the recovery number, which was 0 or 1.
inductive Signature.Shifted : Signature → Signature → Prop where
  | shift {scalars : Bytes} {number : UInt8} (hlength : scalars.length = 64)
      (hnumber : number = 0 ∨ number = 1) :
      Shifted ⟨scalars ++ [number]⟩ ⟨scalars ++ [number + 27]⟩

-- The same claim, and its signature as it was or with the recovery number shifted.
structure Entry.Reencoded (e e' : Entry) : Prop where
  signer : e'.signer = e.signer
  signature : e'.signature = e.signature ∨ e.signature.Shifted e'.signature

-- Receipts that differ in nothing but their entries.
structure Receipt.SameTerms (r r' : Receipt) : Prop where
  payload : r'.payload = r.payload
  digest : r'.digest = r.digest
  threshold : r'.threshold = r.threshold

section

variable [SignatureScheme] {digest : Digest}

theorem Signature.Shifted.recover_eq {signature other : Signature}
    (h : signature.Shifted other) : recover digest other = recover digest signature := by
  cases h with
  | @shift scalars number hlength hnumber =>
      let compact : CompactSignature := ⟨scalars, hlength⟩
      have hplain := recoveryParity?_of_number hnumber
      have hshifted : recoveryParity? (number + 27) = some (number == 1) := by
        rcases hnumber with rfl | rfl <;> decide
      apply (recover_concat digest compact (number + 27)).trans
      apply Eq.trans ?_ (recover_concat digest compact number).symm
      rw [hshifted, hplain]

theorem Entry.Reencoded.counts_eq {allowlist : List Address} {e e' : Entry} (h : e.Reencoded e') :
    Verification.counts digest allowlist e' = Verification.counts digest allowlist e := by
  have hrecover : e'.signature.recover digest = e.signature.recover digest := by
    cases h.signature with
    | inl hsame => rw [hsame]
    | inr hshifted => exact hshifted.recover_eq
  rw [Verification.counts, Verification.counts, Signature.isBy, Signature.isBy, h.signer, hrecover]

end

namespace Verification

-- The same results but for the order of the signers.
inductive Alike : Except Error Verification → Except Error Verification → Prop where
  | verified {digest : Digest} {threshold : UInt32} {signers others : List Address}
      (hsigners : signers.Perm others) :
      Alike (.ok ⟨digest, threshold, signers⟩) (.ok ⟨digest, threshold, others⟩)
  | failed (e : Error) : Alike (.error e) (.error e)

theorem effectiveThreshold_congr {r r' : Receipt} (hterms : r.SameTerms r')
    (hlength : r'.entries.length = r.entries.length) :
    effectiveThreshold r' = effectiveThreshold r := by
  rw [effectiveThreshold, effectiveThreshold, hterms.threshold, hlength]

section

variable [SignatureScheme] {digest : Digest} {allowlist : List Address}
  {entries others : List Entry} {r r' : Receipt}

theorem tally_perm (h : entries.Perm others) :
    (tally digest allowlist entries).Perm (tally digest allowlist others) := by
  apply (List.perm_ext_iff_of_nodup (nodup_tally entries) (nodup_tally others)).mpr
  intro a
  simp only [mem_tally_iff, h.mem_iff]

theorem tally_reencoded (h : List.Forall₂ Entry.Reencoded entries others) :
    tally digest allowlist others = tally digest allowlist entries := by
  -- The induction is on the entries, for whatever signers have been found before them.
  have hfrom : ∀ found, others.foldl (collect digest allowlist) found =
      entries.foldl (collect digest allowlist) found := by
    induction h with
    | nil => exact fun found => rfl
    | cons hhead htail ih =>
        intro found
        rw [List.foldl_cons, List.foldl_cons, ih, collect, collect, hhead.counts_eq, hhead.signer]
  exact hfrom []

-- More entries prove what the old ones did, and what the further ones prove.
theorem mem_tally_of_perm {extra : List Entry} (h : (entries ++ extra).Perm others) (a : Address) :
    a ∈ tally digest allowlist others ↔
      a ∈ tally digest allowlist entries ∨ ∃ e ∈ extra, Proves digest allowlist a e := by
  simp only [mem_tally_iff, ← h.mem_iff, List.mem_append, or_and_right, exists_or]

theorem verify_eq_ok_iff {v : Verification} :
    r.verify allowlist = .ok v ↔
      r.payload.digest = r.digest ∧ (effectiveThreshold r).toNat ≤ r.entries.length ∧
        (effectiveThreshold r).toNat ≤ (tally r.payload.digest allowlist r.entries).length ∧
        ⟨r.payload.digest, effectiveThreshold r,
          tally r.payload.digest allowlist r.entries⟩ = v := by
  rw [← not_lt, ← not_lt, Receipt.verify]
  by_cases hdigest : r.payload.digest = r.digest
  · by_cases hlength : r.entries.length < (effectiveThreshold r).toNat
    · simp [hdigest, hlength]
    · by_cases hvalid : (tally r.digest allowlist r.entries).length < (effectiveThreshold r).toNat
      · simp [hdigest, hlength, hvalid]
      · simp [hdigest, hlength, hvalid]
  · simp [hdigest]

-- Two receipts with equal terms and equally many entries fare alike if they prove the same signers.
theorem alike_of_tally_perm (hterms : r.SameTerms r')
    (hlength : r'.entries.length = r.entries.length)
    (htally : (tally r.payload.digest allowlist r.entries).Perm
      (tally r.payload.digest allowlist r'.entries)) :
    Alike (r.verify allowlist) (r'.verify allowlist) := by
  have hvalid := htally.length_eq
  rw [Receipt.verify, Receipt.verify, effectiveThreshold_congr hterms hlength, hterms.payload,
    hterms.digest, hlength]
  dsimp only
  rw [hvalid]
  split
  · exact .failed _
  · split
    · exact .failed _
    · split
      · exact .failed _
      · exact .verified htally

theorem verify_reencoded (hterms : r.SameTerms r')
    (h : List.Forall₂ Entry.Reencoded r.entries r'.entries) :
    r'.verify allowlist = r.verify allowlist := by
  have hlength : r'.entries.length = r.entries.length := h.length_eq.symm
  rw [Receipt.verify, Receipt.verify, effectiveThreshold_congr hterms hlength, hterms.payload,
    hterms.digest, hlength, tally_reencoded h]

-- A stated threshold that has been met is met by more entries as well.
theorem verify_padded (hterms : r.SameTerms r') (hstated : r.threshold ≠ 0) {extra : List Entry}
    (h : (r.entries ++ extra).Perm r'.entries) {v : Verification}
    (hverify : r.verify allowlist = .ok v) :
    r'.verify allowlist =
      .ok ⟨v.digest, v.threshold, tally r.payload.digest allowlist r'.entries⟩ := by
  obtain ⟨hdigest, hlength, hvalid, rfl⟩ := verify_eq_ok_iff.mp hverify
  have hthreshold : effectiveThreshold r' = effectiveThreshold r := by
    rw [effectiveThreshold, effectiveThreshold, hterms.threshold, if_neg hstated, if_neg hstated]
  have hlonger : r.entries.length ≤ r'.entries.length := by
    have hlength := h.length_eq
    rw [List.length_append] at hlength
    omega
  have hmore : (tally r.payload.digest allowlist r.entries).length ≤
      (tally r.payload.digest allowlist r'.entries).length := by
    apply (nodup_tally r.entries).length_le_of_subset
    intro a ha
    exact (mem_tally_of_perm h a).mpr (.inl ha)
  rw [verify_eq_ok_iff, hthreshold, hterms.payload, hterms.digest]
  exact ⟨hdigest, Nat.le_trans hlength hlonger, Nat.le_trans hvalid hmore, rfl⟩

-- The order of the entries and the spelling of recovery numbers do not matter, and further entries
-- take nothing from a receipt that verifies: they can only add the signers that they prove.
theorem verify_regardless_of_presentation (allowlist : List Address) {r r' : Receipt}
    (hterms : r.SameTerms r') :
    (r.entries.Perm r'.entries → Alike (r.verify allowlist) (r'.verify allowlist)) ∧
      (List.Forall₂ Entry.Reencoded r.entries r'.entries →
        r'.verify allowlist = r.verify allowlist) ∧
      ∀ extra v, r.threshold ≠ 0 → (r.entries ++ extra).Perm r'.entries →
        r.verify allowlist = .ok v →
          ∃ signers, r'.verify allowlist = .ok ⟨v.digest, v.threshold, signers⟩ ∧
            signers.Nodup ∧ v.validSigners ⊆ signers ∧
              ∀ a, a ∈ signers ↔
                a ∈ v.validSigners ∨ ∃ e ∈ extra, Proves r.digest allowlist a e := by
  refine ⟨fun h => ?_, verify_reencoded hterms, fun extra v hstated h hverify => ?_⟩
  · exact alike_of_tally_perm hterms h.length_eq.symm (tally_perm h)
  · have hpadded := verify_padded hterms hstated h hverify
    obtain ⟨hdigest, -, -, rfl⟩ := verify_eq_ok_iff.mp hverify
    have hmem : ∀ a, a ∈ tally r.payload.digest allowlist r'.entries ↔
        a ∈ tally r.payload.digest allowlist r.entries ∨
          ∃ e ∈ extra, Proves r.payload.digest allowlist a e := mem_tally_of_perm h
    refine ⟨_, hpadded, nodup_tally r'.entries, fun a ha => (hmem a).mpr (.inl ha), ?_⟩
    rw [← hdigest]
    exact hmem

end

-- One signer and a false claim, turned around, then spelled with 28, then among further entries of
-- which only the second signer's adds anything.
theorem verify_regardless_of_presentation_recorded :
    let payload : Payload :=
      ⟨"ynx_test-1", 9001, ⟨List.replicate 32 0xaa, rfl⟩, .pending, 101, 1700000000⟩
    let one : Address := ⟨Bytes.bigEndian 20 0xf39fd6e51aad88f6f4ce6ab8827279cfffb92266, rfl⟩
    let two : Address := ⟨Bytes.bigEndian 20 0x70997970c51812dc3a010c7d01b50e0d17dc79c8, rfl⟩
    let byOne : Ecdsa.Parts :=
      ⟨0x849e08d983ad5d17e89aa09a353c32cd568e3f4a2de597a82079d8b582e52db3,
        0x00829d8ba38725cc8d9878d3f13679fd5dbf9fed6c621fd26fdbc47fb6eddbd5, 1⟩
    let byTwo : Ecdsa.Parts :=
      ⟨0x93791016f55cbc0931f9ac0a578d7e188f544394d804c37b912a184bb373944b,
        0x6a8039d1dbd63361f14b89a41de9e18ab3064b64549567e0d2513769ae10ae77, 0⟩
    let genuine : Entry := ⟨one, ⟨byOne.compact.bytes ++ [1]⟩⟩
    let claim : Entry := ⟨two, ⟨byOne.compact.bytes ++ [1]⟩⟩
    let shifted : Entry := ⟨one, ⟨byOne.compact.bytes ++ [28]⟩⟩
    let extra : List Entry := [⟨two, ⟨[0xff]⟩⟩, shifted, ⟨two, ⟨byTwo.compact.bytes ++ [0]⟩⟩]
    let receipt := Receipt.mk payload payload.digest 1
    (receipt genuine [claim]).verify [] = .ok ⟨payload.digest, 1, [one]⟩ ∧
      Alike ((receipt genuine [claim]).verify []) ((receipt claim [genuine]).verify []) ∧
      (receipt shifted [claim]).verify [] = (receipt genuine [claim]).verify [] ∧
      ∃ signers, (receipt genuine (extra ++ [claim])).verify [] =
          .ok ⟨payload.digest, 1, signers⟩ ∧ signers.Nodup ∧ [one] ⊆ signers ∧
        ∀ a, a ∈ signers ↔ a ∈ [one] ∨ ∃ e ∈ extra, Proves payload.digest [] a e := by
  intro payload one two byOne byTwo genuine claim shifted extra receipt
  have hverify : (receipt genuine [claim]).verify [] = .ok ⟨payload.digest, 1, [one]⟩ := by
    decide +kernel
  have hterms : ∀ primary others,
      (receipt genuine [claim]).SameTerms (receipt primary others) :=
    fun primary others => ⟨rfl, rfl, rfl⟩
  have hshifted : genuine.Reencoded shifted :=
    ⟨rfl, .inr (.shift byOne.compact.length_bytes (.inr rfl))⟩
  have hturned := (verify_regardless_of_presentation [] (hterms claim [genuine])).1
  have hspelled := (verify_regardless_of_presentation [] (hterms shifted [claim])).2.1
  have hpadded := (verify_regardless_of_presentation [] (hterms genuine (extra ++ [claim]))).2.2
  have hinserted : ([genuine, claim] ++ extra).Perm (genuine :: (extra ++ [claim])) :=
    .cons genuine List.perm_append_comm
  exact ⟨hverify, hturned (.swap _ _ _), hspelled (.cons hshifted (.cons ⟨rfl, .inl rfl⟩ .nil)),
    hpadded extra _ (by decide) hinserted hverify⟩

end Verification

end SoftConfirm
