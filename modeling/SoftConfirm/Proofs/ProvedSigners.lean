import Mathlib.Algebra.Group.Nat.Defs
import Mathlib.Data.List.Induction
import Mathlib.Data.List.Nodup
import Mathlib.Data.Nat.Find
import SoftConfirm.Receipt.Verification

namespace SoftConfirm.Verification

variable [SignatureScheme] {digest : Digest} {allowlist : List Address}

-- An entry that proves that an admitted address has signed.
structure Proves (digest : Digest) (allowlist : List Address) (a : Address) (e : Entry) : Prop where
  claimed : e.signer = a
  admitted : allowlist = [] ∨ a ∈ allowlist
  recovered : Signature.recover digest e.signature = .ok a

-- The place of the first entry that proves it.
structure FirstProof (digest : Digest) (allowlist : List Address) (entries : List Entry)
    (a : Address) (i : Nat) : Prop where
  here : ∃ e, entries[i]? = some e ∧ Proves digest allowlist a e
  before : ∀ j < i, ∀ e, entries[j]? = some e → ¬ Proves digest allowlist a e

-- All addresses that are proved to have signed, each once, in the order of their first proofs.
structure ProvedSigners (digest : Digest) (allowlist : List Address) (entries : List Entry)
    (signers : List Address) : Prop where
  nodup : signers.Nodup
  mem_iff : ∀ a, a ∈ signers ↔ ∃ e ∈ entries, Proves digest allowlist a e
  ordered : signers.Pairwise fun a b => ∀ i j,
    FirstProof digest allowlist entries a i → FirstProof digest allowlist entries b j → i < j

theorem counts_iff {e : Entry} :
    counts digest allowlist e ↔ Proves digest allowlist e.signer e := by
  have hby : e.signature.isBy digest e.signer ↔
      Signature.recover digest e.signature = .ok e.signer := by
    unfold Signature.isBy
    cases Signature.recover digest e.signature with
    | ok signer => simp
    | error cause => simp
  simp only [counts, Bool.and_eq_true, Bool.or_eq_true, List.isEmpty_iff, List.contains_iff_mem,
    hby]
  exact ⟨fun h => ⟨rfl, h.1, h.2⟩, fun h => ⟨h.admitted, h.recovered⟩⟩

theorem Proves.counts {a : Address} {e : Entry} (h : Proves digest allowlist a e) :
    counts digest allowlist e := by
  obtain rfl := h.claimed
  exact counts_iff.mpr h

theorem FirstProof.exists_of_mem {entries : List Entry} {a : Address}
    (h : ∃ e ∈ entries, Proves digest allowlist a e) :
    ∃ i < entries.length, FirstProof digest allowlist entries a i := by
  classical
  have hplace : ∃ i : Nat, ∃ e : Entry, entries[i]? = some e ∧ Proves digest allowlist a e := by
    obtain ⟨e, he, hp⟩ := h
    obtain ⟨i, hi⟩ := List.mem_iff_getElem?.mp he
    exact ⟨i, e, hi, hp⟩
  obtain ⟨e, he, hp⟩ := Nat.find_spec hplace
  refine ⟨Nat.find hplace, (List.getElem?_eq_some_iff.mp he).1, ⟨e, he, hp⟩, ?_⟩
  intro j hj e' he' hp'
  exact Nat.find_min hplace hj ⟨e', he', hp'⟩

theorem FirstProof.unique {entries : List Entry} {a : Address} {i j : Nat}
    (hi : FirstProof digest allowlist entries a i) (hj : FirstProof digest allowlist entries a j) :
    i = j := by
  obtain ⟨e, he, hp⟩ := hi.here
  obtain ⟨e', he', hp'⟩ := hj.here
  rcases Nat.lt_trichotomy i j with hlt | rfl | hlt
  · exact absurd hp (hj.before i hlt e he)
  · rfl
  · exact absurd hp' (hi.before j hlt e' he')

-- An entry at the end changes nothing for those who have been proved before.
theorem FirstProof.of_append {entries : List Entry} {last : Entry} {a : Address} {i : Nat}
    (hmem : ∃ e ∈ entries, Proves digest allowlist a e)
    (h : FirstProof digest allowlist (entries ++ [last]) a i) :
    i < entries.length ∧ FirstProof digest allowlist entries a i := by
  obtain ⟨k, hk, hfirst⟩ := exists_of_mem hmem
  obtain ⟨e, he, hp⟩ := hfirst.here
  have happend : FirstProof digest allowlist (entries ++ [last]) a k := by
    refine ⟨⟨e, by rwa [List.getElem?_append_left hk], hp⟩, fun j hj e' he' => ?_⟩
    rw [List.getElem?_append_left (by omega)] at he'
    exact hfirst.before j hj e' he'
  obtain rfl := h.unique happend
  exact ⟨hk, hfirst⟩

theorem FirstProof.length_le {entries : List Entry} {last : Entry} {a : Address} {i : Nat}
    (hnot : ¬ ∃ e ∈ entries, Proves digest allowlist a e)
    (h : FirstProof digest allowlist (entries ++ [last]) a i) : entries.length ≤ i := by
  by_contra hlt
  obtain ⟨e, he, hp⟩ := h.here
  rw [List.getElem?_append_left (by omega)] at he
  exact hnot ⟨e, List.mem_of_getElem? he, hp⟩

theorem tally_append_singleton (entries : List Entry) (last : Entry) :
    tally digest allowlist (entries ++ [last]) =
      collect digest allowlist (tally digest allowlist entries) last := by
  simp [tally]

theorem ProvedSigners.collect {entries : List Entry} {signers : List Address}
    (h : ProvedSigners digest allowlist entries signers) (last : Entry) :
    ProvedSigners digest allowlist (entries ++ [last])
      (collect digest allowlist signers last) := by
  have hsome : ∀ a, (∃ e ∈ entries ++ [last], Proves digest allowlist a e) ↔
      a ∈ signers ∨ Proves digest allowlist a last := by
    intro a
    simp only [List.mem_append, List.mem_singleton, or_and_right, exists_or, exists_eq_left,
      h.mem_iff]
  have hordered : signers.Pairwise fun a b => ∀ i j,
      FirstProof digest allowlist (entries ++ [last]) a i →
      FirstProof digest allowlist (entries ++ [last]) b j → i < j := by
    refine h.ordered.imp_of_mem fun {a b} ha hb hab i j hi hj => ?_
    exact hab i j (hi.of_append ((h.mem_iff a).mp ha)).2 (hj.of_append ((h.mem_iff b).mp hb)).2
  unfold Verification.collect
  split
  · rename_i hnew
    obtain ⟨hcounts, hnot⟩ : counts digest allowlist last ∧ last.signer ∉ signers := by
      simpa using hnew
    have hproves := counts_iff.mp hcounts
    refine ⟨?_, fun a => ?_, ?_⟩
    · refine List.nodup_append.mpr ⟨h.nodup, List.nodup_singleton _, fun a ha b hb hab => ?_⟩
      exact hnot (List.mem_singleton.mp hb ▸ hab ▸ ha)
    · rw [hsome, List.mem_append, List.mem_singleton]
      exact or_congr_right ⟨fun ha => ha ▸ hproves, fun hp => hp.claimed.symm⟩
    · refine List.pairwise_append.mpr ⟨hordered, List.pairwise_singleton _ _, ?_⟩
      intro a ha b hb i j hi hj
      obtain rfl := List.mem_singleton.mp hb
      have hlt := (hi.of_append ((h.mem_iff a).mp ha)).1
      have hle := hj.length_le (fun hm => hnot ((h.mem_iff _).mpr hm))
      omega
  · rename_i hold
    refine ⟨h.nodup, fun a => ?_, hordered⟩
    rw [hsome]
    refine ⟨.inl, fun ha => ha.elim id fun hp => ?_⟩
    obtain rfl := hp.claimed
    simpa [hp.counts] using hold

theorem tally_proved (entries : List Entry) :
    ProvedSigners digest allowlist entries (tally digest allowlist entries) := by
  induction entries using List.reverseRecOn with
  | nil => exact ⟨List.nodup_nil, by simp [tally], List.Pairwise.nil⟩
  | append_singleton entries last ih =>
      rw [tally_append_singleton]
      exact ih.collect last

theorem nodup_tally (entries : List Entry) : (tally digest allowlist entries).Nodup :=
  (tally_proved entries).nodup

theorem mem_tally_iff {entries : List Entry} {a : Address} :
    a ∈ tally digest allowlist entries ↔ ∃ e ∈ entries, Proves digest allowlist a e :=
  (tally_proved entries).mem_iff a

-- Two lists of the same addresses in the same order are the same list.
theorem ProvedSigners.unique {entries : List Entry} {signers others : List Address}
    (h : ProvedSigners digest allowlist entries signers)
    (h' : ProvedSigners digest allowlist entries others) : signers = others := by
  have hperm : signers.Perm others :=
    (List.perm_ext_iff_of_nodup h.nodup h'.nodup).mpr fun a =>
      (h.mem_iff a).trans (h'.mem_iff a).symm
  refine hperm.eq_of_pairwise ?_ h.ordered h'.ordered
  intro a b ha hb hab hba
  obtain ⟨i, -, hi⟩ := FirstProof.exists_of_mem ((h.mem_iff a).mp ha)
  obtain ⟨j, -, hj⟩ := FirstProof.exists_of_mem ((h'.mem_iff b).mp hb)
  have hij := hab i j hi hj
  have hji := hba j i hj hi
  omega

omit [SignatureScheme] in
theorem toNat_effectiveThreshold (r : Receipt) :
    (effectiveThreshold r).toNat =
      if r.threshold = 0 then min r.entries.length (2 ^ 32 - 1) else r.threshold.toNat := by
  unfold effectiveThreshold
  split
  · have hlt : min r.entries.length (UInt32.size - 1) < 2 ^ 32 := by
      unfold UInt32.size
      omega
    rw [UInt32.toNat_ofNat', Nat.mod_eq_of_lt hlt]
    rfl
  · rfl

-- Verification compares the digest first, then the threshold with the number of entries, and then
-- counts the proved signers, all of them and each of them once.
theorem verify_counts_proved (r : Receipt) (allowlist : List Address) :
    ∃ threshold : UInt32,
      threshold.toNat =
        (if r.threshold = 0 then min r.entries.length (2 ^ 32 - 1) else r.threshold.toNat) ∧
      ∃ signers, ProvedSigners r.payload.digest allowlist r.entries signers ∧
        (∀ others, ProvedSigners r.payload.digest allowlist r.entries others → others = signers) ∧
        r.verify allowlist =
          if r.payload.digest ≠ r.digest then
            .error (.digestMismatch r.digest r.payload.digest)
          else if r.entries.length < threshold.toNat then
            .error (.thresholdExceedsSigners threshold r.entries.length)
          else if threshold.toNat ≤ signers.length then
            .ok ⟨r.payload.digest, threshold, signers⟩
          else .error (.insufficientSignatures signers.length threshold) := by
  refine ⟨effectiveThreshold r, toNat_effectiveThreshold r, tally r.payload.digest allowlist
    r.entries, tally_proved r.entries, fun others h => h.unique (tally_proved r.entries), ?_⟩
  simp only [Receipt.verify, ← Nat.not_lt, ite_not]

end SoftConfirm.Verification
