import SoftConfirm.Crypto.Ecdsa
import SoftConfirm.Node.Live
import SoftConfirm.Proofs.Outcomes
import SoftConfirm.Proofs.ProvedSigners
import SoftConfirm.Proofs.Receipt.RoundTrip
import SoftConfirm.Proofs.SignerSet
import SoftConfirm.Simulation

namespace SoftConfirm

-- What is asked of a scheme for a secret and a digest: one of the two recovery numbers that
-- receipts can carry, and a signature that recovers to the public key of the secret.
structure SignatureScheme.Recovers [SignatureScheme] (secret : SecretKey)
    (digest : Digest) : Prop where
  number : (sign secret digest).2 = 0 ∨ (sign secret digest).2 = 1
  recovered :
    recover digest (sign secret digest).1 ((sign secret digest).2 == 1) = some (publicKey secret)

section

variable [SignatureScheme] {σ : Type} {digest : Digest} {allowlist : List Address}

-- Surroundings in which the keys that are held here sign by themselves, whatever else there is.
def Surroundings.withHeldKeys (outside : Surroundings σ) : Surroundings σ := fun call s =>
  match call with
  | .sign (.held key) digest => (.ok (Signature.ofDigest key digest), s)
  | call => outside call s

theorem Node.surroundings_withHeldKeys : Node.surroundings.withHeldKeys = Node.surroundings := by
  funext call s
  cases call with
  | sign signer digest => cases signer <;> rfl
  | signers | check | query => rfl

theorem LiveNode.surroundings_withHeldKeys :
    LiveNode.surroundings.withHeldKeys = LiveNode.surroundings := by
  funext call s
  cases call with
  | sign signer digest => cases signer <;> rfl
  | signers | check | query => rfl

theorem Simulation.surroundings_withHeldKeys :
    Simulation.surroundings.withHeldKeys = Simulation.surroundings := by
  funext call s
  cases call with
  | sign signer digest => cases signer <;> rfl
  | signers | check | query => rfl

-- Reading the sixty-five bytes of a signature gives back its two parts.
theorem Signature.recover_ofDigest {secret : SecretKey}
    (h : SignatureScheme.Recovers secret digest) :
    recover digest (ofDigest (Key.ofSecret secret) digest) =
      .ok (Key.ofSecret secret).address := by
  rcases hsigned : SignatureScheme.sign secret digest with ⟨compact, number⟩
  have hnumber : recoveryParity? number = some (number == 1) := by
    refine recoveryParity?_of_number ?_
    simpa only [hsigned] using h.number
  have hrecovered : SignatureScheme.recover digest compact (number == 1) =
      some (SignatureScheme.publicKey secret) := by
    simpa only [hsigned] using h.recovered
  have hbytes : ofDigest (Key.ofSecret secret) digest = ⟨compact.bytes ++ [number]⟩ := by
    simp only [ofDigest, Key.ofSecret, hsigned]
  rw [hbytes, recover_concat]
  simp only [hnumber, hrecovered]
  rfl

-- An entry that proves its claim.
def Entry.Genuine (digest : Digest) (e : Entry) : Prop :=
  Signature.recover digest e.signature = .ok e.signer

namespace Verification

theorem counts_of_genuine {e : Entry} (h : e.Genuine digest)
    (hallow : allowlist = [] ∨ e.signer ∈ allowlist) : counts digest allowlist e :=
  counts_iff.mpr ⟨rfl, hallow, h⟩

-- Entries of distinct signers that all count are all found, in their order.
theorem tally_of_genuine {entries : List Entry} (h : ∀ e ∈ entries, e.Genuine digest)
    (hnodup : (entries.map (·.signer)).Nodup)
    (hallow : allowlist = [] ∨ entries.map (·.signer) ⊆ allowlist) :
    tally digest allowlist entries = entries.map (·.signer) := by
  induction entries using List.reverseRecOn with
  | nil => rfl
  | append_singleton entries last ih =>
      rw [List.map_append, List.map_singleton] at hnodup hallow ⊢
      obtain ⟨hbefore, -, hnew⟩ := List.nodup_append.mp hnodup
      have hlast : last.signer ∉ entries.map (·.signer) := fun hmem =>
        hnew _ hmem _ (List.mem_singleton_self _) rfl
      have hcounts : counts digest allowlist last := by
        refine counts_of_genuine (h last (by simp)) (hallow.imp_right fun hsub => hsub ?_)
        exact List.mem_append_right _ (List.mem_singleton_self _)
      rw [tally_append_singleton,
        ih (fun e he => h e (List.mem_append_left _ he)) hbefore
          (hallow.imp_right (List.Subset.trans (List.subset_append_left _ _))),
        collect, if_pos]
      simpa only [hcounts, Bool.true_and, Bool.not_eq_true', List.contains_eq_mem,
        decide_eq_false_iff_not] using hlast

end Verification

namespace Receipt

-- Both texts of a receipt are read as one that a client verifies with this result.
def VerifiesOffline (r : Receipt) (allowlist : List Address) (result : Verification) : Prop :=
  ∀ text ∈ [r.toJson.render, r.toJson.canonical.render],
    ∃ back, ofText text = .ok back ∧ back.verify allowlist = .ok result

theorem verifiesOffline_of_verify {r : Receipt} {result : Verification}
    (h : r.verify allowlist = .ok result) : r.VerifiesOffline allowlist result := by
  intro text htext
  refine ⟨r, ?_, h⟩
  rcases List.mem_cons.mp htext with rfl | htext
  · exact ofText_render r
  · obtain rfl := List.mem_singleton.mp htext
    exact ofText_render_canonical r

-- A receipt of genuine entries of distinct signers verifies if it does not ask for more than these.
theorem verify_of_genuine {r : Receipt} (hdigest : r.digest = r.payload.digest)
    (h : ∀ e ∈ r.entries, e.Genuine r.digest) (hnodup : r.signers.Nodup)
    (hallow : allowlist = [] ∨ r.signers ⊆ allowlist)
    (hthreshold : r.threshold = 0 ∨ r.threshold.toNat ≤ r.entries.length) :
    r.verify allowlist =
      .ok ⟨r.digest, Verification.effectiveThreshold r, r.signers⟩ := by
  have htally : Verification.tally r.payload.digest allowlist r.entries = r.signers := by
    rw [← hdigest]
    exact Verification.tally_of_genuine h hnodup hallow
  have hlen : r.signers.length = r.entries.length := List.length_map _
  have hle : (Verification.effectiveThreshold r).toNat ≤ r.entries.length := by
    rw [Verification.toNat_effectiveThreshold]
    split
    · exact Nat.min_le_left _ _
    · rename_i hne
      exact hthreshold.resolve_left hne
  rw [verify, if_neg (not_not_intro hdigest.symm), if_neg (Nat.not_lt.mpr hle), htally,
    if_neg (Nat.not_lt.mpr (hlen.symm ▸ hle)), hdigest]

end Receipt

omit [SignatureScheme] in
theorem SignerSet.signers_of_ofKeys {keys : List Key} {given : Option UInt32} {set : SignerSet}
    (h : ofKeys keys given = .ok set) : set.signers = keys.map Signer.held :=
  (ofSigners_eq_ok_iff.mp h).1

omit [SignatureScheme] in
theorem SignerSet.ofSigners_of_firstRepeat? {signers : List Signer} {given : Option UInt32}
    {threshold : UInt32} (hne : signers ≠ [])
    (hrepeat : firstRepeat? [] (signers.map Signer.address) = none)
    (hthreshold : chooseThreshold signers.length given = .ok threshold) :
    ∃ set, ofSigners signers given = .ok set ∧ set.signers = signers ∧
      set.threshold = threshold := by
  obtain ⟨hgiven, hpos, hle⟩ :=
    (chooseThreshold_eq_ok_iff (List.length_pos_iff.mpr hne)).mp hthreshold
  have hnodup := (nodup_of_firstRepeat? hrepeat).1
  exact ⟨⟨signers, threshold, hne, hnodup, hpos, hle⟩, ofSigners_eq_ok_iff.mpr ⟨rfl, hgiven⟩, rfl,
    rfl⟩

end

namespace Issuance

section

variable [SignatureScheme] {σ : Type}

-- What surroundings with held keys may answer: anything, but a held key gives its own signature.
def KeysSign (call : Call) (a : call.Answer) : Prop :=
  match call, a with
  | .sign (.held key) digest, a => a = .ok (Signature.ofDigest key digest)
  | _, _ => True

theorem keysSign_withHeldKeys (outside : Surroundings σ) (call : Call) (s : σ) :
    KeysSign call (outside.withHeldKeys call s).1 := by
  cases call with
  | sign signer digest =>
      cases signer with
      | held key => exact rfl
      | remote address handle => trivial
  | signers | check | query => trivial

theorem genuine_of_signedBy {secrets : List SecretKey} {digest : Digest} {entries : List Entry}
    (hscheme : ∀ secret ∈ secrets, SignatureScheme.Recovers secret digest)
    (h : List.Forall₂ (SignedBy KeysSign digest) ((secrets.map Key.ofSecret).map Signer.held)
      entries) : ∀ e ∈ entries, e.Genuine digest := by
  rw [List.map_map, List.forall₂_map_left_iff] at h
  intro e he
  obtain ⟨i, hi, rfl⟩ := List.mem_iff_getElem.mp he
  have hi' : i < secrets.length := h.length_eq ▸ hi
  obtain ⟨haddress, hsignature⟩ := h.get hi' hi
  have hsignature : entries[i].signature = Signature.ofDigest (Key.ofSecret secrets[i]) digest :=
    Except.ok.inj hsignature
  rw [Entry.Genuine, hsignature, show entries[i].signer = _ from haddress]
  exact Signature.recover_ofDigest (hscheme _ (List.getElem_mem hi'))

-- Whatever a set of held keys issues, a client verifies from the text alone, and so is any choice
-- of its entries under a threshold that the choice can meet.
theorem issued_verifies_offline (outside : Surroundings σ) (s : σ) {secrets : List SecretKey}
    {given : Option UInt32} {set : SignerSet}
    (hset : SignerSet.ofKeys (secrets.map Key.ofSecret) given = .ok set)
    (hactive : (outside .signers s).1 = some set) (backend : Option Backend) (limit : UInt64)
    (hash : TxHash) (issuedAt : UInt64) {r : Receipt}
    (hr : ((issue backend limit hash issuedAt).run.run outside.withHeldKeys s).1 = .ok r)
    (hscheme : ∀ secret ∈ secrets, SignatureScheme.Recovers secret r.digest) :
    (∀ allowlist, allowlist = [] ∨ set.addresses ⊆ allowlist →
      r.VerifiesOffline allowlist ⟨r.digest, set.threshold, set.addresses⟩) ∧
    ∀ selected : List Entry, selected ≠ [] → selected.Nodup → selected ⊆ r.entries →
      ∀ threshold : UInt32, threshold = 0 ∨ threshold.toNat ≤ selected.length →
        ∃ part, Receipt.ofEntries r.payload r.digest selected threshold = .ok part ∧
          ∃ required : UInt32,
            required.toNat =
              (if threshold = 0 then min selected.length (2 ^ 32 - 1) else threshold.toNat) ∧
            ∀ allowlist, allowlist = [] ∨ selected.map (·.signer) ⊆ allowlist →
              part.VerifiesOffline allowlist ⟨r.digest, required, selected.map (·.signer)⟩ := by
  have hissued : IssuedBy KeysSign set r := by
    have hensures : (issueFrom (some set) backend limit hash issuedAt).Ensures KeysSign _ :=
      ensures_issueFrom set backend limit hash issuedAt
    refine hensures.run (keysSign_withHeldKeys outside) (outside .signers s).2 r ?_
    rw [← hactive]
    exact hr
  have hgenuine : ∀ e ∈ r.entries, e.Genuine r.digest :=
    genuine_of_signedBy hscheme (SignerSet.signers_of_ofKeys hset ▸ hissued.entries)
  have hsigners : r.signers = set.addresses := hissued.signers_eq
  have hnodup : r.signers.Nodup := hsigners ▸ set.addresses_nodup
  have hsize : r.entries.length = set.signers.length := hissued.entries.length_eq.symm
  constructor
  · intro allowlist hallow
    have hverify := Receipt.verify_of_genuine hissued.digest hgenuine hnodup (hsigners ▸ hallow)
      (.inr (by rw [hissued.threshold, hsize]; exact set.threshold_le))
    have hne : r.threshold ≠ 0 := by
      intro h0
      have hpos := set.threshold_pos
      rw [← hissued.threshold, h0] at hpos
      exact absurd hpos (by decide)
    rw [Verification.effectiveThreshold, if_neg hne, hissued.threshold, hsigners] at hverify
    exact Receipt.verifiesOffline_of_verify hverify
  · intro selected hne hdistinct hsub threshold hthreshold
    obtain ⟨primary, others, rfl⟩ := List.exists_cons_of_ne_nil hne
    refine ⟨_, rfl, _, Verification.toNat_effectiveThreshold
      ⟨r.payload, r.digest, threshold, primary, others⟩, fun allowlist hallow => ?_⟩
    -- Entries of the receipt with one signer are one entry.
    have hinj : ∀ e ∈ primary :: others, ∀ e' ∈ primary :: others,
        e.signer = e'.signer → e = e' := fun e he e' he' heq =>
      List.inj_on_of_nodup_map hnodup (hsub he) (hsub he') heq
    exact Receipt.verifiesOffline_of_verify (Receipt.verify_of_genuine hissued.digest
      (fun e he => hgenuine e (hsub he)) (hdistinct.map_on hinj) hallow hthreshold)

end

-- The curve, with signatures that were recorded for two secrets in place of fresh ones.
@[reducible]
def recordedScheme : SignatureScheme where
  publicKey := Ecdsa.publicKey
  sign secret _ :=
    let parts : Ecdsa.Parts :=
      if secret.scalar = 1 then
        ⟨0x146d5bfd22ecd9bf62a64553f9fbe3496856d587d2fac849f2ae44d2c9822ea4,
          0x678ae993a5770b5b52be51f38a322746c8264d6adc2d8e401b35b54a7286241e, 1⟩
      else
        ⟨0x6bfc855a3439754ead7e305a4f805773fcc5748e808f7d41166f2899b570324b,
          0x0097196c41c016c2bc384ec4c0377aa794f4260ee316bd1425475f4cd1515c9a, 0⟩
    (parts.compact, UInt8.ofNat parts.recovery)
  recover := Ecdsa.recover

-- Two signers, one of whom is enough, and a receipt that is cut down to the second of them.
theorem issued_verifies_offline_recorded :
    letI := recordedScheme
    let secrets : List SecretKey := [⟨1, by decide, by decide⟩, ⟨2, by decide, by decide⟩]
    let backend : Backend := ⟨⟨"ynx_test-1", 9001⟩, .identity⟩
    ∃ set r part, ∃ last : Entry,
      SignerSet.ofKeys (secrets.map Key.ofSecret) (some 1) = .ok set ∧
      ((issue (some backend) 1 .zero 0).run.run (settled set).withHeldKeys ()).1 = .ok r ∧
      (∀ secret ∈ secrets, SignatureScheme.Recovers secret r.digest) ∧
      r.VerifiesOffline set.addresses ⟨r.digest, 1, set.addresses⟩ ∧
      r.others = [last] ∧ Receipt.ofEntries r.payload r.digest [last] 0 = .ok part ∧
      part.VerifiesOffline [] ⟨r.digest, 1, [last.signer]⟩ := by
  intro secrets backend
  let := recordedScheme
  have hrepeat : SignerSet.firstRepeat? []
      (((secrets.map Key.ofSecret).map Signer.held).map Signer.address) = none := by
    decide +kernel
  have hthreshold : SignerSet.chooseThreshold 2 (some 1) = .ok 1 := by decide
  obtain ⟨⟨_, _, hne, hnodup, hpos, hle⟩, hset, rfl, rfl⟩ :=
    SignerSet.ofSigners_of_firstRepeat? (by simp [secrets]) hrepeat hthreshold
  let set : SignerSet := ⟨_, 1, hne, hnodup, hpos, hle⟩
  let attested := payload backend.context .zero ⟨.included, 1⟩ 0
  have hnumber : ∀ secret ∈ secrets,
      (recordedScheme.sign secret attested.digest).2 = 0 ∨
        (recordedScheme.sign secret attested.digest).2 = 1 := by
    decide
  have hrecovered : ∀ secret ∈ secrets,
      recordedScheme.recover attested.digest (recordedScheme.sign secret attested.digest).1
        ((recordedScheme.sign secret attested.digest).2 == 1) =
          some (recordedScheme.publicKey secret) := by
    decide +kernel
  have hscheme : ∀ secret ∈ secrets, SignatureScheme.Recovers secret attested.digest :=
    fun secret hsecret => ⟨hnumber secret hsecret, hrecovered secret hsecret⟩
  have hr : ((issue (some backend) 1 .zero 0).run.run (settled set).withHeldKeys ()).1 =
      .ok ⟨attested, attested.digest, 1, _, [_]⟩ := rfl
  obtain ⟨hwhole, hparts⟩ :=
    issued_verifies_offline (settled set) () hset rfl (some backend) 1 .zero 0 hr hscheme
  obtain ⟨part, hpart, required, hrequired, hverifies⟩ :=
    hparts [_] (List.cons_ne_nil _ _) (List.nodup_singleton _) (List.subset_cons_self _ _) 0
      (.inl rfl)
  obtain rfl : required = 1 := UInt32.toNat_inj.mp hrequired
  exact ⟨set, _, part, _, hset, hr, hscheme, hwhole _ (.inr (List.Subset.refl _)), rfl, hpart,
    hverifies [] (.inl rfl)⟩

end Issuance

end SoftConfirm
