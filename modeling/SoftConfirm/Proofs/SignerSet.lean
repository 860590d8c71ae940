import SoftConfirm.KeySource

namespace SoftConfirm

namespace SignerSet

theorem head?_addresses (set : SignerSet) : set.addresses.head? = some set.primary := by
  rw [addresses, List.head?_map, List.head?_eq_some_head set.signers_ne_nil]
  rfl

theorem firstRepeat?_eq_none {seen rest : List Address} (hnodup : rest.Nodup)
    (hnew : ∀ a ∈ rest, a ∉ seen) : firstRepeat? seen rest = none := by
  induction rest generalizing seen with
  | nil => rfl
  | cons address rest ih =>
      obtain ⟨hfresh, hnodup⟩ := List.nodup_cons.mp hnodup
      rw [firstRepeat?, if_neg (hnew address List.mem_cons_self)]
      refine ih hnodup fun a ha => ?_
      rw [List.mem_cons, not_or]
      exact ⟨fun h => hfresh (h ▸ ha), hnew a (List.mem_cons_of_mem address ha)⟩

-- A threshold is the given one, or the number of signers, and always within that number.
theorem chooseThreshold_eq_ok_iff {count : Nat} {given : Option UInt32} {threshold : UInt32}
    (hcount : 0 < count) :
    chooseThreshold count given = .ok threshold ↔
      threshold.toNat = given.elim count UInt32.toNat ∧
        0 < threshold.toNat ∧ threshold.toNat ≤ count := by
  constructor
  · intro h
    refine ⟨?_, chooseThreshold_bounds hcount h⟩
    cases given with
    | none =>
        simp only [chooseThreshold] at h
        split at h
        · rename_i hsmall
          obtain rfl := Except.ok.inj h
          rw [UInt32.toNat_ofNat', Nat.mod_eq_of_lt hsmall]
          rfl
        · cases h
    | some other =>
        simp only [chooseThreshold] at h
        split at h
        · cases h
        · split at h
          · cases h
          · exact congrArg UInt32.toNat (Except.ok.inj h).symm
  · rintro ⟨hgiven, hpos, hle⟩
    cases given with
    | none =>
        obtain rfl : threshold.toNat = count := hgiven
        rw [chooseThreshold, if_pos threshold.toNat_lt_size, UInt32.ofNat_toNat]
    | some other =>
        obtain rfl : threshold = other := UInt32.toNat_inj.mp hgiven
        have hne : threshold ≠ 0 := by
          rintro rfl
          exact absurd hpos (by decide)
        rw [chooseThreshold, if_neg hne, if_neg (Nat.not_lt.mpr hle)]

-- Signers and a threshold make a set exactly if there is one that has them.
theorem ofSigners_eq_ok_iff {signers : List Signer} {given : Option UInt32} {set : SignerSet} :
    ofSigners signers given = .ok set ↔
      set.signers = signers ∧ set.threshold.toNat = given.elim signers.length UInt32.toNat := by
  constructor
  · intro h
    rw [ofSigners] at h
    split at h
    · exact absurd h nofun
    · rename_i hne
      split at h
      · exact absurd h nofun
      · split at h
        · exact absurd h nofun
        · rename_i ht
          obtain rfl := Except.ok.inj h
          exact ⟨rfl, ((chooseThreshold_eq_ok_iff (List.length_pos_iff.mpr hne)).mp ht).1⟩
  · rintro ⟨rfl, hthreshold⟩
    have hrepeat := firstRepeat?_eq_none set.addresses_nodup fun _ _ => List.not_mem_nil
    have hchoose := (chooseThreshold_eq_ok_iff (List.length_pos_iff.mpr set.signers_ne_nil)).mpr
      ⟨hthreshold, set.threshold_pos, set.threshold_le⟩
    rw [ofSigners, dif_neg set.signers_ne_nil]
    split
    · rename_i address h
      exact absurd (h.symm.trans hrepeat) nofun
    · split
      · rename_i e h
        exact absurd (h.symm.trans hchoose) nofun
      · rename_i threshold h
        obtain rfl := Except.ok.inj (h.symm.trans hchoose)
        rfl

end SignerSet

-- A source loads exactly if all its keys do and make a set with the threshold.
theorem KeySource.loadSigners_eq_ok_iff [SignatureScheme] {fs : FileSystem} {source : KeySource}
    {given : Option UInt32} {set : SignerSet} :
    source.loadSigners fs given = .ok set ↔
      ∃ keys, source.loadKeys fs = .ok keys ∧ set.signers = keys.map Signer.held ∧
        set.threshold.toNat = given.elim keys.length UInt32.toNat := by
  have hset : ∀ keys, SignerSet.ofKeys keys given = .ok set ↔
      set.signers = keys.map Signer.held ∧
        set.threshold.toNat = given.elim keys.length UInt32.toNat := fun keys => by
    rw [SignerSet.ofKeys, SignerSet.ofSigners_eq_ok_iff, List.length_map]
  rw [loadSigners]
  cases source.loadKeys fs with
  | error e => exact ⟨nofun, nofun⟩
  | ok keys =>
      refine (hset keys).trans ⟨fun h => ⟨keys, rfl, h⟩, ?_⟩
      rintro ⟨other, hother, h⟩
      obtain rfl := Except.ok.inj hother
      exact h

end SoftConfirm
