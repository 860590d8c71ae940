import SoftConfirm.Settings

/-!
Signer sets: distinct signers in the order of their configuration, and how many valid signatures
a client should ask for.
-/

namespace SoftConfirm

-- Something that signs digests: a key held here, or a device reached through a handle.
inductive Signer where
  | held (key : Key)
  | remote (address : Address) (handle : Nat)
  deriving DecidableEq

def Signer.address : Signer → Address
  | .held key => key.address
  | .remote address _ => address

structure SignerSet where
  signers : List Signer
  threshold : UInt32
  signers_ne_nil : signers ≠ []
  addresses_nodup : (signers.map Signer.address).Nodup
  threshold_pos : 0 < threshold.toNat
  threshold_le : threshold.toNat ≤ signers.length

namespace SignerSet

def addresses (set : SignerSet) : List Address := set.signers.map Signer.address

def size (set : SignerSet) : Nat := set.signers.length

def primary (set : SignerSet) : Address := (set.signers.head set.signers_ne_nil).address

-- The earliest address that repeats one before it.
def firstRepeat? : (seen rest : List Address) → Option Address
  | _, [] => none
  | seen, address :: rest =>
      if address ∈ seen then some address else firstRepeat? (address :: seen) rest

theorem nodup_of_firstRepeat? {seen rest : List Address} (h : firstRepeat? seen rest = none) :
    rest.Nodup ∧ ∀ a ∈ rest, a ∉ seen := by
  induction rest generalizing seen with
  | nil => simp
  | cons address rest ih =>
      simp only [firstRepeat?] at h
      split at h
      · simp at h
      · rename_i hne
        obtain ⟨hd, hs⟩ := ih h
        refine ⟨List.nodup_cons.mpr ⟨fun hm => (hs _ hm) (by simp), hd⟩, ?_⟩
        intro a ha
        rcases List.mem_cons.mp ha with rfl | ha
        · exact hne
        · exact fun hm => hs a ha (List.mem_cons_of_mem _ hm)

-- The number of required signatures: the given one, or that of the signers.
def chooseThreshold (count : Nat) : Option UInt32 → Except ConfigError UInt32
  | none =>
      if count < UInt32.size then .ok (UInt32.ofNat count)
      else .error (.invalidThreshold s!"{count} signers")
  | some threshold =>
      if threshold = 0 then .error (.invalidThreshold "0")
      else if count < threshold.toNat then .error (.thresholdExceedsSigners threshold count)
      else .ok threshold

theorem chooseThreshold_bounds {count : Nat} {given : Option UInt32} {threshold : UInt32}
    (hc : 0 < count) (h : chooseThreshold count given = .ok threshold) :
    0 < threshold.toNat ∧ threshold.toNat ≤ count := by
  cases given with
  | none =>
      simp only [chooseThreshold] at h
      split at h
      · rename_i hlt
        obtain rfl := Except.ok.inj h
        have : (UInt32.ofNat count).toNat = count := by
          rw [UInt32.toNat_ofNat', Nat.mod_eq_of_lt hlt]
        omega
      · simp at h
  | some t =>
      simp only [chooseThreshold] at h
      split at h
      · simp at h
      · rename_i hne
        split at h
        · simp at h
        · rename_i hle
          obtain rfl := Except.ok.inj h
          have : t.toNat ≠ 0 := fun h0 => hne (UInt32.toNat_inj.mp h0)
          omega

-- Checks the parts of a set in turn: that there are signers, that they are distinct, and that
-- the threshold is within their number.
def ofSigners (signers : List Signer) (threshold : Option UInt32) :
    Except ConfigError SignerSet :=
  if hne : signers = [] then .error .emptySignerSet
  else
    match hr : firstRepeat? [] (signers.map Signer.address) with
    | some address => .error (.duplicateSigner address)
    | none =>
        match ht : chooseThreshold signers.length threshold with
        | .error e => .error e
        | .ok t =>
            have bounds := chooseThreshold_bounds (List.length_pos_iff.mpr hne) ht
            .ok ⟨signers, t, hne, (nodup_of_firstRepeat? hr).1, bounds.1, bounds.2⟩

def ofKeys (keys : List Key) (threshold : Option UInt32) : Except ConfigError SignerSet :=
  ofSigners (keys.map Signer.held) threshold

-- A description that shows addresses only.
def describe (set : SignerSet) : String :=
  "SignerSet \x7b signers: [" ++
    String.intercalate ", " (set.addresses.map (·.labelled)) ++
    s!"], threshold: {set.threshold.toNat} \x7d"

end SignerSet

end SoftConfirm
