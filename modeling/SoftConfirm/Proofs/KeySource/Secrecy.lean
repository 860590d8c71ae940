import Mathlib.Data.List.Forall2
import SoftConfirm.Crypto.Ecdsa
import SoftConfirm.Description
import SoftConfirm.ErrorReport
import SoftConfirm.KeySource

namespace SoftConfirm

-- Errors of one variant. Of what they carry, only the length of a secret has to agree.
inductive KeyFile.Error.SameVariant : KeyFile.Error → KeyFile.Error → Prop where
  | badHex : SameVariant (.badKey .badHex) (.badKey .badHex)
  | wrongLength (got : Nat) : SameVariant (.badKey (.wrongLength got)) (.badKey (.wrongLength got))
  | badScalar : SameVariant (.badKey .badScalar) (.badKey .badScalar)
  | emptyPath : SameVariant .emptyPath .emptyPath
  | unreadable (path other : String) (fault cause : FileSystem.Fault) :
      SameVariant (.unreadable path fault) (.unreadable other cause)
  | alreadyExists (path other : String) :
      SameVariant (.alreadyExists path) (.alreadyExists other)
  | writeFailed (path other : String) (fault cause : FileSystem.Fault) :
      SameVariant (.writeFailed path fault) (.writeFailed other cause)

namespace SignerSet

-- What a set is checked for, by the addresses of its signers alone.
def check (addresses : List Address) (given : Option UInt32) :
    Except ConfigError (List Address × UInt32) :=
  if addresses = [] then .error .emptySignerSet
  else
    match firstRepeat? [] addresses with
    | some address => .error (.duplicateSigner address)
    | none => (chooseThreshold addresses.length given).map fun threshold => (addresses, threshold)

-- The part of a set that is no secret.
def outline (set : SignerSet) : List Address × UInt32 := (set.addresses, set.threshold)

theorem map_outline_ofSigners (signers : List Signer) (given : Option UInt32) :
    (ofSigners signers given).map outline = check (signers.map Signer.address) given := by
  by_cases hne : signers = []
  · rw [ofSigners, dif_pos hne, check, if_pos (by simpa using hne)]
    rfl
  · have hcheck : check (signers.map Signer.address) given =
        match firstRepeat? [] (signers.map Signer.address) with
        | some address => .error (.duplicateSigner address)
        | none => (chooseThreshold signers.length given).map fun threshold =>
            (signers.map Signer.address, threshold) := by
      rw [check, if_neg (by simpa using hne), List.length_map]
    rw [ofSigners, dif_neg hne]
    split
    · rename_i address hrepeat
      rw [hrepeat] at hcheck
      exact hcheck.symm
    · rename_i hnone
      rw [hnone] at hcheck
      split
      · rename_i e hthreshold
        rw [hthreshold] at hcheck
        exact hcheck.symm
      · rename_i threshold hthreshold
        rw [hthreshold] at hcheck
        exact hcheck.symm

theorem describe_congr {set other : SignerSet} (h : set.outline = other.outline) :
    set.describe = other.describe := by
  have haddresses : set.addresses = other.addresses := congrArg Prod.fst h
  have hthreshold : set.threshold = other.threshold := congrArg Prod.snd h
  unfold describe
  rw [haddresses, hthreshold]

end SignerSet

namespace KeySource

variable [SignatureScheme]

-- Two texts that cannot be told apart by the address of their key, or by the shape of their fault.
inductive Alike (s t : String) : Prop where
  | loaded {key other : Key} (hs : KeyFile.ofText s = .ok key) (ht : KeyFile.ofText t = .ok other)
      (haddress : key.address = other.address)
  | refused {e e' : KeyFile.Error} (hs : KeyFile.ofText s = .error e)
      (ht : KeyFile.ofText t = .error e') (hvariant : e.SameVariant e')

-- Errors about a text are about its shape only.
theorem exists_badKey_of_ofText {s : String} {e : KeyFile.Error} (h : KeyFile.ofText s = .error e) :
    ∃ cause, e = .badKey cause := by
  unfold KeyFile.ofText at h
  cases hkey : Key.ofHex s with
  | error cause =>
      rw [hkey] at h
      exact ⟨cause, (Except.error.inj h).symm⟩
  | ok key =>
      rw [hkey] at h
      cases h

theorem Alike.map_address_eq {s t : String} (h : Alike s t) :
    (KeyFile.ofText s).map Key.address = (KeyFile.ofText t).map Key.address := by
  cases h with
  | loaded hs ht haddress => rw [hs, ht, Except.map, Except.map, haddress]
  | refused hs ht hvariant =>
      obtain ⟨cause, rfl⟩ := exists_badKey_of_ofText hs
      rw [hs, ht]
      cases hvariant <;> rfl

omit [SignatureScheme] in
-- The addresses of keys that are loaded depend on the addresses of each of them only.
theorem map_address_loadFrom_cons (load : String → Except KeyFile.Error Key) (index : Nat)
    (entry : String) (rest : List String) :
    (loadFrom load index (entry :: rest)).map (List.map Key.address) =
      match (load entry).map Key.address with
      | .error cause => .error (.key index cause)
      | .ok address =>
          ((loadFrom load (index + 1) rest).map (List.map Key.address)).map (address :: ·) := by
  rw [loadFrom]
  cases load entry with
  | error cause => rfl
  | ok key => cases loadFrom load (index + 1) rest <;> rfl

theorem map_address_loadFrom {secrets others : List String}
    (h : List.Forall₂ Alike secrets others) (index : Nat) :
    (loadFrom KeyFile.ofText index secrets).map (List.map Key.address) =
      (loadFrom KeyFile.ofText index others).map (List.map Key.address) := by
  induction h generalizing index with
  | nil => rfl
  | cons hfirst _ ih =>
      rw [map_address_loadFrom_cons, map_address_loadFrom_cons, hfirst.map_address_eq, ih]

-- What is known of a set is what its addresses pass the checks with.
theorem map_outline_loadSigners (fs : FileSystem) (source : KeySource) (given : Option UInt32) :
    (source.loadSigners fs given).map SignerSet.outline =
      (source.loadKeys fs).map (List.map Key.address) >>= fun addresses =>
        SignerSet.check addresses given := by
  unfold loadSigners
  cases source.loadKeys fs with
  | error e => rfl
  | ok keys =>
      have hset := SignerSet.map_outline_ofSigners (keys.map Signer.held) given
      rw [List.map_map] at hset
      exact hset

-- Everything that is shown of an outcome: of a set its description, and of an error its message,
-- its description and its causes.
def shown : Except ConfigError SignerSet → Except (String × String × List String) String
  | .ok set => .ok set.describe
  | .error e => .error (e.message, e.describe, e.causes)

omit [SignatureScheme] in
theorem shown_congr {outcome other : Except ConfigError SignerSet}
    (h : outcome.map SignerSet.outline = other.map SignerSet.outline) :
    shown outcome = shown other := by
  cases outcome with
  | error e =>
      cases other with
      | error e' =>
          cases h
          rfl
      | ok set => cases h
  | ok set =>
      cases other with
      | error e' => cases h
      | ok other => exact congrArg Except.ok (SignerSet.describe_congr (Except.ok.inj h))

-- Whoever sees what is shown of a source of secrets and of the set that it loads, or fails to load,
-- cannot tell it from any other source with keys of the same addresses and faults of the same kind.
theorem secrets_stay_secret {secrets others : List String} (h : List.Forall₂ Alike secrets others)
    (fs : FileSystem) (given : Option UInt32) :
    (KeySource.inline secrets).describe = (KeySource.inline others).describe ∧
      shown ((KeySource.inline secrets).loadSigners fs given) =
        shown ((KeySource.inline others).loadSigners fs given) := by
  constructor
  · have hcount (secrets : List String) :
        (KeySource.inline secrets).describe = s!"InlineSecrets({secrets.length} entries)" := rfl
    rw [hcount, hcount, h.length_eq]
  · apply shown_congr
    have hkeys : ((KeySource.inline secrets).loadKeys fs).map (List.map Key.address) =
        ((KeySource.inline others).loadKeys fs).map (List.map Key.address) :=
      map_address_loadFrom h 0
    rw [map_outline_loadSigners, map_outline_loadSigners, hkeys]

end KeySource

-- One secret in two spellings, two texts that are no hex, and two of another length.
theorem KeySource.secrets_stay_secret_spellings :
    let digits := String.ofList (List.replicate 63 '0' ++ ['1'])
    let secrets := [" 0X" ++ digits ++ "\n", "zz", "abcd"]
    let others := [digits, "0x1", " 0xFFFF"]
    List.Forall₂ Alike secrets others ∧
      (KeySource.inline secrets).describe = (KeySource.inline others).describe ∧
      shown ((KeySource.inline secrets).loadSigners .empty none) =
        shown ((KeySource.inline others).loadSigners .empty none) := by
  intro digits secrets others
  let one : SecretKey := ⟨1, by decide, by decide⟩
  have hkey (s : String) (h : SecretKey.ofHex s = .ok one) :
      KeyFile.ofText s = .ok (Key.ofSecret one) := by
    simp only [KeyFile.ofText, Key.ofHex, h, Except.map, Except.mapError]
  have hfault (s : String) (e : SecretKey.Error) (h : SecretKey.ofHex s = .error e) :
      KeyFile.ofText s = .error (.badKey e) := by
    simp only [KeyFile.ofText, Key.ofHex, h, Except.map, Except.mapError]
  have halike : List.Forall₂ Alike secrets others := by
    refine .cons (.loaded (hkey _ ?_) (hkey _ ?_) rfl) (.cons (.refused (hfault _ .badHex ?_)
      (hfault _ .badHex ?_) .badHex) (.cons (.refused (hfault _ (.wrongLength 2) ?_)
        (hfault _ (.wrongLength 2) ?_) (.wrongLength 2)) .nil))
    all_goals decide +kernel
  exact ⟨halike, secrets_stay_secret halike .empty none⟩

end SoftConfirm
