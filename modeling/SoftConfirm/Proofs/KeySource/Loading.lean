import Mathlib.Algebra.Group.Nat.Defs
import Mathlib.Data.List.Forall2
import Mathlib.Data.List.Induction
import Mathlib.Data.List.Nodup
import SoftConfirm.Proofs.KeySource.Entries
import SoftConfirm.Proofs.SignerSet

namespace SoftConfirm

namespace KeySource

variable {load : String → Except KeyFile.Error Key} {index : Nat}
  {entries before after : List String} {entry : String} {keys : List Key} {cause : KeyFile.Error}

-- Keys are loaded one for each entry, in the order of the entries.
theorem loadFrom_eq_ok_iff :
    loadFrom load index entries = .ok keys ↔
      List.Forall₂ (fun entry key => load entry = .ok key) entries keys := by
  induction entries generalizing index keys with
  | nil =>
      rw [loadFrom, List.forall₂_nil_left_iff]
      exact ⟨fun h => (Except.ok.inj h).symm, fun h => congrArg Except.ok h.symm⟩
  | cons entry rest ih =>
      rw [loadFrom]
      cases hentry : load entry with
      | error cause =>
          refine ⟨nofun, fun h => ?_⟩
          cases h with
          | cons hkey hrest => exact absurd (hentry.symm.trans hkey) nofun
      | ok key =>
          constructor
          · intro h
            cases hrest : loadFrom load (index + 1) rest with
            | error e =>
                simp only [hrest] at h
                exact absurd h nofun
            | ok others =>
                simp only [hrest] at h
                obtain rfl := Except.ok.inj h
                exact .cons hentry (ih.mp hrest)
          · intro h
            cases h with
            | cons hkey hrest =>
                obtain rfl := Except.ok.inj (hentry.symm.trans hkey)
                simp only [ih.mpr hrest]
                rfl

-- The first entry that fails is reported under its own place, whatever comes after it.
theorem loadFrom_of_first_error (hbefore : ∀ e ∈ before, ∃ key, load e = .ok key)
    (herror : load entry = .error cause) :
    loadFrom load index (before ++ entry :: after) =
      .error (.key (index + before.length) cause) := by
  induction before generalizing index with
  | nil =>
      rw [List.nil_append, loadFrom, herror]
      rfl
  | cons first before ih =>
      obtain ⟨key, hkey⟩ := hbefore first List.mem_cons_self
      have hrest := fun e he => hbefore e (List.mem_cons_of_mem first he)
      rw [List.cons_append, loadFrom, hkey]
      simp only [ih hrest, Except.map, List.length_cons]
      rw [Nat.add_assoc, Nat.add_comm 1]

theorem loads_or_first_error (load : String → Except KeyFile.Error Key) (entries : List String) :
    (∃ keys, List.Forall₂ (fun entry key => load entry = .ok key) entries keys) ∨
      ∃ before entry after cause, entries = before ++ entry :: after ∧
        (∀ e ∈ before, ∃ key, load e = .ok key) ∧ load entry = .error cause := by
  induction entries with
  | nil => exact .inl ⟨[], .nil⟩
  | cons first rest ih =>
      cases hfirst : load first with
      | error cause => exact .inr ⟨[], first, rest, cause, rfl, nofun, hfirst⟩
      | ok key =>
          rcases ih with ⟨keys, hkeys⟩ | ⟨before, entry, after, cause, rfl, hbefore, herror⟩
          · exact .inl ⟨key :: keys, .cons hfirst hkeys⟩
          · refine .inr ⟨first :: before, entry, after, cause, rfl, fun e he => ?_, herror⟩
            rcases List.mem_cons.mp he with rfl | he
            · exact ⟨key, hfirst⟩
            · exact hbefore e he

end KeySource

namespace SignerSet

variable {signers : List Signer} {given : Option UInt32} {seen before after : List Address}
  {a : Address}

theorem firstRepeat?_of_first_repeat (hbefore : before.Nodup) (hnew : ∀ b ∈ before, b ∉ seen)
    (hrepeat : a ∈ seen ∨ a ∈ before) :
    firstRepeat? seen (before ++ a :: after) = some a := by
  induction before generalizing seen with
  | nil =>
      have hseen : a ∈ seen := hrepeat.resolve_right List.not_mem_nil
      rw [List.nil_append, firstRepeat?, if_pos hseen]
  | cons first before ih =>
      obtain ⟨hfirst, hbefore⟩ := List.nodup_cons.mp hbefore
      rw [List.cons_append, firstRepeat?, if_neg (hnew first List.mem_cons_self)]
      apply ih hbefore
      · intro b hb
        rw [List.mem_cons, not_or]
        exact ⟨fun h => hfirst (h ▸ hb), hnew b (List.mem_cons_of_mem first hb)⟩
      · rcases hrepeat with hseen | hmem
        · exact .inl (List.mem_cons_of_mem first hseen)
        · rcases List.mem_cons.mp hmem with rfl | hmem
          · exact .inl List.mem_cons_self
          · exact .inr hmem

-- Addresses are distinct, or one of them is the first to repeat another one.
theorem nodup_or_first_repeat (addresses : List Address) :
    addresses.Nodup ∨ ∃ before a after, addresses = before ++ a :: after ∧ before.Nodup ∧
      a ∈ before := by
  induction addresses using List.reverseRecOn with
  | nil => exact .inl List.nodup_nil
  | append_singleton addresses last ih =>
      rcases ih with hnodup | ⟨before, a, after, rfl, hbefore, hrepeat⟩
      · by_cases hlast : last ∈ addresses
        · exact .inr ⟨addresses, last, [], rfl, hnodup, hlast⟩
        · left
          apply List.nodup_append.mpr
          refine ⟨hnodup, List.nodup_singleton last, fun a ha b hb heq => hlast ?_⟩
          rwa [← List.mem_singleton.mp hb, ← heq]
      · exact .inr ⟨before, a, after ++ [last], by simp, hbefore, hrepeat⟩

theorem ofSigners_of_firstRepeat?_eq_some
    (h : firstRepeat? [] (signers.map Signer.address) = some a) :
    ofSigners signers given = .error (.duplicateSigner a) := by
  have hne : signers ≠ [] := by
    rintro rfl
    cases h
  rw [ofSigners, dif_neg hne]
  split
  · rename_i b hb
    rw [Option.some.inj (hb.symm.trans h)]
  · rename_i hnone
    cases hnone.symm.trans h

theorem ofSigners_of_chooseThreshold_error {e : ConfigError} (hne : signers ≠ [])
    (hdistinct : (signers.map Signer.address).Nodup)
    (h : chooseThreshold signers.length given = .error e) : ofSigners signers given = .error e := by
  have hnone := firstRepeat?_eq_none hdistinct fun _ _ => List.not_mem_nil
  rw [ofSigners, dif_neg hne]
  split
  · rename_i b hb
    cases hb.symm.trans hnone
  · split
    · rename_i e' he'
      rw [Except.error.inj (he'.symm.trans h)]
    · rename_i t ht
      cases ht.symm.trans h

-- A set that lists these keys, with the threshold that is given or the number of the keys.
structure MadeOf (set : SignerSet) (keys : List Key) (given : Option UInt32) : Prop where
  signers : set.signers = keys.map Signer.held
  addresses : set.addresses = keys.map (·.address)
  threshold : set.threshold.toNat = given.elim keys.length UInt32.toNat

-- Whether a threshold suits a number of keys. Without one there may be as many as can be required.
def ThresholdFits (count : Nat) : Option UInt32 → Prop
  | none => count ≤ 2 ^ 32 - 1
  | some threshold => 1 ≤ threshold.toNat ∧ threshold.toNat ≤ count

end SignerSet

namespace KeySource

open SignerSet (ThresholdFits MadeOf)

variable [SignatureScheme] {fs : FileSystem} {source : KeySource} {given : Option UInt32}
  {keys : List Key}

-- The keys of all entries, one for each, in their order.
def Loads (fs : FileSystem) (source : KeySource) (keys : List Key) : Prop :=
  List.Forall₂ (fun entry key => Yields fs source entry (.ok key)) source.entries keys

structure Accepted (fs : FileSystem) (source : KeySource) (given : Option UInt32)
    (keys : List Key) : Prop where
  loads : source.Loads fs keys
  ne_nil : keys ≠ []
  distinct : (keys.map (·.address)).Nodup
  fits : ThresholdFits keys.length given

-- What is wrong with a source or its threshold. Each fault comes after those before it have been
-- ruled out.
inductive LoadFault (fs : FileSystem) (source : KeySource) (given : Option UInt32) :
    ConfigError → Prop where
  | key {before after : List String} {entry : String} {cause : KeyFile.Error}
      (hentries : source.entries = before ++ entry :: after)
      (hbefore : ∀ e ∈ before, ∃ key, Yields fs source e (.ok key))
      (hentry : Yields fs source entry (.error cause)) :
      LoadFault fs source given (.key before.length cause)
  | emptySignerSet (hentries : source.entries = []) : LoadFault fs source given .emptySignerSet
  | duplicateSigner {keys : List Key} {before after : List Address} {a : Address}
      (hloads : source.Loads fs keys) (haddresses : keys.map (·.address) = before ++ a :: after)
      (hbefore : before.Nodup) (hrepeat : a ∈ before) :
      LoadFault fs source given (.duplicateSigner a)
  | zeroThreshold {keys : List Key} (hloads : source.Loads fs keys) (hne : keys ≠ [])
      (hdistinct : (keys.map (·.address)).Nodup) (hgiven : given = some 0) :
      LoadFault fs source given (.invalidThreshold "0")
  | tooManyKeys {keys : List Key} (hloads : source.Loads fs keys)
      (hdistinct : (keys.map (·.address)).Nodup) (hgiven : given = none)
      (hmany : 2 ^ 32 - 1 < keys.length) :
      LoadFault fs source given (.invalidThreshold s!"{keys.length} signers")
  | thresholdExceedsSigners {keys : List Key} {threshold : UInt32}
      (hloads : source.Loads fs keys) (hne : keys ≠ [])
      (hdistinct : (keys.map (·.address)).Nodup) (hgiven : given = some threshold)
      (hexceeds : keys.length < threshold.toNat) :
      LoadFault fs source given (.thresholdExceedsSigners threshold keys.length)

theorem loads_iff :
    source.Loads fs keys ↔
      List.Forall₂ (fun entry key => source.loadEntry fs entry = .ok key) source.entries keys := by
  simp only [Loads, loadEntry_eq_iff]

theorem Loads.loadSigners_eq (h : source.Loads fs keys) :
    source.loadSigners fs given = SignerSet.ofKeys keys given := by
  have hkeys : source.loadKeys fs = .ok keys := loadFrom_eq_ok_iff.mpr (loads_iff.mp h)
  rw [loadSigners, hkeys]
  rfl

omit [SignatureScheme] in
theorem map_address_held (keys : List Key) :
    (keys.map Signer.held).map Signer.address = keys.map (·.address) := by
  rw [List.map_map]
  rfl

theorem Accepted.exists_set (h : Accepted fs source given keys) :
    ∃ set, source.loadSigners fs given = .ok set ∧ MadeOf set keys given := by
  have hpos : 0 < keys.length := List.length_pos_iff.mpr h.ne_nil
  have hthreshold : ∃ threshold : UInt32, threshold.toNat = given.elim keys.length UInt32.toNat ∧
      0 < threshold.toNat ∧ threshold.toNat ≤ keys.length := by
    have hfits := h.fits
    cases given with
    | none =>
        have hlt : keys.length < 2 ^ 32 := Nat.lt_of_le_pred (by decide) hfits
        have htoNat : (UInt32.ofNat keys.length).toNat = keys.length := by
          rw [UInt32.toNat_ofNat', Nat.mod_eq_of_lt hlt]
        exact ⟨UInt32.ofNat keys.length, htoNat, htoNat.symm ▸ hpos, Nat.le_of_eq htoNat⟩
    | some threshold => exact ⟨threshold, rfl, hfits.1, hfits.2⟩
  obtain ⟨threshold, hgiven, hlow, hhigh⟩ := hthreshold
  have haddresses := map_address_held keys
  let set : SignerSet := {
    signers := keys.map Signer.held
    threshold
    signers_ne_nil := by simpa using h.ne_nil
    addresses_nodup := by
      rw [haddresses]
      exact h.distinct
    threshold_pos := hlow
    threshold_le := by rwa [List.length_map] }
  have hset : SignerSet.ofKeys keys given = .ok set := by
    refine SignerSet.ofSigners_eq_ok_iff.mpr ⟨rfl, ?_⟩
    rw [List.length_map]
    exact hgiven
  exact ⟨set, h.loads.loadSigners_eq.trans hset, rfl, haddresses, hgiven⟩

theorem LoadFault.loadSigners_eq {e : ConfigError} (h : LoadFault fs source given e) :
    source.loadSigners fs given = .error e := by
  cases h with
  | @key before after entry cause hentries hbefore hentry =>
      have hkeys : source.loadKeys fs = .error (.key (0 + before.length) cause) := by
        rw [loadKeys, hentries]
        refine loadFrom_of_first_error (fun e he => ?_) hentry.loadEntry_eq
        exact (hbefore e he).imp fun key hkey => hkey.loadEntry_eq
      rw [loadSigners, hkeys, Nat.zero_add]
      rfl
  | emptySignerSet hentries =>
      have hloads : source.Loads fs [] := by
        rw [Loads, hentries]
        exact .nil
      rw [hloads.loadSigners_eq]
      rfl
  | duplicateSigner hloads haddresses hbefore hrepeat =>
      rw [hloads.loadSigners_eq]
      apply SignerSet.ofSigners_of_firstRepeat?_eq_some
      rw [map_address_held, haddresses]
      exact SignerSet.firstRepeat?_of_first_repeat hbefore (fun _ _ => List.not_mem_nil)
        (.inr hrepeat)
  | zeroThreshold hloads hne hdistinct hgiven =>
      rw [hloads.loadSigners_eq, hgiven]
      refine SignerSet.ofSigners_of_chooseThreshold_error (by simpa using hne) ?_ rfl
      rwa [map_address_held]
  | @tooManyKeys keys hloads hdistinct hgiven hmany =>
      rw [hloads.loadSigners_eq, hgiven]
      have hne : keys ≠ [] := by
        rintro rfl
        exact absurd hmany (by decide)
      have hsize : ¬ keys.length < UInt32.size := by
        unfold UInt32.size
        omega
      refine SignerSet.ofSigners_of_chooseThreshold_error (by simpa using hne) ?_ ?_
      · rwa [map_address_held]
      · rw [List.length_map, SignerSet.chooseThreshold, if_neg hsize]
  | @thresholdExceedsSigners keys threshold hloads hne hdistinct hgiven hexceeds =>
      rw [hloads.loadSigners_eq, hgiven]
      have hzero : threshold ≠ 0 := by
        rintro rfl
        exact absurd hexceeds (Nat.not_lt_zero _)
      refine SignerSet.ofSigners_of_chooseThreshold_error (by simpa using hne) ?_ ?_
      · rwa [map_address_held]
      · rw [List.length_map, SignerSet.chooseThreshold, if_neg hzero, if_pos hexceeds]

theorem accepted_or_loadFault (fs : FileSystem) (source : KeySource) (given : Option UInt32) :
    (∃ keys, Accepted fs source given keys) ∨ ∃ e, LoadFault fs source given e := by
  rcases loads_or_first_error (source.loadEntry fs) source.entries with
    ⟨keys, hkeys⟩ | ⟨before, entry, after, cause, hentries, hbefore, hentry⟩
  · have hloads : source.Loads fs keys := loads_iff.mpr hkeys
    by_cases hne : keys = []
    · subst hne
      exact .inr ⟨_, .emptySignerSet (List.forall₂_nil_right_iff.mp hkeys)⟩
    rcases SignerSet.nodup_or_first_repeat (keys.map (·.address)) with
      hdistinct | ⟨before, a, after, haddresses, hbefore, hrepeat⟩
    · cases given with
      | none =>
          by_cases hmany : keys.length ≤ 2 ^ 32 - 1
          · exact .inl ⟨keys, hloads, hne, hdistinct, hmany⟩
          · exact .inr ⟨_, .tooManyKeys hloads hdistinct rfl (Nat.lt_of_not_le hmany)⟩
      | some threshold =>
          by_cases hzero : threshold = 0
          · subst hzero
            exact .inr ⟨_, .zeroThreshold hloads hne hdistinct rfl⟩
          by_cases hexceeds : keys.length < threshold.toNat
          · exact .inr ⟨_, .thresholdExceedsSigners hloads hne hdistinct rfl hexceeds⟩
          · have hpos : 1 ≤ threshold.toNat := by
              rw [Nat.one_le_iff_ne_zero]
              exact fun h => hzero (UInt32.toNat_inj.mp h)
            exact .inl ⟨keys, hloads, hne, hdistinct, hpos, Nat.le_of_not_lt hexceeds⟩
    · exact .inr ⟨_, .duplicateSigner hloads haddresses hbefore hrepeat⟩
  · refine .inr ⟨_, .key hentries (fun e he => ?_) (loadEntry_eq_iff.mp hentry)⟩
    exact (hbefore e he).imp fun key hkey => loadEntry_eq_iff.mp hkey

-- A source loads exactly if all entries are keys, there is one, their addresses are distinct, and
-- the threshold suits their number. The set then lists all of them, and otherwise the first fault
-- is reported.
theorem loadSigners_ok_or_first_fault (fs : FileSystem) (source : KeySource)
    (given : Option UInt32) :
    ((∃ set, source.loadSigners fs given = .ok set) ↔
      ∃ keys, Accepted fs source given keys) ∧
    (∀ set, source.loadSigners fs given = .ok set ↔
      ∃ keys, Accepted fs source given keys ∧ MadeOf set keys given) ∧
    ∀ e, source.loadSigners fs given = .error e ↔ LoadFault fs source given e := by
  have hok : ∀ set, source.loadSigners fs given = .ok set ↔
      ∃ keys, Accepted fs source given keys ∧ MadeOf set keys given := by
    intro set
    constructor
    · intro h
      rcases accepted_or_loadFault fs source given with ⟨keys, haccepted⟩ | ⟨e, hfault⟩
      · obtain ⟨made, hmade, hmadeOf⟩ := haccepted.exists_set
        obtain rfl := Except.ok.inj (hmade.symm.trans h)
        exact ⟨keys, haccepted, hmadeOf⟩
      · exact absurd (hfault.loadSigners_eq.symm.trans h) nofun
    · rintro ⟨keys, haccepted, hmade⟩
      rw [haccepted.loads.loadSigners_eq]
      refine SignerSet.ofSigners_eq_ok_iff.mpr ⟨hmade.signers, ?_⟩
      rw [List.length_map]
      exact hmade.threshold
  refine ⟨⟨?_, ?_⟩, hok, fun e => ⟨?_, LoadFault.loadSigners_eq⟩⟩
  · rintro ⟨set, hset⟩
    obtain ⟨keys, haccepted, -⟩ := (hok set).mp hset
    exact ⟨keys, haccepted⟩
  · rintro ⟨keys, haccepted⟩
    obtain ⟨set, hset, -⟩ := haccepted.exists_set
    exact ⟨set, hset⟩
  · intro h
    rcases accepted_or_loadFault fs source given with ⟨keys, haccepted⟩ | ⟨other, hfault⟩
    · obtain ⟨set, hset, -⟩ := haccepted.exists_set
      exact absurd (hset.symm.trans h) nofun
    · obtain rfl := Except.error.inj (hfault.loadSigners_eq.symm.trans h)
      exact hfault

end KeySource

end SoftConfirm
