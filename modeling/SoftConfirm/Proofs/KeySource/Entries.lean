import SoftConfirm.KeySource
import SoftConfirm.Proofs.Spelling

namespace SoftConfirm

namespace SecretKey

open Secp256k1 (order)

variable {s : String} {bytes : Bytes} {result : Except Error SecretKey}

-- What a text comes to as a secret. Its digits have to spell a scalar of the curve on thirty-two
-- bytes.
inductive Reads (s : String) : Except Error SecretKey → Prop where
  | secret {bytes : Bytes} {key : SecretKey} (hspelled : Hex.Spells s bytes)
      (hlength : bytes.length = 32) (hscalar : Bytes.toNat bytes = key.scalar) :
      Reads s (.ok key)
  | badHex (hspelled : ∀ bytes, ¬ Hex.Spells s bytes) : Reads s (.error .badHex)
  | wrongLength {bytes : Bytes} (hspelled : Hex.Spells s bytes) (hlength : bytes.length ≠ 32) :
      Reads s (.error (.wrongLength bytes.length))
  | badScalar {bytes : Bytes} (hspelled : Hex.Spells s bytes) (hlength : bytes.length = 32)
      (hscalar : Bytes.toNat bytes = 0 ∨ order ≤ Bytes.toNat bytes) :
      Reads s (.error .badScalar)

theorem ofHex_of_spells (h : Hex.Spells s bytes) : ofHex s = ofBytes bytes := by
  rw [ofHex, Hex.decodeMarked_eq_ok_iff.mpr h]

theorem ofHex_of_not_spells (h : ∀ bytes, ¬ Hex.Spells s bytes) : ofHex s = .error .badHex := by
  unfold ofHex
  split
  · rfl
  · rename_i bytes hdecode
    exact absurd (Hex.decodeMarked_eq_ok_iff.mp hdecode) (h bytes)

theorem Reads.ofHex_eq (h : Reads s result) : ofHex s = result := by
  cases h with
  | @secret bytes key hspelled hlength hscalar =>
      have hbounds : 0 < Bytes.toNat bytes ∧ Bytes.toNat bytes < order := by
        rw [hscalar]
        exact ⟨key.scalar_pos, key.scalar_lt⟩
      rw [ofHex_of_spells hspelled, ofBytes, if_neg (not_not_intro hlength), dif_pos hbounds]
      simp only [hscalar]
  | badHex hspelled => exact ofHex_of_not_spells hspelled
  | wrongLength hspelled hlength => rw [ofHex_of_spells hspelled, ofBytes, if_pos hlength]
  | badScalar hspelled hlength hscalar =>
      rw [ofHex_of_spells hspelled, ofBytes, if_neg (not_not_intro hlength), dif_neg (by omega)]

theorem reads_ofHex (s : String) : Reads s (ofHex s) := by
  by_cases hspelled : ∃ bytes, Hex.Spells s bytes
  · obtain ⟨bytes, hspelled⟩ := hspelled
    rw [ofHex_of_spells hspelled, ofBytes]
    by_cases hlength : bytes.length = 32
    · rw [if_neg (not_not_intro hlength)]
      by_cases hbounds : 0 < Bytes.toNat bytes ∧ Bytes.toNat bytes < order
      · rw [dif_pos hbounds]
        exact .secret hspelled hlength rfl
      · rw [dif_neg hbounds]
        exact .badScalar hspelled hlength (by omega)
    · rw [if_pos hlength]
      exact .wrongLength hspelled hlength
  · have hnone : ∀ bytes, ¬ Hex.Spells s bytes := fun bytes h => hspelled ⟨bytes, h⟩
    rw [ofHex_of_not_spells hnone]
    exact .badHex hnone

end SecretKey

namespace KeySource

-- The text that an entry stands for: itself, or what is in the file that it names.
inductive TextOf (fs : FileSystem) : KeySource → String → String → Prop where
  | inline {secrets : List String} {s : String} : TextOf fs (.inline secrets) s s
  | file {paths : List String} {path text : String} (hpath : path ≠ "")
      (hread : fs.readText path = .ok text) : TextOf fs (.files paths) path text

variable [SignatureScheme] {fs : FileSystem} {source : KeySource} {entry text : String}

-- What an entry comes to: the key of its secret, or what is wrong with its text or its file.
inductive Yields (fs : FileSystem) (source : KeySource) (entry : String) :
    Except KeyFile.Error Key → Prop where
  | key {text : String} {secret : SecretKey} (htext : TextOf fs source entry text)
      (hreads : SecretKey.Reads text (.ok secret)) :
      Yields fs source entry (.ok (Key.ofSecret secret))
  | badKey {text : String} {cause : SecretKey.Error} (htext : TextOf fs source entry text)
      (hreads : SecretKey.Reads text (.error cause)) :
      Yields fs source entry (.error (.badKey cause))
  | emptyPath {paths : List String} (hsource : source = .files paths) (hpath : entry = "") :
      Yields fs source entry (.error .emptyPath)
  | unreadable {paths : List String} {fault : FileSystem.Fault} (hsource : source = .files paths)
      (hpath : entry ≠ "") (hread : fs.readText entry = .error fault) :
      Yields fs source entry (.error (.unreadable entry fault))

theorem load_of_readText (hpath : entry ≠ "") (hread : fs.readText entry = .ok text) :
    KeyFile.load fs entry = KeyFile.ofText text := by
  have hnonempty : ¬ entry.isEmpty = true := by simpa using hpath
  rw [KeyFile.load, if_neg hnonempty, hread]

theorem TextOf.loadEntry_eq (h : TextOf fs source entry text) :
    source.loadEntry fs entry = KeyFile.ofText text := by
  cases h with
  | inline => rfl
  | file hpath hread => exact load_of_readText hpath hread

theorem Yields.loadEntry_eq {result : Except KeyFile.Error Key}
    (h : Yields fs source entry result) : source.loadEntry fs entry = result := by
  cases h with
  | key htext hreads =>
      rw [htext.loadEntry_eq, KeyFile.ofText, Key.ofHex, hreads.ofHex_eq]
      rfl
  | badKey htext hreads =>
      rw [htext.loadEntry_eq, KeyFile.ofText, Key.ofHex, hreads.ofHex_eq]
      rfl
  | emptyPath hsource hpath =>
      obtain rfl := hsource
      obtain rfl := hpath
      rfl
  | unreadable hsource hpath hread =>
      obtain rfl := hsource
      have hnonempty : ¬ entry.isEmpty = true := by simpa using hpath
      rw [loadEntry, KeyFile.load, if_neg hnonempty, hread]

theorem TextOf.yields (h : TextOf fs source entry text) :
    Yields fs source entry (KeyFile.ofText text) := by
  have hreads := SecretKey.reads_ofHex text
  unfold KeyFile.ofText Key.ofHex
  cases hsecret : SecretKey.ofHex text with
  | ok secret =>
      rw [hsecret] at hreads
      exact .key h hreads
  | error cause =>
      rw [hsecret] at hreads
      exact .badKey h hreads

theorem yields_loadEntry (fs : FileSystem) (source : KeySource) (entry : String) :
    Yields fs source entry (source.loadEntry fs entry) := by
  cases source with
  | inline secrets => exact TextOf.inline.yields
  | files paths =>
      by_cases hpath : entry = ""
      · subst hpath
        exact .emptyPath rfl rfl
      · cases hread : fs.readText entry with
        | ok text =>
            rw [loadEntry, load_of_readText hpath hread]
            exact (TextOf.file hpath hread).yields
        | error fault =>
            have hyields : Yields fs (.files paths) entry (.error (.unreadable entry fault)) :=
              .unreadable rfl hpath hread
            rwa [hyields.loadEntry_eq]

theorem loadEntry_eq_iff {result : Except KeyFile.Error Key} :
    source.loadEntry fs entry = result ↔ Yields fs source entry result :=
  ⟨fun h => h ▸ yields_loadEntry fs source entry, Yields.loadEntry_eq⟩

end KeySource

end SoftConfirm
