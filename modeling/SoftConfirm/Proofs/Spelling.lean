import SoftConfirm.Attestation
import SoftConfirm.Proofs.Hex

namespace SoftConfirm

namespace Hex

-- The values of the digits that bytes are written with, two for each.
def nibbles (bytes : Bytes) : List Nat :=
  bytes.flatMap fun byte => [byte.toNat / 16, byte.toNat % 16]

theorem encodeChars_eq (bytes : Bytes) :
    encodeChars bytes = (nibbles bytes).map Text.hexDigit := by
  simp [encodeChars, nibbles, List.map_flatMap]

theorem nibbles_lt (bytes : Bytes) : ∀ n ∈ nibbles bytes, n < 16 := by
  intro n hn
  obtain ⟨byte, -, hn⟩ := List.mem_flatMap.mp hn
  have hlt := byte.toNat_lt
  simp only [List.mem_cons, List.not_mem_nil, or_false] at hn
  omega

theorem length_nibbles (bytes : Bytes) : (nibbles bytes).length = 2 * bytes.length := by
  rw [← length_encodeChars, encodeChars_eq, List.length_map]

theorem digitValue?_lt {byte : UInt8} {n : Nat} (h : digitValue? byte = some n) : n < 16 := by
  simp only [digitValue?, Bool.and_eq_true, decide_eq_true_eq] at h
  split at h
  · injection h with h
    omega
  · split at h
    · injection h with h
      omega
    · split at h
      · injection h with h
        omega
      · exact absurd h nofun

theorem nibbles_pair {high low : Nat} (hhigh : high < 16) (hlow : low < 16) (bytes : Bytes) :
    nibbles (UInt8.ofNat (high * 16 + low) :: bytes) = high :: low :: nibbles bytes := by
  have hbyte : (UInt8.ofNat (high * 16 + low)).toNat = high * 16 + low := by
    rw [UInt8.toNat_ofNat']
    omega
  simp only [nibbles, List.flatMap_cons, hbyte, List.cons_append, List.nil_append, List.cons.injEq,
    and_true]
  omega

-- Digits are paired into the bytes that they are the digits of, and into no others.
theorem decodePairs_eq_ok_iff {done digits out : Bytes} {position : Nat} :
    decodePairs done position digits = .ok out ↔
      ∃ bytes, out = done.reverse ++ bytes ∧
        digits.map digitValue? = (nibbles bytes).map some := by
  fun_induction decodePairs done position digits with
  | case1 done position =>
      constructor
      · intro h
        exact ⟨[], by rw [List.append_nil, Except.ok.inj h], rfl⟩
      · rintro ⟨bytes, rfl, hbytes⟩
        cases bytes with
        | nil => rw [List.append_nil]
        | cons byte bytes => exact absurd hbytes nofun
  | case2 done position digit =>
      refine ⟨nofun, ?_⟩
      rintro ⟨bytes, -, hbytes⟩
      have hlength := congrArg List.length hbytes
      simp only [List.length_map, length_nibbles, List.length_singleton] at hlength
      omega
  | case3 done position high low rest h l hlow hhigh ih =>
      have hh := digitValue?_lt hhigh
      have hl := digitValue?_lt hlow
      rw [ih]
      constructor
      · rintro ⟨bytes, rfl, hbytes⟩
        refine ⟨UInt8.ofNat (h * 16 + l) :: bytes, by simp, ?_⟩
        rw [nibbles_pair hh hl, List.map_cons, List.map_cons, hhigh, hlow, hbytes]
        rfl
      · rintro ⟨bytes, rfl, hbytes⟩
        cases bytes with
        | nil => exact absurd hbytes nofun
        | cons byte bytes =>
            simp only [List.map_cons, hhigh, hlow, nibbles, List.flatMap_cons, List.cons_append,
              List.nil_append, List.cons.injEq, Option.some.injEq] at hbytes
            obtain ⟨rfl, rfl, hbytes⟩ := hbytes
            refine ⟨bytes, ?_, hbytes⟩
            rw [Nat.div_add_mod', UInt8.ofNat_toNat]
            simp
  | case4 done position high low rest hhigh =>
      refine ⟨nofun, ?_⟩
      rintro ⟨bytes, -, hbytes⟩
      cases bytes with
      | nil => exact absurd hbytes nofun
      | cons byte bytes => simp [hhigh, nibbles] at hbytes
  | case5 done position high low rest h hlow hhigh =>
      refine ⟨nofun, ?_⟩
      rintro ⟨bytes, -, hbytes⟩
      cases bytes with
      | nil => exact absurd hbytes nofun
      | cons byte bytes => simp [hlow, nibbles] at hbytes

theorem decode_eq_ok_iff {digits bytes : Bytes} :
    decode digits = .ok bytes ↔ digits.map digitValue? = (nibbles bytes).map some := by
  have hpairs : decodePairs [] 0 digits = .ok bytes ↔
      digits.map digitValue? = (nibbles bytes).map some := by
    rw [decodePairs_eq_ok_iff]
    simp
  unfold decode
  split
  · rename_i hodd
    refine ⟨nofun, fun h => ?_⟩
    have hlength := congrArg List.length h
    simp only [List.length_map, length_nibbles] at hlength
    omega
  · exact hpairs

theorem digitValue?_of_le {byte : UInt8} (h : 128 ≤ byte.toNat) : digitValue? byte = none := by
  rw [Option.eq_none_iff_forall_ne_some]
  intro n hn
  simp only [digitValue?, Bool.and_eq_true, decide_eq_true_eq] at hn
  split at hn
  · omega
  · split at hn
    · omega
    · split at hn
      · omega
      · exact absurd hn nofun

theorem digitValue?_ascii : ∀ k < 128, ∀ n < 16,
    digitValue? (UInt8.ofNat k) = some n ↔ (Char.ofNat k).toLower = Text.hexDigit n := by
  decide +kernel

-- The bytes of a character beyond ASCII lie beyond ASCII as well.
theorem exists_utf8EncodeChar_eq_cons {c : Char} (h : ¬ c.toNat < 128) :
    ∃ byte rest, String.utf8EncodeChar c = byte :: rest ∧ 128 ≤ byte.toNat := by
  have hone : ¬ c.val.toNat ≤ 0x7f := fun hle => h (Nat.lt_succ_of_le hle)
  simp only [String.utf8EncodeChar, hone, if_false]
  split
  · refine ⟨_, _, rfl, ?_⟩
    rw [UInt8.toNat_ofNat']
    omega
  · split
    · refine ⟨_, _, rfl, ?_⟩
      rw [UInt8.toNat_ofNat']
      omega
    · refine ⟨_, _, rfl, ?_⟩
      rw [UInt8.toNat_ofNat']
      omega

theorem toLower_ne_hexDigit {c : Char} (h : ¬ c.toNat < 128) {n : Nat} (hn : n < 16) :
    c.toLower ≠ Text.hexDigit n := by
  intro heq
  have hascii := Text.hexDigit_ascii n hn
  have hsame : c.toLower = c := by
    unfold Char.toLower
    split
    · rename_i hrange
      exact absurd (Nat.lt_of_le_of_lt hrange.2 (by decide)) h
    · rfl
  rw [← heq, hsame] at hascii
  exact h hascii

-- The bytes of a text are digits with these values exactly if its characters are, in either case.
theorem map_digitValue?_utf8 {cs : List Char} {values : List Nat} (h : ∀ n ∈ values, n < 16) :
    (Text.utf8 (String.ofList cs)).map digitValue? = values.map some ↔
      cs.map Char.toLower = values.map Text.hexDigit := by
  rw [Text.utf8_ofList]
  induction cs generalizing values with
  | nil => cases values <;> simp
  | cons c cs ih =>
      cases values with
      | nil =>
          by_cases hascii : c.toNat < 128
          · simp [Text.utf8EncodeChar_of_ascii hascii]
          · obtain ⟨byte, rest, hbytes, -⟩ := exists_utf8EncodeChar_eq_cons hascii
            simp [hbytes]
      | cons n values =>
          have hn := h n List.mem_cons_self
          have hrest := ih fun m hm => h m (List.mem_cons_of_mem n hm)
          by_cases hascii : c.toNat < 128
          · have hdigit := digitValue?_ascii c.toNat hascii n hn
            rw [Char.ofNat_toNat] at hdigit
            simp only [List.flatMap_cons, Text.utf8EncodeChar_of_ascii hascii, List.map_cons,
              List.cons_append, List.nil_append, List.cons.injEq, hdigit, hrest]
          · obtain ⟨byte, rest, hbytes, hbyte⟩ := exists_utf8EncodeChar_eq_cons hascii
            simp [hbytes, digitValue?_of_le hbyte, toLower_ne_hexDigit hascii hn]

theorem decodeMarked_eq_ok_iff {cs : List Char} {bytes : Bytes} :
    decodeMarked cs = .ok bytes ↔ (stripMarker cs).map Char.toLower = encodeChars bytes := by
  rw [decodeMarked, decode_eq_ok_iff, map_digitValue?_utf8 (nibbles_lt bytes), encodeChars_eq]

-- A base-16 digit in either case.
def IsDigit (c : Char) : Prop := ∃ n < 16, c.toLower = Text.hexDigit n

theorem isDigit_hexDigit {n : Nat} (h : n < 16) : IsDigit (Text.hexDigit n) := by
  have hlower : ∀ n < 16, (Text.hexDigit n).toLower = Text.hexDigit n := by decide
  exact ⟨n, h, hlower n h⟩

theorem IsDigit.not_blank {c : Char} (h : IsDigit c) : Text.isBlank c = false := by
  obtain ⟨n, hn, hc⟩ := h
  by_cases hascii : c.toNat < 128
  · have hblanks : ∀ k < 128, Text.isBlank (Char.ofNat k) = true →
        ∀ n < 16, (Char.ofNat k).toLower ≠ Text.hexDigit n := by decide +kernel
    by_contra hblank
    have hne := hblanks c.toNat hascii
    rw [Char.ofNat_toNat] at hne
    exact hne (by simpa using hblank) n hn hc
  · exact absurd hc (toLower_ne_hexDigit hascii hn)

-- Digits have no marker of their own.
theorem stripMarker_of_digits {digits : List Char} (h : ∀ c ∈ digits, IsDigit c) :
    stripMarker digits = digits := by
  have hlower : ¬ IsDigit 'x' := by
    unfold IsDigit
    decide
  have hupper : ¬ IsDigit 'X' := by
    unfold IsDigit
    decide
  unfold stripMarker
  split
  · exact absurd (h 'x' (by simp)) hlower
  · exact absurd (h 'X' (by simp)) hupper
  · rfl

-- What a marker may be, and that nothing else is taken off.
theorem exists_marker (cs : List Char) :
    ∃ marker, cs = marker ++ stripMarker cs ∧
      (marker = [] ∨ marker = ['0', 'x'] ∨ marker = ['0', 'X']) := by
  unfold stripMarker
  split
  · exact ⟨['0', 'x'], rfl, by simp⟩
  · exact ⟨['0', 'X'], rfl, by simp⟩
  · exact ⟨[], rfl, by simp⟩

theorem digits_of_decodeMarked {cs : List Char} {bytes : Bytes}
    (h : decodeMarked cs = .ok bytes) :
    (stripMarker cs).length = 2 * bytes.length ∧ ∀ c ∈ stripMarker cs, IsDigit c := by
  have hspelled := decodeMarked_eq_ok_iff.mp h
  constructor
  · have hlength := congrArg List.length hspelled
    rwa [List.length_map, length_encodeChars] at hlength
  · intro c hc
    have hmem : c.toLower ∈ encodeChars bytes := hspelled ▸ List.mem_map_of_mem hc
    obtain ⟨n, hn, hdigit⟩ := mem_encodeChars hmem
    exact ⟨n, hn, hdigit⟩

-- Whether a text is the hex of these bytes, in either case. Blanks may stand around it, and a
-- marker before the digits.
def Spells (s : String) (bytes : Bytes) : Prop :=
  (stripMarker (Text.trimChars s.toList)).map Char.toLower = encodeChars bytes

instance (s : String) (bytes : Bytes) : Decidable (Spells s bytes) :=
  inferInstanceAs (Decidable (_ = _))

end Hex

theorem Identifier.ofHex_eq_ok_iff {kind : IdentifierKind} {s : String} {id : Identifier kind} :
    Identifier.ofHex s = .ok id ↔ Hex.Spells s id.bytes := by
  rw [Hex.Spells, ← Hex.decodeMarked_eq_ok_iff, ofHex]
  cases hdecode : Hex.decodeMarked (Text.trimChars s.toList) with
  | error cause => simp
  | ok bytes =>
      simp only [Except.ok.injEq]
      constructor
      · intro h
        split at h
        · exact congrArg Identifier.bytes (Except.ok.inj h)
        · cases h
      · rintro rfl
        rw [dif_pos id.length_bytes]

theorem Signature.ofHex?_eq_some_iff {s : String} {signature : Signature} :
    Signature.ofHex? s = some signature ↔ Hex.Spells s signature.bytes := by
  rw [Hex.Spells, ← Hex.decodeMarked_eq_ok_iff, ofHex?]
  cases hdecode : Hex.decodeMarked (Text.trimChars s.toList) with
  | error cause => simp
  | ok bytes =>
      simp only [Option.some.injEq, Except.ok.injEq]
      constructor
      · rintro rfl
        rfl
      · rintro rfl
        rfl

namespace Status

-- Whether a text is the name of a status, in either case and with blanks around it.
def Spells (status : Status) (s : String) : Prop :=
  (Text.trimChars s.toList).map Char.toLower = status.name.toList

instance (status : Status) (s : String) : Decidable (status.Spells s) :=
  inferInstanceAs (Decidable (_ = _))

theorem ofText?_eq_some_iff {s : String} {status : Status} :
    ofText? s = some status ↔ status.Spells s := by
  have hdiffer : pending.name.toList ≠ included.name.toList := by decide
  unfold ofText? Spells
  dsimp only
  split
  · rename_i hincluded
    rw [hincluded]
    cases status with
    | pending => simp [hdiffer.symm]
    | included => simp
  · rename_i hincluded
    split
    · rename_i hpending
      rw [hpending]
      cases status with
      | pending => simp
      | included => simp [hdiffer]
    · rename_i hpending
      cases status with
      | pending => simp [hpending]
      | included => simp [hincluded]

end Status

end SoftConfirm
