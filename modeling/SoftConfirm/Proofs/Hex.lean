import SoftConfirm.Identifier
import SoftConfirm.Proofs.Trimming
import SoftConfirm.Signature

namespace SoftConfirm

namespace Text

theorem utf8EncodeChar_of_ascii {c : Char} (h : c.toNat < 128) :
    String.utf8EncodeChar c = [UInt8.ofNat c.toNat] := by
  have hle : c.val.toNat ≤ 0x7f := Nat.le_of_lt_succ h
  simp only [String.utf8EncodeChar, hle, ite_true, Char.toNat]

-- Texts of ASCII characters have one byte for each.
theorem utf8_ofList_of_ascii {cs : List Char} (h : ∀ c ∈ cs, c.toNat < 128) :
    utf8 (String.ofList cs) = cs.map fun c => UInt8.ofNat c.toNat := by
  rw [utf8_ofList]
  induction cs with
  | nil => rfl
  | cons c cs ih =>
      rw [List.flatMap_cons, List.map_cons, utf8EncodeChar_of_ascii (h c List.mem_cons_self),
        ih fun d hd => h d (List.mem_cons_of_mem c hd), List.singleton_append]

theorem hexDigit_ascii : ∀ n < 16, (hexDigit n).toNat < 128 := by decide

theorem hexDigit_not_blank : ∀ n < 16, isBlank (hexDigit n) = false := by decide

end Text

namespace Hex

theorem digitValue?_hexDigit :
    ∀ n < 16, digitValue? (UInt8.ofNat (Text.hexDigit n).toNat) = some n := by decide

theorem mem_encodeChars {bytes : Bytes} {c : Char} (h : c ∈ encodeChars bytes) :
    ∃ n < 16, c = Text.hexDigit n := by
  obtain ⟨byte, -, hc⟩ := List.mem_flatMap.mp h
  have hlt := byte.toNat_lt
  simp only [List.mem_cons, List.not_mem_nil, or_false] at hc
  rcases hc with rfl | rfl
  · exact ⟨byte.toNat / 16, by omega, rfl⟩
  · exact ⟨byte.toNat % 16, by omega, rfl⟩

theorem decodePairs_encodeChars (bytes done : Bytes) (position : Nat) :
    decodePairs done position ((encodeChars bytes).map fun c => UInt8.ofNat c.toNat) =
      .ok (done.reverse ++ bytes) := by
  induction bytes generalizing done position with
  | nil => simp [encodeChars, decodePairs]
  | cons byte bytes ih =>
      have hlt := byte.toNat_lt
      have hhigh := digitValue?_hexDigit (byte.toNat / 16) (by omega)
      have hlow := digitValue?_hexDigit (byte.toNat % 16) (by omega)
      have hbyte : UInt8.ofNat (byte.toNat / 16 * 16 + byte.toNat % 16) = byte := by
        rw [Nat.div_add_mod', UInt8.ofNat_toNat]
      simp only [encodeChars, List.flatMap_cons, List.cons_append, List.nil_append, List.map_cons,
        decodePairs, hhigh, hlow, hbyte]
      have hrest := ih (byte :: done) (position + 2)
      rw [encodeChars] at hrest
      rw [hrest, List.reverse_cons, List.append_assoc, List.singleton_append]

theorem length_encodeChars (bytes : Bytes) : (encodeChars bytes).length = 2 * bytes.length := by
  induction bytes with
  | nil => rfl
  | cons byte bytes ih =>
      simp only [encodeChars, List.flatMap_cons, List.length_append, List.length_cons] at ih ⊢
      rw [ih]
      simp
      omega

theorem decode_encode (bytes : Bytes) : decode (Text.utf8 (encode bytes)) = .ok bytes := by
  have hascii : ∀ c ∈ encodeChars bytes, c.toNat < 128 := by
    intro c hc
    obtain ⟨n, hn, rfl⟩ := mem_encodeChars hc
    exact Text.hexDigit_ascii n hn
  rw [encode, Text.utf8_ofList_of_ascii hascii, decode, List.length_map, length_encodeChars,
    if_neg (by omega), decodePairs_encodeChars]
  rfl

-- The canonical text of bytes, with the marker before it, spells these bytes.
theorem decodeMarked_toHex (bytes : Bytes) :
    decodeMarked (Text.trimChars ("0x" ++ encode bytes).toList) = .ok bytes := by
  have hchars : ("0x" ++ encode bytes).toList = '0' :: 'x' :: encodeChars bytes := by
    simp [encode]
  have hblank : ∀ c ∈ '0' :: 'x' :: encodeChars bytes, Text.isBlank c = false := by
    intro c hc
    rcases List.mem_cons.mp hc with rfl | hc
    · rfl
    · rcases List.mem_cons.mp hc with rfl | hc
      · rfl
      · obtain ⟨n, hn, rfl⟩ := mem_encodeChars hc
        exact Text.hexDigit_not_blank n hn
  rw [hchars, Text.trimChars_of_not_blank hblank]
  exact decode_encode bytes

end Hex

theorem Identifier.ofHex_toHex {kind : IdentifierKind} (id : Identifier kind) :
    Identifier.ofHex id.toHex = .ok id := by
  simp only [ofHex, toHex, Hex.decodeMarked_toHex, id.length_bytes, dite_true]

theorem Signature.ofHex?_toHex (signature : Signature) :
    Signature.ofHex? signature.toHex = some signature := by
  simp only [ofHex?, toHex, Hex.decodeMarked_toHex]

end SoftConfirm
