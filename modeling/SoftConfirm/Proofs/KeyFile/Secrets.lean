import SoftConfirm.Crypto.Ecdsa
import SoftConfirm.Proofs.Binding
import SoftConfirm.Proofs.KeyFile
import SoftConfirm.Proofs.Spelling

namespace SoftConfirm

namespace KeyFile

open Hex (IsDigit stripMarker)

variable {fs written : FileSystem} {path secret other : String} {overwrite : Bool}
  {digits : List Char}

theorem toList_normalize (secret : String) :
    (normalize secret).toList = stripMarker (Text.trimChars secret.toList) :=
  String.toList_ofList

-- A secret of which trimming and taking off the marker once leave nothing to do a second time.
def Plain (secret : String) : Prop := normalize (normalize secret) = normalize secret

-- A secret as it is meant to be given: sixty-four digits, perhaps with a marker before them and
-- with blanks around.
structure Given (secret : String) (digits : List Char) : Prop where
  spelled : ∃ before marker after, secret.toList = before ++ (marker ++ digits) ++ after ∧
    (marker = [] ∨ marker = ['0', 'x'] ∨ marker = ['0', 'X']) ∧
    (∀ c ∈ before, Text.isBlank c = true) ∧ ∀ c ∈ after, Text.isBlank c = true
  length : digits.length = 64
  digits : ∀ c ∈ digits, IsDigit c

theorem Given.normalize_eq (h : Given secret digits) : normalize secret = String.ofList digits := by
  obtain ⟨before, marker, after, hsecret, hmarker, hbefore, hafter⟩ := h.spelled
  have hstrip := Hex.stripMarker_of_digits h.digits
  have hsolid : ∀ c ∈ marker, Text.isBlank c = false := by
    intro c hc
    rcases hmarker with rfl | rfl | rfl
    · exact absurd hc List.not_mem_nil
    · rcases List.mem_pair.mp hc with rfl | rfl <;> rfl
    · rcases List.mem_pair.mp hc with rfl | rfl <;> rfl
  have hplain : ∀ c ∈ marker ++ digits, Text.isBlank c = false := by
    intro c hc
    rcases List.mem_append.mp hc with hc | hc
    · exact hsolid c hc
    · exact (h.digits c hc).not_blank
  rw [normalize, hsecret, Text.trimChars_append_right hafter, Text.trimChars_append_left hbefore,
    Text.trimChars_of_not_blank hplain]
  rcases hmarker with rfl | rfl | rfl
  · rw [List.nil_append, hstrip]
  · rfl
  · rfl

theorem normalize_ofList_of_digits (h : ∀ c ∈ digits, IsDigit c) :
    normalize (String.ofList digits) = String.ofList digits := by
  rw [normalize, String.toList_ofList, Text.trimChars_of_not_blank fun c hc => (h c hc).not_blank,
    Hex.stripMarker_of_digits h]

theorem Given.plain (h : Given secret digits) : Plain secret := by
  rw [Plain, h.normalize_eq, normalize_ofList_of_digits h.digits]

-- What is left of a secret decides which key it is.
theorem ofHex_congr (h : normalize secret = normalize other) :
    SecretKey.ofHex secret = SecretKey.ofHex other := by
  have hdecode : Hex.decodeMarked (Text.trimChars secret.toList) =
      Hex.decodeMarked (Text.trimChars other.toList) :=
    congrArg (fun s => Hex.decode (Text.utf8 s)) h
  rw [SecretKey.ofHex, SecretKey.ofHex, hdecode]

theorem exists_decodeMarked (h : SecretKey.ofHex secret ≠ .error .badHex) :
    ∃ bytes, Hex.decodeMarked (Text.trimChars secret.toList) = .ok bytes ∧
      SecretKey.ofHex secret = SecretKey.ofBytes bytes := by
  unfold SecretKey.ofHex at h ⊢
  cases hdecode : Hex.decodeMarked (Text.trimChars secret.toList) with
  | error cause =>
      rw [hdecode] at h
      exact absurd rfl h
  | ok bytes => exact ⟨bytes, rfl, rfl⟩

-- Only hex is refused for anything else than not being hex, and hex is plain.
theorem plain_of_ofHex_ne (h : SecretKey.ofHex secret ≠ .error .badHex) : Plain secret := by
  obtain ⟨bytes, hbytes, -⟩ := exists_decodeMarked h
  obtain ⟨-, hdigits⟩ := Hex.digits_of_decodeMarked hbytes
  exact normalize_ofList_of_digits hdigits

theorem given_of_ofHex {key : SecretKey} (h : SecretKey.ofHex secret = .ok key) :
    Given secret (normalize secret).toList := by
  have hok : SecretKey.ofHex secret ≠ .error .badHex := by
    rw [h]
    nofun
  obtain ⟨bytes, hbytes, hkey⟩ := exists_decodeMarked hok
  obtain ⟨hlength, hdigits⟩ := Hex.digits_of_decodeMarked hbytes
  obtain ⟨before, after, htrim, hbefore, hafter⟩ := Text.exists_eq_append_trimChars secret.toList
  obtain ⟨marker, hmarker, hkind⟩ := Hex.exists_marker (Text.trimChars secret.toList)
  have hcount : bytes.length = 32 := by
    by_contra hne
    rw [hkey, SecretKey.ofBytes, if_pos hne] at h
    exact absurd h nofun
  rw [← toList_normalize] at hlength hdigits hmarker
  refine ⟨⟨before, marker, after, ?_, hkind, hbefore, hafter⟩, ?_, hdigits⟩
  · rw [← hmarker]
    exact htrim
  · rw [hlength, hcount]

theorem ofBytes_toBytes (key : SecretKey) : SecretKey.ofBytes key.toBytes = .ok key := by
  have hlt : key.scalar < 256 ^ 32 := Nat.lt_trans key.scalar_lt (by decide)
  have hscalar : Bytes.toNat key.toBytes = key.scalar := by
    rw [SecretKey.toBytes, Bytes.toNat_bigEndian, Nat.mod_eq_of_lt hlt]
  have hlength : key.toBytes.length = 32 := Bytes.length_bigEndian 32 key.scalar
  rw [SecretKey.ofBytes, if_neg (by simp [hlength])]
  simp only [hscalar]
  rw [dif_pos ⟨key.scalar_pos, key.scalar_lt⟩]

-- The text of a secret key is what is left of it, and it is the text of that key.
theorem normalize_toHex (key : SecretKey) : normalize key.toHex = key.toHex := by
  have hdigits : ∀ c ∈ Hex.encodeChars key.toBytes, IsDigit c := by
    intro c hc
    obtain ⟨n, hn, rfl⟩ := Hex.mem_encodeChars hc
    exact Hex.isDigit_hexDigit hn
  exact normalize_ofList_of_digits hdigits

theorem ofHex_toHex (key : SecretKey) : SecretKey.ofHex key.toHex = .ok key := by
  have hlist := congrArg String.toList (normalize_toHex key)
  rw [toList_normalize] at hlist
  rw [SecretKey.ofHex, Hex.decodeMarked, hlist, String.ofList_toList, SecretKey.toHex,
    Hex.decode_encode]
  exact ofBytes_toBytes key

-- A file shows what has been written into it.
theorem contents_eq_iff : contents secret = Text.utf8 (String.ofList digits ++ "\n") ↔
    normalize secret = String.ofList digits := by
  constructor
  · intro h
    have hline := congrArg Text.ofUtf8? h
    rw [contents, Text.ofUtf8?_utf8, Text.ofUtf8?_utf8, Option.some_inj] at hline
    have hchars := congrArg String.toList hline
    rw [String.toList_append, String.toList_append] at hchars
    exact String.toList_injective (List.append_cancel_right hchars)
  · intro h
    rw [contents, h]

-- What is no secret once it has been normalized is refused before anything is touched.
theorem write_of_ofHex_error {cause : SecretKey.Error} (hpath : path ≠ "")
    (hbad : SecretKey.ofHex (normalize secret) = .error cause) :
    write fs path secret overwrite = (.error (.badKey cause), fs) := by
  have hnonempty : path.isEmpty = false := by simpa using hpath
  unfold write
  simp only [hnonempty, Bool.false_eq_true, if_false, hbad]

theorem key_ofHex_eq_error_iff [SignatureScheme] {cause : SecretKey.Error} :
    Key.ofHex secret = .error cause ↔ SecretKey.ofHex secret = .error cause := by
  unfold Key.ofHex
  cases SecretKey.ofHex secret <;> simp [Except.map]

-- A plain secret is refused like any key that is read, and written as its digits. Another one is
-- no key at all, and yet it is written when what is left of it is one, and not as digits.
theorem plain_secrets_written_as_digits [SignatureScheme] (hpath : path ≠ "") :
    (Plain secret →
      (∀ cause, Key.ofHex secret = .error cause →
        write fs path secret overwrite = (.error (.badKey cause), fs)) ∧
      ∀ written, write fs path secret overwrite = (.ok (), written) →
        ∃ mode digits, Given secret digits ∧ written.lookup path =
          .ok (.file mode (Text.utf8 (String.ofList digits ++ "\n")))) ∧
    (¬ Plain secret →
      Key.ofHex secret = .error .badHex ∧
      (∀ cause, Key.ofHex (normalize secret) = .error cause →
        write fs path secret overwrite = (.error (.badKey cause), fs)) ∧
      ∀ written, write fs path secret overwrite = (.ok (), written) →
        ∃ mode, written.lookup path = .ok (.file mode (contents secret)) ∧
          ∀ digits, (∀ c ∈ digits, IsDigit c) →
            contents secret ≠ Text.utf8 (String.ofList digits ++ "\n")) := by
  have hlookup : ∀ written, write fs path secret overwrite = (.ok (), written) →
      ∃ mode, written.lookup path = .ok (.file mode (contents secret)) := by
    intro written h
    obtain ⟨place, hwritten⟩ := exists_written h
    obtain ⟨ready, -, -, hwrites⟩ := hwritten.steps
    exact ⟨_, hwrites.lookup_written⟩
  constructor
  · intro hplain
    have hsame := ofHex_congr hplain
    constructor
    · intro cause hcause
      refine write_of_ofHex_error hpath ?_
      rw [hsame]
      exact key_ofHex_eq_error_iff.mp hcause
    · intro written h
      obtain ⟨place, hwritten⟩ := exists_written h
      obtain ⟨key, hkey⟩ := hwritten.good
      rw [hsame] at hkey
      have hgiven := given_of_ofHex hkey
      obtain ⟨mode, hfile⟩ := hlookup written h
      rw [contents_eq_iff.mpr hgiven.normalize_eq] at hfile
      exact ⟨mode, _, hgiven, hfile⟩
  · intro hplain
    refine ⟨?_, ?_, ?_⟩
    · by_contra hother
      exact hplain (plain_of_ofHex_ne fun h => hother (key_ofHex_eq_error_iff.mpr h))
    · intro cause hcause
      exact write_of_ofHex_error hpath (key_ofHex_eq_error_iff.mp hcause)
    · intro written h
      obtain ⟨mode, hfile⟩ := hlookup written h
      refine ⟨mode, hfile, fun digits hdigits hcontents => hplain ?_⟩
      rw [Plain, contents_eq_iff.mp hcontents, normalize_ofList_of_digits hdigits]

-- A marker and blanks around the digits leave no trace.
theorem plain_secrets_written_as_digits_marked :
    let secret := " 0x" ++ one ++ " "
    "k.key" ≠ "" ∧ Plain secret ∧ (write .empty "k.key" secret false).1 = .ok () ∧
      ∃ mode digits, Given secret digits ∧ (write .empty "k.key" secret false).2.lookup "k.key" =
        .ok (.file mode (Text.utf8 (String.ofList digits ++ "\n"))) := by
  have hpath : "k.key" ≠ "" := by decide
  have hplain : Plain (" 0x" ++ one ++ " ") := by
    unfold Plain
    decide +kernel
  have hok : (write .empty "k.key" (" 0x" ++ one ++ " ") false).1 = .ok () := by decide +kernel
  exact ⟨hpath, hplain, hok,
    ((plain_secrets_written_as_digits hpath).1 hplain).2 _ (Prod.ext hok rfl)⟩

-- Behind a second marker there is a key for the check, and the file gets it with that marker.
theorem write_keeps_second_marker :
    let secret := "0x0x" ++ one
    Key.ofHex secret = .error .badHex ∧ (write .empty "k.key" secret false).1 = .ok () ∧
      (write .empty "k.key" secret false).2.lookup "k.key" =
        .ok (.file FileSystem.ownerOnly (Text.utf8 ("0x" ++ one ++ "\n"))) := by
  have hrefused : SecretKey.ofHex ("0x0x" ++ one) = .error .badHex := by decide +kernel
  refine ⟨key_ofHex_eq_error_iff.mpr hrefused, ?_⟩
  decide +kernel

end KeyFile

end SoftConfirm
