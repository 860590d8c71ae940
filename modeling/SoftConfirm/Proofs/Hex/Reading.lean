import SoftConfirm.Proofs.Json.Building
import SoftConfirm.Proofs.Receipt.Columns
import SoftConfirm.Proofs.Spelling

namespace SoftConfirm

namespace Hex

variable {cs u : List Char} {c : Char} {n : Nat} {byte : UInt8} {bytes text : Bytes} {e : Error}

-- What is left of a text when one marker before it is taken off, if there is one.
inductive Unmarked : List Char → List Char → Prop where
  | lower (u : List Char) : Unmarked ('0' :: 'x' :: u) u
  | upper (u : List Char) : Unmarked ('0' :: 'X' :: u) u
  | plain {u : List Char} (hlower : ∀ cs, u ≠ '0' :: 'x' :: cs)
      (hupper : ∀ cs, u ≠ '0' :: 'X' :: cs) : Unmarked u u

theorem unmarked_iff : Unmarked cs u ↔ u = stripMarker cs := by
  constructor
  · intro h
    cases h with
    | lower | upper => rfl
    | plain hlower hupper =>
        unfold stripMarker
        split
        · exact absurd rfl (hlower _)
        · exact absurd rfl (hupper _)
        · rfl
  · rintro rfl
    unfold stripMarker
    split
    · exact .lower _
    · exact .upper _
    · rename_i hlower hupper
      exact .plain (fun cs => hlower cs) fun cs => hupper cs

-- The text itself, without the blanks around it and without one marker.
def Bare (s : String) (u : List Char) : Prop :=
  ∃ inner, Text.Trimmed s.toList inner ∧ Unmarked inner u

theorem bare_iff {s : String} : Bare s u ↔ u = stripMarker (Text.trimChars s.toList) := by
  unfold Bare
  simp only [Text.trimmed_iff, unmarked_iff, exists_eq_left]

-- Whether a character is the digit of this value, in lower or in upper case.
def Digit (c : Char) (n : Nat) : Prop :=
  "0123456789abcdef".toList[n]? = some c ∨ "0123456789ABCDEF".toList[n]? = some c

instance (c : Char) (n : Nat) : Decidable (Digit c n) :=
  inferInstanceAs (Decidable (_ ∨ _))

-- Digits two by two, the higher one first, and the bytes that they make.
inductive Pairs : List Char → Bytes → Prop where
  | nil : Pairs [] []
  | cons {high low : Char} {h l : Nat} {cs : List Char} {bytes : Bytes} (hhigh : Digit high h)
      (hlow : Digit low l) (hrest : Pairs cs bytes) :
      Pairs (high :: low :: cs) (UInt8.ofNat (16 * h + l) :: bytes)

theorem Digit.lt (h : Digit c n) : n < 16 := by
  have hlength : ("0123456789abcdef".toList.length = 16) ∧
      ("0123456789ABCDEF".toList.length = 16) := by decide
  rcases h with h | h
  · exact hlength.1 ▸ (List.getElem?_eq_some_iff.mp h).1
  · exact hlength.2 ▸ (List.getElem?_eq_some_iff.mp h).1

theorem digit_iff_of_ascii : ∀ k < 128, ∀ n < 16,
    Digit (Char.ofNat k) n ↔ (Char.ofNat k).toLower = Text.hexDigit n := by
  decide +kernel

theorem Digit.ascii (h : Digit c n) : c.toNat < 128 := by
  have hall : ("0123456789abcdef".toList ++ "0123456789ABCDEF".toList).all
      (fun d => decide (d.toNat < 128)) = true := rfl
  have hmem : c ∈ "0123456789abcdef".toList ++ "0123456789ABCDEF".toList := by
    rcases h with h | h
    · exact List.mem_append_left _ (List.mem_of_getElem? h)
    · exact List.mem_append_right _ (List.mem_of_getElem? h)
  exact of_decide_eq_true (List.all_eq_true.mp hall c hmem)

-- A digit is in lower case what its value is written as.
theorem digit_iff : Digit c n ↔ n < 16 ∧ c.toLower = Text.hexDigit n := by
  constructor
  · intro h
    have hlower := (digit_iff_of_ascii c.toNat h.ascii n h.lt).mp
    rw [Char.ofNat_toNat] at hlower
    exact ⟨h.lt, hlower h⟩
  · rintro ⟨hn, hlower⟩
    have hascii : c.toNat < 128 := by
      by_contra hbeyond
      exact toLower_ne_hexDigit hbeyond hn hlower
    have hdigit := (digit_iff_of_ascii c.toNat hascii n hn).mpr
    rw [Char.ofNat_toNat] at hdigit
    exact hdigit hlower

-- Pairs of digits make the bytes that are written as them, in either case.
theorem pairs_iff : Pairs cs bytes ↔ cs.map Char.toLower = encodeChars bytes := by
  constructor
  · intro h
    induction h with
    | nil => rfl
    | @cons high low h l cs bytes hhigh hlow _ ih =>
        obtain ⟨hh, hhigh⟩ := digit_iff.mp hhigh
        obtain ⟨hl, hlow⟩ := digit_iff.mp hlow
        rw [encodeChars_eq] at ih ⊢
        rw [Nat.mul_comm, nibbles_pair hh hl, List.map_cons, List.map_cons, hhigh, hlow, ih,
          List.map_cons, List.map_cons]
  · intro h
    induction bytes generalizing cs with
    | nil =>
        obtain rfl := List.map_eq_nil_iff.mp h
        exact .nil
    | cons byte bytes ih =>
        have hlt := byte.toNat_lt
        obtain ⟨high, cs, rfl, hhigh, h⟩ := List.map_eq_cons_iff.mp h
        obtain ⟨low, cs, rfl, hlow, h⟩ := List.map_eq_cons_iff.mp h
        have hbyte : byte = UInt8.ofNat (16 * (byte.toNat / 16) + byte.toNat % 16) := by
          rw [Nat.div_add_mod, UInt8.ofNat_toNat]
        rw [hbyte]
        exact .cons (digit_iff.mpr ⟨by omega, hhigh⟩) (digit_iff.mpr ⟨by omega, hlow⟩) (ih h)

theorem decode_utf8_eq_ok_iff :
    decode (Text.utf8 (String.ofList cs)) = .ok bytes ↔ Pairs cs bytes := by
  rw [decode_eq_ok_iff, map_digitValue?_utf8 (nibbles_lt bytes), ← encodeChars_eq, pairs_iff]

-- The bytes of digits, in lower and in upper case.
def digitBytes : Bytes := Text.utf8 "0123456789abcdefABCDEF"

theorem mem_digitBytes_iff : byte ∈ digitBytes ↔ ∃ n, digitValue? byte = some n := by
  have hall : ∀ k < 256, UInt8.ofNat k ∈ digitBytes ↔
      (digitValue? (UInt8.ofNat k)).isSome = true := by decide +kernel
  have hbyte := hall byte.toNat byte.toNat_lt
  rwa [UInt8.ofNat_toNat, Option.isSome_iff_exists] at hbyte

theorem not_mem_digitBytes_iff : byte ∉ digitBytes ↔ digitValue? byte = none := by
  rw [mem_digitBytes_iff, ← Option.isSome_iff_exists, Option.not_isSome_iff_eq_none]

-- What is wrong with bytes that are not all digits, or that cannot be paired. Their number comes
-- before their kind, and of several bytes that are no digits the first one is named.
inductive Fault (text : Bytes) : Error → Prop where
  | oddLength (hodd : text.length % 2 = 1) : Fault text .oddLength
  | invalidDigit {before after : Bytes} {byte : UInt8} (heven : text.length % 2 = 0)
      (htext : text = before ++ byte :: after) (hbefore : ∀ b ∈ before, b ∈ digitBytes)
      (hbyte : byte ∉ digitBytes) : Fault text (.invalidDigit byte before.length)

theorem decode_of_even (h : text.length % 2 = 0) : decode text = decodePairs [] 0 text := by
  rw [decode, if_neg (by omega)]

-- Bytes are looked at two by two, so the first one that is no digit may be either of a pair.
theorem decodePairs_of_first_bad (before after done : Bytes) (position : Nat)
    (heven : (before ++ byte :: after).length % 2 = 0) (hbefore : ∀ b ∈ before, b ∈ digitBytes)
    (hbyte : byte ∉ digitBytes) :
    decodePairs done position (before ++ byte :: after) =
      .error (.invalidDigit byte (position + before.length)) := by
  have hbad := not_mem_digitBytes_iff.mp hbyte
  match before with
  | [] =>
      cases after with
      | nil => exact absurd heven (by simp)
      | cons low rest => simp only [List.nil_append, decodePairs, hbad, List.length_nil, Nat.add_zero]
  | [high] =>
      obtain ⟨h, hhigh⟩ := mem_digitBytes_iff.mp (hbefore high List.mem_cons_self)
      simp only [List.cons_append, List.nil_append, decodePairs, hhigh, hbad, List.length_singleton]
  | high :: low :: before =>
      obtain ⟨h, hhigh⟩ := mem_digitBytes_iff.mp (hbefore high List.mem_cons_self)
      obtain ⟨l, hlow⟩ := mem_digitBytes_iff.mp
        (hbefore low (List.mem_cons_of_mem high List.mem_cons_self))
      have hshort : (before ++ byte :: after).length % 2 = 0 := by
        simp only [List.cons_append, List.length_cons] at heven
        omega
      have hrest := decodePairs_of_first_bad before after (UInt8.ofNat (h * 16 + l) :: done)
        (position + 2) hshort
        (fun b hb => hbefore b (List.mem_cons_of_mem high (List.mem_cons_of_mem low hb))) hbyte
      simp only [List.cons_append, decodePairs, hhigh, hlow, hrest, List.length_cons]
      rw [show position + 2 + before.length = position + (before.length + 1 + 1) by omega]

theorem Fault.decode (h : Fault text e) : decode text = .error e := by
  cases h with
  | oddLength hodd => rw [Hex.decode, if_pos hodd]
  | invalidDigit heven htext hbefore hbyte =>
      subst htext
      have hpairs := decodePairs_of_first_bad _ _ [] 0 heven hbefore hbyte
      rw [decode_of_even heven, hpairs, Nat.zero_add]

-- Bytes are all digits, or one of them is the first that is none.
theorem digits_or_first_bad (text : Bytes) :
    (∀ b ∈ text, b ∈ digitBytes) ∨ ∃ before byte after, text = before ++ byte :: after ∧
      (∀ b ∈ before, b ∈ digitBytes) ∧ byte ∉ digitBytes := by
  induction text with
  | nil => exact .inl nofun
  | cons first rest ih =>
      by_cases hfirst : first ∈ digitBytes
      · rcases ih with hrest | ⟨before, byte, after, rfl, hbefore, hbyte⟩
        · exact .inl (List.forall_mem_cons.mpr ⟨hfirst, hrest⟩)
        · exact .inr ⟨first :: before, byte, after, rfl,
            List.forall_mem_cons.mpr ⟨hfirst, hbefore⟩, hbyte⟩
      · exact .inr ⟨[], first, rest, rfl, nofun, hfirst⟩

theorem exists_decodePairs (digits done : Bytes) (position : Nat) (heven : digits.length % 2 = 0)
    (hdigits : ∀ b ∈ digits, b ∈ digitBytes) :
    ∃ bytes, decodePairs done position digits = .ok bytes ∧
      bytes.length = done.length + digits.length / 2 := by
  match digits with
  | [] => exact ⟨done.reverse, rfl, by simp⟩
  | [_] => exact absurd heven (by simp)
  | high :: low :: rest =>
      obtain ⟨h, hhigh⟩ := mem_digitBytes_iff.mp (hdigits high List.mem_cons_self)
      obtain ⟨l, hlow⟩ := mem_digitBytes_iff.mp
        (hdigits low (List.mem_cons_of_mem high List.mem_cons_self))
      have heven : rest.length % 2 = 0 := by
        simp only [List.length_cons] at heven
        omega
      obtain ⟨bytes, hbytes, hlength⟩ :=
        exists_decodePairs rest (UInt8.ofNat (h * 16 + l) :: done) (position + 2) heven
          fun b hb => hdigits b (List.mem_cons_of_mem high (List.mem_cons_of_mem low hb))
      refine ⟨bytes, ?_, ?_⟩
      · simp only [decodePairs, hhigh, hlow, hbytes]
      · simp only [hlength, List.length_cons]
        omega

theorem exists_decode (heven : text.length % 2 = 0) (hdigits : ∀ b ∈ text, b ∈ digitBytes) :
    ∃ bytes, decode text = .ok bytes ∧ bytes.length = text.length / 2 := by
  obtain ⟨bytes, hbytes, hlength⟩ := exists_decodePairs text [] 0 heven hdigits
  rw [List.length_nil, Nat.zero_add] at hlength
  exact ⟨bytes, decode_of_even heven ▸ hbytes, hlength⟩

-- Every text is an even number of digits, or it has a fault.
theorem even_digits_or_fault (text : Bytes) :
    (text.length % 2 = 0 ∧ ∀ b ∈ text, b ∈ digitBytes) ∨ ∃ e, Fault text e := by
  rcases Nat.mod_two_eq_zero_or_one text.length with heven | hodd
  · rcases digits_or_first_bad text with hdigits | ⟨before, byte, after, htext, hbefore, hbyte⟩
    · exact .inl ⟨heven, hdigits⟩
    · exact .inr ⟨_, .invalidDigit heven htext hbefore hbyte⟩
  · exact .inr ⟨_, .oddLength hodd⟩

theorem Pairs.length (h : Pairs cs bytes) : cs.length = 2 * bytes.length := by
  induction h with
  | nil => rfl
  | cons _ _ _ ih =>
      simp only [List.length_cons, ih]
      omega

-- Characters can be paired into bytes when their number is even and all of them are digits.
theorem exists_pairs_iff :
    (∃ bytes, Pairs cs bytes) ↔ cs.length % 2 = 0 ∧ ∀ c ∈ cs, ∃ n, Digit c n := by
  constructor
  · rintro ⟨bytes, h⟩
    refine ⟨by rw [h.length, Nat.mul_mod_right], ?_⟩
    induction h with
    | nil => exact nofun
    | cons hhigh hlow _ ih =>
        exact List.forall_mem_cons.mpr ⟨⟨_, hhigh⟩, List.forall_mem_cons.mpr ⟨⟨_, hlow⟩, ih⟩⟩
  · rintro ⟨heven, hdigits⟩
    induction cs using List.twoStepInduction with
    | nil => exact ⟨[], .nil⟩
    | singleton c => exact absurd heven (by simp)
    | cons_cons high low cs ih _ =>
        obtain ⟨h, hhigh⟩ := hdigits high List.mem_cons_self
        obtain ⟨l, hlow⟩ := hdigits low (List.mem_cons_of_mem high List.mem_cons_self)
        have heven : cs.length % 2 = 0 := by
          simp only [List.length_cons] at heven
          omega
        obtain ⟨bytes, hbytes⟩ := ih heven fun c hc =>
          hdigits c (List.mem_cons_of_mem high (List.mem_cons_of_mem low hc))
        exact ⟨_, .cons hhigh hlow hbytes⟩

end Hex

namespace Identifier

variable {kind : IdentifierKind} {s : String} {u : List Char}

-- Why a bare text is no identifier of this kind. Its length is looked at last of all.
inductive Fault (kind : IdentifierKind) (u : List Char) : Error → Prop where
  | badHex {cause : Hex.Error} (hcause : Hex.Fault (Text.utf8 (String.ofList u)) cause) :
      Fault kind u (.badHex cause)
  | wrongLength (heven : (Text.utf8 (String.ofList u)).length % 2 = 0)
      (hdigits : ∀ b ∈ Text.utf8 (String.ofList u), b ∈ Hex.digitBytes)
      (hlength : (Text.utf8 (String.ofList u)).length ≠ 2 * kind.width) :
      Fault kind u (.wrongLength kind.width ((Text.utf8 (String.ofList u)).length / 2))

-- What reading a text as an identifier comes to, by what is left of it without blanks and marker.
structure ReadsBy (kind : IdentifierKind) (s : String) (u : List Char) : Prop where
  read : ∀ id : Identifier kind, ofHex s = .ok id ↔
    u.length = 2 * kind.width ∧ Hex.Pairs u id.bytes
  readable : (∃ id : Identifier kind, ofHex s = .ok id) ↔
    u.length = 2 * kind.width ∧ ∀ c ∈ u, ∃ n, Hex.Digit c n
  refused : ∀ e, (ofHex s : Except Error (Identifier kind)) = .error e ↔ Fault kind u e

theorem ofHex_of_bare (h : Hex.Bare s u) :
    (ofHex s : Except Error (Identifier kind)) =
      match Hex.decode (Text.utf8 (String.ofList u)) with
      | .error cause => .error (.badHex cause)
      | .ok bytes =>
          if h : bytes.length = kind.width then .ok ⟨bytes, h⟩
          else .error (.wrongLength kind.width bytes.length) := by
  rw [Hex.bare_iff.mp h]
  rfl

theorem ofHex_eq_ok_iff_pairs (h : Hex.Bare s u) {id : Identifier kind} :
    ofHex s = .ok id ↔ Hex.Pairs u id.bytes := by
  rw [ofHex_eq_ok_iff, Hex.Spells, ← Hex.bare_iff.mp h, Hex.pairs_iff]

theorem Fault.ofHex {e : Error} (h : Hex.Bare s u) (hfault : Fault kind u e) :
    (Identifier.ofHex s : Except Error (Identifier kind)) = .error e := by
  rw [ofHex_of_bare h]
  cases hfault with
  | badHex hcause => rw [hcause.decode]
  | wrongLength heven hdigits hlength =>
      obtain ⟨bytes, hbytes, hcount⟩ := Hex.exists_decode heven hdigits
      have hwidth : bytes.length ≠ kind.width := by omega
      rw [hbytes, ← hcount]
      exact dif_neg hwidth

theorem ofHex_eq_error_iff {e : Error} (h : Hex.Bare s u) :
    (ofHex s : Except Error (Identifier kind)) = .error e ↔ Fault kind u e := by
  refine ⟨fun he => ?_, Fault.ofHex h⟩
  rcases Hex.even_digits_or_fault (Text.utf8 (String.ofList u)) with
    ⟨heven, hdigits⟩ | ⟨cause, hcause⟩
  · obtain ⟨bytes, hbytes, hcount⟩ := Hex.exists_decode heven hdigits
    have hwidth : (Text.utf8 (String.ofList u)).length ≠ 2 * kind.width := by
      intro hwidth
      have hlength : bytes.length = kind.width := by omega
      rw [ofHex_of_bare h, hbytes] at he
      simp only [dif_pos hlength] at he
      cases he
    have hfault : Fault kind u _ := .wrongLength heven hdigits hwidth
    rw [hfault.ofHex h] at he
    exact Except.error.inj he ▸ hfault
  · have hfault : Fault kind u _ := .badHex hcause
    rw [hfault.ofHex h] at he
    exact Except.error.inj he ▸ hfault

theorem readsBy (kind : IdentifierKind) (h : Hex.Bare s u) : ReadsBy kind s u where
  read id := by
    rw [ofHex_eq_ok_iff_pairs h]
    refine ⟨fun hpairs => ⟨?_, hpairs⟩, And.right⟩
    rw [hpairs.length, id.length_bytes]
  readable := by
    simp only [ofHex_eq_ok_iff_pairs h]
    constructor
    · rintro ⟨id, hpairs⟩
      refine ⟨?_, (Hex.exists_pairs_iff.mp ⟨id.bytes, hpairs⟩).2⟩
      rw [hpairs.length, id.length_bytes]
    · rintro ⟨hlength, hdigits⟩
      obtain ⟨bytes, hpairs⟩ := Hex.exists_pairs_iff.mpr ⟨by omega, hdigits⟩
      have hwidth : bytes.length = kind.width := by
        have hpaired := hpairs.length
        omega
      exact ⟨⟨bytes, hwidth⟩, hpairs⟩
  refused e := ofHex_eq_error_iff h

end Identifier

namespace Signature

variable {s : String} {u : List Char}

-- What reading a text as a signature comes to: any even number of digits is one.
structure ReadsBy (s : String) (u : List Char) : Prop where
  read : ∀ signature, ofHex? s = some signature ↔ Hex.Pairs u signature.bytes
  readable : (∃ signature, ofHex? s = some signature) ↔
    u.length % 2 = 0 ∧ ∀ c ∈ u, ∃ n, Hex.Digit c n

theorem ofHex?_eq_some_iff_pairs (h : Hex.Bare s u) {signature : Signature} :
    ofHex? s = some signature ↔ Hex.Pairs u signature.bytes := by
  rw [ofHex?_eq_some_iff, Hex.Spells, ← Hex.bare_iff.mp h, Hex.pairs_iff]

theorem readsBy (h : Hex.Bare s u) : ReadsBy s u where
  read _ := ofHex?_eq_some_iff_pairs h
  readable := by
    simp only [ofHex?_eq_some_iff_pairs h]
    refine Iff.trans ?_ Hex.exists_pairs_iff
    exact ⟨fun ⟨signature, hpairs⟩ => ⟨signature.bytes, hpairs⟩, fun ⟨bytes, hpairs⟩ =>
      ⟨⟨bytes⟩, hpairs⟩⟩

end Signature

-- Identifiers and signatures are read from exactly the texts that spell their bytes, and what is
-- wrong with any other text is named. What they are written as is read as them again.
theorem Hex.texts_read_exactly :
    (∀ s, ∃ u, (∀ other, Bare s other ↔ other = u) ∧
      (∀ kind, Identifier.ReadsBy kind s u) ∧ Signature.ReadsBy s u) ∧
    (∀ (kind : IdentifierKind) (id : Identifier kind), Identifier.ofHex id.toHex = .ok id ∧
      Json.readDocument Json.Term.readIdentifier (Json.text id.toHex).render = .ok id ∧
      (Json.text id.toHex).toTerm.readIdentifier = .ok id) ∧
    ∀ signature : Signature, Signature.ofHex? signature.toHex = some signature ∧
      Json.readDocument Json.Term.readSignature (Json.text signature.toHex).render =
        .ok signature ∧
      (Json.text signature.toHex).toTerm.readSignature = .ok signature := by
  refine ⟨fun s => ?_, fun kind id => ?_, fun signature => ?_⟩
  · have hbare := bare_iff.mpr (Eq.refl (stripMarker (Text.trimChars s.toList)))
    exact ⟨_, fun other => bare_iff, fun kind => Identifier.readsBy kind hbare,
      Signature.readsBy hbare⟩
  · have hread := Json.Term.readIdentifier_toHex id
    refine ⟨Identifier.ofHex_toHex id, ?_, hread⟩
    rw [(Json.Legible.text id.toHex).readDocument_render, hread]
  · have hread := Json.Term.readSignature_toHex signature
    refine ⟨Signature.ofHex?_toHex signature, ?_, hread⟩
    rw [(Json.Legible.text signature.toHex).readDocument_render, hread]

-- Places are counted in bytes, so the first byte of a wider character is named at its own.
example : (Identifier.ofHex " 0Xaé0 " : Except Identifier.Error TxHash) =
    .error (.badHex (.invalidDigit 0xc3 1)) := by decide +kernel

end SoftConfirm
