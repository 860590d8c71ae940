import SoftConfirm.Proofs.Quantity.Digits

namespace SoftConfirm

namespace Quantity

variable {s : String} {digits : List Char} {v : UInt64} {e : Error}

-- A text with a marker, in either case, and these characters behind it.
def Marked (s : String) (digits : List Char) : Prop :=
  s.toList = '0' :: 'x' :: digits ∨ s.toList = '0' :: 'X' :: digits

theorem afterMarker?_eq_some_iff : afterMarker? s.toList = some digits ↔ Marked s digits := by
  unfold afterMarker? Marked
  split
  · rename_i cs heq
    simp [heq, eq_comm]
  · rename_i cs heq
    simp [heq, eq_comm]
  · rename_i hx hX
    simp only [reduceCtorEq, false_iff, not_or]
    exact ⟨hx digits, hX digits⟩

-- The spelling of a quantity: one to sixteen digits, without a zero before others.
structure Spells (s : String) (digits : List Char) (v : UInt64) : Prop where
  marked : Marked s digits
  ne_nil : digits ≠ []
  length_le : digits.length ≤ 16
  head : digits.head? = some '0' → digits = ['0']
  numeral : Numeral digits v.toNat

-- What is wrong with a text that is no quantity. Each fault but the first two comes after those
-- before it have been ruled out.
inductive Fault (s : String) : Error → Prop where
  | missingMarker (hmarked : ∀ digits, ¬ Marked s digits) : Fault s (.missingMarker s)
  | empty (hmarked : Marked s []) : Fault s .empty
  | badDigit {digits : List Char} {byte : UInt8} (hmarked : Marked s digits)
      (hbyte : byte ∈ Text.utf8 (String.ofList digits)) (hbad : Hex.digitValue? byte = none) :
      Fault s (.badDigit s)
  | leadingZero {digits : List Char} (hmarked : Marked s digits)
      (hdigits : ∀ c ∈ digits, digit? c ≠ none) (hhead : digits.head? = some '0')
      (hlong : digits ≠ ['0']) : Fault s (.leadingZero s)
  | overflow {digits : List Char} (hmarked : Marked s digits)
      (hdigits : ∀ c ∈ digits, digit? c ≠ none) (hhead : digits.head? = some '0' → digits = ['0'])
      (hlong : 16 < digits.length) : Fault s (.overflow s)

theorem decode_of_marked (h : Marked s digits) :
    decode s =
      if digits.isEmpty then .error .empty
      else if !digits.all (fun c => (digit? c).isSome) then .error (.badDigit s)
      else if 1 < digits.length && digits.head? == some '0' then .error (.leadingZero s)
      else if 16 < digits.length then .error (.overflow s)
      else (word digits).mapError fun e => .badDigit e.message := by
  rw [decode, afterMarker?_eq_some_iff.mpr h]

theorem all_digits_iff :
    digits.all (fun c => (digit? c).isSome) = true ↔ ∀ c ∈ digits, digit? c ≠ none := by
  simp [Option.isSome_iff_ne_none]

theorem leading_zero_iff :
    (decide (1 < digits.length) && digits.head? == some '0') = true ↔
      digits.head? = some '0' ∧ digits ≠ ['0'] := by
  cases digits with
  | nil => simp
  | cons c cs =>
      have hlength : 1 < (c :: cs).length ↔ cs ≠ [] := by
        rw [List.length_cons, ← List.length_pos_iff]
        omega
      simp only [Bool.and_eq_true, decide_eq_true_eq, hlength, beq_iff_eq, List.head?_cons,
        Option.some.injEq]
      constructor
      · rintro ⟨hcs, rfl⟩
        exact ⟨rfl, by simp [hcs]⟩
      · rintro ⟨rfl, hlong⟩
        exact ⟨by simpa using hlong, rfl⟩

theorem isEmpty_of_ne_nil (h : digits ≠ []) : ¬ digits.isEmpty = true := by
  simpa using h

theorem Fault.decode (h : Fault s e) : decode s = .error e := by
  cases h with
  | missingMarker hmarked =>
      have hnone : afterMarker? s.toList = none := by
        rw [Option.eq_none_iff_forall_ne_some]
        exact fun digits hsome => hmarked digits (afterMarker?_eq_some_iff.mp hsome)
      rw [Quantity.decode, hnone]
  | empty hmarked =>
      rw [decode_of_marked hmarked]
      rfl
  | badDigit hmarked hbyte hbad =>
      obtain ⟨c, hc, hnone⟩ := exists_byte_iff.mp ⟨_, hbyte, hbad⟩
      have hall := mt all_digits_iff.mp fun hdigits => hdigits c hc hnone
      rw [decode_of_marked hmarked, if_neg (isEmpty_of_ne_nil (List.ne_nil_of_mem hc)), if_pos]
      simpa using hall
  | leadingZero hmarked hdigits hhead hlong =>
      have hne := List.ne_nil_of_mem (List.mem_of_mem_head? hhead)
      have hall := all_digits_iff.mpr hdigits
      rw [decode_of_marked hmarked, if_neg (isEmpty_of_ne_nil hne), if_neg (by simp [hall]),
        if_pos (leading_zero_iff.mpr ⟨hhead, hlong⟩)]
  | overflow hmarked hdigits hhead hlong =>
      have hne := List.ne_nil_of_length_pos (Nat.zero_lt_of_lt hlong)
      have hall := all_digits_iff.mpr hdigits
      have hzero := mt leading_zero_iff.mp fun h => h.2 (hhead h.1)
      rw [decode_of_marked hmarked, if_neg (isEmpty_of_ne_nil hne), if_neg (by simp [hall]),
        if_neg hzero, if_pos hlong]

-- With all checks passed the digits fit into a word.
theorem Spells.decode (h : Spells s digits v) : decode s = .ok v := by
  have hall := all_digits_iff.mpr h.numeral.digit?_ne_none
  have hzero := mt leading_zero_iff.mp fun hleading => hleading.2 (h.head hleading.1)
  have hword := h.numeral.word h.ne_nil v.toNat_lt
  rw [UInt64.ofNat_toNat] at hword
  rw [decode_of_marked h.marked, if_neg (isEmpty_of_ne_nil h.ne_nil), if_neg (by simp [hall]),
    if_neg hzero, if_neg (Nat.not_lt.mpr h.length_le), hword]
  rfl

theorem spells_or_fault (s : String) :
    (∃ digits v, Spells s digits v) ∨ ∃ e, Fault s e := by
  by_cases hmarked : ∃ digits, Marked s digits
  · obtain ⟨digits, hmarked⟩ := hmarked
    by_cases hne : digits = []
    · subst hne
      exact .inr ⟨_, .empty hmarked⟩
    by_cases hdigits : ∀ c ∈ digits, digit? c ≠ none
    · by_cases hhead : digits.head? = some '0' → digits = ['0']
      · by_cases hlength : digits.length ≤ 16
        · obtain ⟨n, hn⟩ := exists_numeral hdigits
          have hlt : n < 2 ^ 64 :=
            Nat.lt_of_lt_of_le hn.lt (Nat.pow_le_pow_right (by omega) hlength)
          have htoNat : (UInt64.ofNat n).toNat = n := UInt64.toNat_ofNat_of_lt' hlt
          exact .inl ⟨digits, UInt64.ofNat n, hmarked, hne, hlength, hhead, by rwa [htoNat]⟩
        · exact .inr ⟨_, .overflow hmarked hdigits hhead (by omega)⟩
      · obtain ⟨hzero, hlong⟩ := Classical.not_imp.mp hhead
        exact .inr ⟨_, .leadingZero hmarked hdigits hzero hlong⟩
    · have hbad : ∃ c ∈ digits, digit? c = none := by simpa using hdigits
      obtain ⟨byte, hbyte, hnone⟩ := exists_byte_iff.mpr hbad
      exact .inr ⟨_, .badDigit hmarked hbyte hnone⟩
  · exact .inr ⟨_, .missingMarker fun digits h => hmarked ⟨digits, h⟩⟩

theorem decode_eq_ok_iff : decode s = .ok v ↔ ∃ digits, Spells s digits v := by
  constructor
  · intro h
    rcases spells_or_fault s with ⟨digits, v', hspells⟩ | ⟨e, hfault⟩
    · have hv := hspells.decode.symm.trans h
      obtain rfl := Except.ok.inj hv
      exact ⟨digits, hspells⟩
    · have := hfault.decode.symm.trans h
      cases this
  · rintro ⟨digits, hspells⟩
    exact hspells.decode

theorem decode_eq_error_iff : decode s = .error e ↔ Fault s e := by
  constructor
  · intro h
    rcases spells_or_fault s with ⟨digits, v, hspells⟩ | ⟨e', hfault⟩
    · have := hspells.decode.symm.trans h
      cases this
    · have he := hfault.decode.symm.trans h
      obtain rfl := Except.error.inj he
      exact hfault
  · exact Fault.decode

theorem toList_encode (v : UInt64) : (encode v).toList = '0' :: 'x' :: Text.hexDigits v.toNat :=
  String.toList_ofList

theorem spells_encode (v : UInt64) : Spells (encode v) (Text.hexDigits v.toNat) v where
  marked := .inl (toList_encode v)
  ne_nil := List.length_pos_iff.mp (Text.length_hexDigits_pos v.toNat)
  length_le := Text.length_hexDigits_le (by omega) v.toNat_lt
  head := by
    intro hhead
    have hzero : ¬ 0 < v.toNat := fun hpos => Text.head?_hexDigits v.toNat hpos hhead
    rw [Nat.eq_zero_of_not_pos hzero, Text.hexDigits_of_lt (by omega)]
    rfl
  numeral := numeral_hexDigits v.toNat

theorem decode_encode (v : UInt64) : decode (encode v) = .ok v :=
  (spells_encode v).decode

-- Lower-case digits of a number, of which there are no more than there have to be.
structure Shortest (digits : List Char) (n : Nat) : Prop where
  ne_nil : digits ≠ []
  numeral : Numeral digits n
  lower : ∀ c ∈ digits, c ∈ "0123456789abcdef".toList
  length_le : ∀ other, other ≠ [] → Numeral other n → digits.length ≤ other.length

theorem shortest_hexDigits (n : Nat) : Shortest (Text.hexDigits n) n where
  ne_nil := List.length_pos_iff.mp (Text.length_hexDigits_pos n)
  numeral := numeral_hexDigits n
  lower := by
    intro c hc
    obtain ⟨k, hk, rfl⟩ := Text.mem_hexDigits n c hc
    have hall : ∀ k < 16, Text.hexDigit k ∈ "0123456789abcdef".toList := by decide
    exact hall k hk
  length_le := fun _ hne hother =>
    Text.length_hexDigits_le (List.length_pos_iff.mpr hne) hother.lt

-- Reading takes the spellings of quantities and names the first fault of any other text. What
-- the checks let through is never refused as a word. Writing gives the shortest spelling.
theorem decode_exact :
    (∀ s v, decode s = .ok v ↔ ∃ digits, Spells s digits v) ∧
      (∀ s e, decode s = .error e ↔ Fault s e) ∧
      (∀ s (e : WordError), decode s ≠ .error (.badDigit e.message)) ∧
      ∀ v, (∃ digits, (encode v).toList = '0' :: 'x' :: digits ∧ Shortest digits v.toNat) ∧
        decode (encode v) = .ok v := by
  refine ⟨fun s v => decode_eq_ok_iff, fun s e => decode_eq_error_iff, ?_, ?_⟩
  · intro s e h
    -- A bad digit is reported with the text, and no text with a marker reads like a fault.
    have hfault := decode_eq_error_iff.mp h
    generalize htext : Error.badDigit e.message = fault at hfault
    cases hfault with
    | badDigit hmarked hbyte hbad =>
        obtain rfl := Error.badDigit.inj htext
        cases e <;> simp [Marked, WordError.message] at hmarked
    | missingMarker | empty | leadingZero | overflow => cases htext
  · intro v
    exact ⟨⟨Text.hexDigits v.toNat, toList_encode v, shortest_hexDigits v.toNat⟩, decode_encode v⟩

theorem toLower_of_isUpper_eq_false {c : Char} (h : c.isUpper = false) : c.toLower = c := by
  unfold Char.isUpper at h
  exact dif_neg (of_decide_eq_false h)

theorem isUpper_encode (v : UInt64) : ∀ c ∈ (encode v).toList, c.isUpper = false := by
  have hdigit : ∀ k < 16, (Text.hexDigit k).isUpper = false := by decide
  intro c hc
  rw [toList_encode] at hc
  rcases List.mem_cons.mp hc with rfl | hc
  · rfl
  · rcases List.mem_cons.mp hc with rfl | hc
    · rfl
    · obtain ⟨k, hk, rfl⟩ := Text.mem_hexDigits v.toNat c hc
      exact hdigit k hk

-- A spelling is the one that is written, in either case.
theorem Spells.map_toLower (h : Spells s digits v) :
    s.toList.map Char.toLower = (encode v).toList := by
  have hdigits := h.numeral.map_toLower h.ne_nil h.head
  have hzero : '0'.toLower = '0' := by decide
  have hlower : 'x'.toLower = 'x' := by decide
  have hupper : 'X'.toLower = 'x' := by decide
  rcases h.marked with hs | hs
  · rw [hs, List.map_cons, List.map_cons, hdigits, toList_encode, hzero, hlower]
  · rw [hs, List.map_cons, List.map_cons, hdigits, toList_encode, hzero, hupper]

-- A quantity that has been read is written again in lower case, so it comes back unchanged
-- exactly if it has no upper-case letter.
theorem encode_of_decode (h : decode s = .ok v) :
    (encode v).toList = s.toList.map Char.toLower ∧
      (encode v = s ↔ ∀ c ∈ s.toList, c.isUpper = false) := by
  obtain ⟨digits, hspells⟩ := decode_eq_ok_iff.mp h
  have hlower := hspells.map_toLower
  refine ⟨hlower.symm, ?_, ?_⟩
  · intro hsame
    rw [← hsame]
    exact isUpper_encode v
  · intro hcase
    have hid : s.toList.map Char.toLower = s.toList :=
      (List.map_congr_left fun c hc => toLower_of_isUpper_eq_false (hcase c hc)).trans
        (List.map_id s.toList)
    rw [hid] at hlower
    exact String.toList_injective hlower.symm

theorem encode_of_decode_mixed :
    decode "0xaB" = .ok 171 ∧ (encode 171).toList = "0xaB".toList.map Char.toLower := by
  have h : decode "0xaB" = .ok 171 := by decide +kernel
  exact ⟨h, (encode_of_decode h).1⟩

-- An upper-case marker is read, and written in lower case.
theorem decode_upper_case : decode "0X65" = .ok 101 ∧ encode 101 ≠ "0X65" := by
  decide +kernel

end Quantity

end SoftConfirm
