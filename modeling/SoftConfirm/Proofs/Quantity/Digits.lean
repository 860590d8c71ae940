import Mathlib.Algebra.Group.Nat.Defs
import Mathlib.Data.List.Induction
import Mathlib.Data.Nat.Digits.Defs
import SoftConfirm.Proofs.Spelling
import SoftConfirm.Quantity

namespace SoftConfirm

namespace Text

theorem hexDigits_of_lt {n : Nat} (h : n < 16) : hexDigits n = [hexDigit n] := by
  rw [hexDigits, hexDigitsOnto, dif_pos h]

theorem hexDigitsOnto_of_le {n : Nat} (h : 16 ≤ n) (tail : List Char) :
    hexDigitsOnto n tail = hexDigitsOnto (n / 16) (hexDigit (n % 16) :: tail) := by
  rw [hexDigitsOnto, dif_neg (by omega)]

theorem hexDigitsOnto_eq (n : Nat) (tail : List Char) :
    hexDigitsOnto n tail = hexDigits n ++ tail := by
  induction n using Nat.strongRecOn generalizing tail with
  | ind n ih =>
      by_cases h : n < 16
      · rw [hexDigits_of_lt h, hexDigitsOnto, dif_pos h, List.singleton_append]
      · have hlt : n / 16 < n := by omega
        have hle : 16 ≤ n := by omega
        rw [hexDigits, hexDigitsOnto_of_le hle, hexDigitsOnto_of_le hle, ih _ hlt,
          ih _ hlt [hexDigit (n % 16)], List.append_assoc, List.singleton_append]

theorem hexDigits_of_le {n : Nat} (h : 16 ≤ n) :
    hexDigits n = hexDigits (n / 16) ++ [hexDigit (n % 16)] := by
  rw [hexDigits, hexDigitsOnto_of_le h, hexDigitsOnto_eq]

-- Induction over the digits of a number, the highest first.
theorem hexDigits_induction {motive : Nat → List Char → Prop}
    (single : ∀ n < 16, motive n [hexDigit n])
    (append : ∀ n digit, 0 < n → digit < 16 → motive n (hexDigits n) →
      motive (n * 16 + digit) (hexDigits n ++ [hexDigit digit])) (n : Nat) :
    motive n (hexDigits n) := by
  induction n using Nat.strongRecOn with
  | ind n ih =>
      by_cases h : n < 16
      · rw [hexDigits_of_lt h]
        exact single n h
      · have hstep := append (n / 16) (n % 16) (by omega) (by omega) (ih (n / 16) (by omega))
        rw [hexDigits_of_le (by omega)]
        rwa [Nat.div_add_mod'] at hstep

theorem mem_hexDigits (n : Nat) : ∀ c ∈ hexDigits n, ∃ k < 16, c = hexDigit k := by
  refine hexDigits_induction (motive := fun _ cs => ∀ c ∈ cs, ∃ k < 16, c = hexDigit k) ?_ ?_ n
  · intro n hn c hc
    exact ⟨n, hn, List.mem_singleton.mp hc⟩
  · intro n digit _ hdigit ih c hc
    rcases List.mem_append.mp hc with hc | hc
    · exact ih c hc
    · exact ⟨digit, hdigit, List.mem_singleton.mp hc⟩

theorem length_hexDigits_pos (n : Nat) : 0 < (hexDigits n).length := by
  refine hexDigits_induction (motive := fun _ cs => 0 < cs.length) ?_ ?_ n
  · simp
  · simp

-- A number below the `count`-th power of sixteen has at most `count` digits.
theorem length_hexDigits_le {n count : Nat} (hcount : 0 < count) (h : n < 16 ^ count) :
    (hexDigits n).length ≤ count := by
  induction count generalizing n with
  | zero => omega
  | succ count ih =>
      by_cases hn : n < 16
      · simp [hexDigits_of_lt hn]
      · have hlt : n / 16 < 16 ^ count := Nat.div_lt_of_lt_mul (by rwa [Nat.pow_succ'] at h)
        have hpos : 0 < count := by
          cases count with
          | zero =>
              rw [Nat.pow_zero] at hlt
              omega
          | succ count => exact Nat.succ_pos count
        rw [hexDigits_of_le (by omega), List.length_append, List.length_singleton]
        exact Nat.succ_le_succ (ih hpos hlt)

-- Only zero itself starts with a zero.
theorem head?_hexDigits (n : Nat) (hn : 0 < n) : (hexDigits n).head? ≠ some '0' := by
  revert hn
  refine hexDigits_induction (motive := fun n cs => 0 < n → cs.head? ≠ some '0') ?_ ?_ n
  · decide
  · intro n digit hn _ ih _
    have hne : hexDigits n ≠ [] := List.length_pos_iff.mp (length_hexDigits_pos n)
    rw [List.head?_append, List.head?_eq_some_head hne, Option.some_or,
      ← List.head?_eq_some_head hne]
    exact ih hn

end Text

namespace Quantity

theorem digit?_hexDigit : ∀ n < 16, digit? (Text.hexDigit n) = some n := by decide

-- An ASCII character is the digit that its byte is.
theorem digit?_eq_digitValue? {c : Char} (h : c.toNat < 128) :
    digit? c = Hex.digitValue? (UInt8.ofNat c.toNat) := by
  have hbyte : (UInt8.ofNat c.toNat).toNat = c.toNat := by
    rw [UInt8.toNat_ofNat']
    omega
  simp only [digit?, Hex.digitValue?, hbyte]

theorem digit?_of_le {c : Char} (h : 128 ≤ c.toNat) : digit? c = none := by
  have hdecimal : ¬ c.toNat ≤ 57 := by omega
  have hlower : ¬ c.toNat ≤ 102 := by omega
  have hupper : ¬ c.toNat ≤ 70 := by omega
  simp [digit?, hdecimal, hlower, hupper]

theorem ascii_of_digit? {c : Char} {n : Nat} (h : digit? c = some n) : c.toNat < 128 := by
  by_contra hle
  rw [digit?_of_le (by omega)] at h
  exact absurd h nofun

theorem digit?_lt {c : Char} {n : Nat} (h : digit? c = some n) : n < 16 := by
  rw [digit?_eq_digitValue? (ascii_of_digit? h)] at h
  exact Hex.digitValue?_lt h

theorem toLower_of_digit? {c : Char} {n : Nat} (h : digit? c = some n) :
    c.toLower = Text.hexDigit n := by
  have hascii := ascii_of_digit? h
  have hdigit := Hex.digitValue?_ascii c.toNat hascii n (digit?_lt h)
  rw [Char.ofNat_toNat, ← digit?_eq_digitValue? hascii] at hdigit
  exact hdigit.mp h

theorem eq_zero_of_digit? {c : Char} (h : digit? c = some 0) : c = '0' := by
  have hascii := ascii_of_digit? h
  have hzero : ∀ k < 128, digit? (Char.ofNat k) = some 0 → Char.ofNat k = '0' := by decide
  have hc := hzero c.toNat hascii
  rw [Char.ofNat_toNat] at hc
  exact hc h

-- A text is made of digits exactly if its bytes are.
theorem exists_byte_iff {cs : List Char} :
    (∃ byte ∈ Text.utf8 (String.ofList cs), Hex.digitValue? byte = none) ↔
      ∃ c ∈ cs, digit? c = none := by
  simp only [Text.utf8_ofList, List.mem_flatMap]
  constructor
  · rintro ⟨byte, ⟨c, hc, hbyte⟩, hnone⟩
    refine ⟨c, hc, ?_⟩
    by_cases hascii : c.toNat < 128
    · rw [Text.utf8EncodeChar_of_ascii hascii, List.mem_singleton] at hbyte
      rw [digit?_eq_digitValue? hascii, ← hbyte, hnone]
    · exact digit?_of_le (by omega)
  · rintro ⟨c, hc, hnone⟩
    by_cases hascii : c.toNat < 128
    · refine ⟨UInt8.ofNat c.toNat, ⟨c, hc, ?_⟩, ?_⟩
      · rw [Text.utf8EncodeChar_of_ascii hascii, List.mem_singleton]
      · rw [← digit?_eq_digitValue? hascii, hnone]
    · obtain ⟨byte, rest, hbytes, hbyte⟩ := Hex.exists_utf8EncodeChar_eq_cons hascii
      exact ⟨byte, ⟨c, hc, by simp [hbytes]⟩, Hex.digitValue?_of_le hbyte⟩

-- The number that these base-16 digits stand for, the highest first.
def Numeral (digits : List Char) (n : Nat) : Prop :=
  ∃ values : List Nat, digits.map digit? = values.map some ∧ Nat.ofDigits 16 values.reverse = n

section Numeral

variable {digits : List Char} {c : Char} {n : Nat}

theorem numeral_nil_iff : Numeral [] n ↔ n = 0 := by
  constructor
  · rintro ⟨values, hvalues, rfl⟩
    obtain rfl := List.map_eq_nil_iff.mp hvalues.symm
    rfl
  · rintro rfl
    exact ⟨[], rfl, rfl⟩

theorem numeral_concat_iff :
    Numeral (digits ++ [c]) n ↔ ∃ m d, Numeral digits m ∧ digit? c = some d ∧ n = m * 16 + d := by
  constructor
  · rintro ⟨values, hvalues, rfl⟩
    rw [List.map_append] at hvalues
    obtain ⟨before, last, rfl, hbefore, hlast⟩ := List.map_eq_append_iff.mp hvalues.symm
    obtain ⟨d, rfl, hd⟩ := List.map_eq_singleton_iff.mp hlast
    refine ⟨_, d, ⟨before, hbefore.symm, rfl⟩, hd.symm, ?_⟩
    rw [List.reverse_concat, Nat.ofDigits_cons]
    omega
  · rintro ⟨m, d, ⟨values, hvalues, rfl⟩, hd, rfl⟩
    refine ⟨values ++ [d], by simp [hvalues, hd], ?_⟩
    rw [List.reverse_concat, Nat.ofDigits_cons]
    omega

theorem exists_numeral (h : ∀ c ∈ digits, digit? c ≠ none) : ∃ n, Numeral digits n := by
  induction digits using List.reverseRecOn with
  | nil => exact ⟨0, numeral_nil_iff.mpr rfl⟩
  | append_singleton digits c ih =>
      obtain ⟨m, hm⟩ := ih fun c hc => h c (List.mem_append_left _ hc)
      obtain ⟨d, hd⟩ := Option.ne_none_iff_exists'.mp (h c (by simp))
      exact ⟨m * 16 + d, numeral_concat_iff.mpr ⟨m, d, hm, hd, rfl⟩⟩

theorem Numeral.digit?_ne_none (h : Numeral digits n) : ∀ c ∈ digits, digit? c ≠ none := by
  obtain ⟨values, hvalues, -⟩ := h
  intro c hc hnone
  have hmem : none ∈ digits.map digit? := List.mem_map.mpr ⟨c, hc, hnone⟩
  rw [hvalues] at hmem
  simp at hmem

theorem numeral_hexDigits (n : Nat) : Numeral (Text.hexDigits n) n := by
  refine Text.hexDigits_induction (motive := fun n digits => Numeral digits n) ?_ ?_ n
  · intro n hn
    have hsingle : Numeral ([] ++ [Text.hexDigit n]) n :=
      numeral_concat_iff.mpr ⟨0, n, numeral_nil_iff.mpr rfl, digit?_hexDigit n hn, by omega⟩
    exact hsingle
  · intro n digit _ hdigit ih
    exact numeral_concat_iff.mpr ⟨n, digit, ih, digit?_hexDigit digit hdigit, rfl⟩

theorem Numeral.lt (h : Numeral digits n) : n < 16 ^ digits.length := by
  induction digits using List.reverseRecOn generalizing n with
  | nil => simp [numeral_nil_iff.mp h]
  | append_singleton digits c ih =>
      obtain ⟨m, d, hm, hd, rfl⟩ := numeral_concat_iff.mp h
      have hlt := ih hm
      have hdlt := digit?_lt hd
      rw [List.length_append, List.length_singleton, Nat.pow_succ]
      omega

-- Only digits that start with a zero can stand for zero.
theorem Numeral.pos (h : Numeral digits n) (hne : digits ≠ []) (hhead : digits.head? ≠ some '0') :
    0 < n := by
  induction digits using List.reverseRecOn generalizing n with
  | nil => exact absurd rfl hne
  | append_singleton digits c ih =>
      obtain ⟨m, d, hm, hd, rfl⟩ := numeral_concat_iff.mp h
      cases digits with
      | nil =>
          have hc : c ≠ '0' := by simpa using hhead
          have hd0 : d ≠ 0 := by
            rintro rfl
            exact hc (eq_zero_of_digit? hd)
          omega
      | cons first digits =>
          have := ih hm (List.cons_ne_nil _ _) (by simpa using hhead)
          omega

-- Digits without a zero before them are, in lower case, those that their number is written with.
theorem Numeral.map_toLower (h : Numeral digits n) (hne : digits ≠ [])
    (hhead : digits.head? = some '0' → digits = ['0']) :
    digits.map Char.toLower = Text.hexDigits n := by
  induction digits using List.reverseRecOn generalizing n with
  | nil => exact absurd rfl hne
  | append_singleton digits c ih =>
      obtain ⟨m, d, hm, hd, rfl⟩ := numeral_concat_iff.mp h
      have hdlt := digit?_lt hd
      have hlower := toLower_of_digit? hd
      cases digits with
      | nil =>
          obtain rfl := numeral_nil_iff.mp hm
          rw [Nat.zero_mul, Nat.zero_add, Text.hexDigits_of_lt hdlt]
          simp [hlower]
      | cons first digits =>
          have hfirst : (first :: digits).head? ≠ some '0' := by
            intro hzero
            have := hhead (by simpa using hzero)
            simp at this
          have hpos := hm.pos (List.cons_ne_nil _ _) hfirst
          have hrest := ih hm (List.cons_ne_nil _ _) fun hzero => absurd hzero hfirst
          have hdiv : (m * 16 + d) / 16 = m := by omega
          have hmod : (m * 16 + d) % 16 = d := by omega
          rw [Text.hexDigits_of_le (by omega), hdiv, hmod, ← hrest, ← hlower]
          simp

-- No overflow is met on the way to a number that is a word.
theorem Numeral.foldlM (h : Numeral digits n) (hn : n < UInt64.size) :
    digits.foldlM pushDigit 0 = .ok n := by
  induction digits using List.reverseRecOn generalizing n with
  | nil =>
      obtain rfl := numeral_nil_iff.mp h
      rfl
  | append_singleton digits c ih =>
      obtain ⟨m, d, hm, hd, rfl⟩ := numeral_concat_iff.mp h
      rw [List.foldlM_append, ih hm (by omega)]
      simp [pushDigit, hd, hn, bind, Except.bind, pure, Except.pure]

theorem Numeral.word (h : Numeral digits n) (hne : digits ≠ []) (hn : n < UInt64.size) :
    word digits = .ok (UInt64.ofNat n) := by
  have hdigits := h.digit?_ne_none
  have hsign : digit? '+' = none := by decide
  cases digits with
  | nil => exact absurd rfl hne
  | cons c cs =>
      have hc : c ≠ '+' := by
        rintro rfl
        exact hdigits '+' List.mem_cons_self hsign
      have hplain : Text.numeralDigits (c :: cs) = c :: cs := by
        unfold Text.numeralDigits
        split
        · rename_i heq
          exact absurd (List.cons.inj heq).1 hc
        · rfl
      unfold Quantity.word
      split
      · contradiction
      · rename_i heq
        exact absurd (List.cons.inj heq).1 hc
      · rw [hplain, h.foldlM hn]
        rfl

end Numeral

end Quantity

end SoftConfirm
