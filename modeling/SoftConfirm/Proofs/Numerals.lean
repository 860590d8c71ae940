import Mathlib.Data.List.Induction
import Mathlib.Data.Nat.Digits.Defs
import SoftConfirm.Text.Numeral

namespace SoftConfirm

namespace Text

variable {s : String} {cs : List Char} {values : List Nat} {bound n : Nat}

-- The number that decimal digits stand for, the highest first. There is at least one of them, and
-- zeros may lead.
def Decimal (cs : List Char) (n : Nat) : Prop :=
  ∃ values : List Nat, values ≠ [] ∧ (∀ d ∈ values, d < 10) ∧ cs = values.map Nat.digitChar ∧
    Nat.ofDigits 10 values.reverse = n

-- The number that a text spells in ASCII digits, with or without a plus sign before them.
def Numeral (s : String) (n : Nat) : Prop :=
  ∃ cs, (s.toList = cs ∨ s.toList = '+' :: cs) ∧ Decimal cs n

theorem digitValue_digitChar : ∀ d < 10, digitValue (Nat.digitChar d) = d := by decide

-- Reading digits one after the other comes to their positional value.
theorem digitsValue_map_digitChar (h : ∀ d ∈ values, d < 10) :
    digitsValue (values.map Nat.digitChar) = Nat.ofDigits 10 values.reverse := by
  induction values using List.reverseRecOn with
  | nil => rfl
  | append_singleton values d ih =>
      have hd : digitValue (Nat.digitChar d) = d := digitValue_digitChar d (h d (by simp))
      have hvalues := ih fun other hother => h other (List.mem_append_left _ hother)
      rw [digitsValue] at hvalues ⊢
      rw [List.map_append, List.foldl_append, hvalues, List.reverse_concat, Nat.ofDigits_cons]
      simp only [List.map_cons, List.map_nil, List.foldl_cons, List.foldl_nil, hd]
      omega

theorem digitChar_digitValue {c : Char} (h : c.isDigit = true) :
    digitValue c < 10 ∧ Nat.digitChar (digitValue c) = c := by
  have hrange : 48 ≤ c.toNat ∧ c.toNat ≤ 57 := by
    simpa [Char.isDigit, UInt32.le_iff_toNat_le] using h
  have hdigits : ∀ k < 58, 48 ≤ k → Nat.digitChar (k - 48) = Char.ofNat k := by decide
  have hc := hdigits c.toNat (by omega) hrange.1
  rw [Char.ofNat_toNat] at hc
  exact ⟨by unfold digitValue; omega, hc⟩

theorem decimal_iff :
    Decimal cs n ↔ cs ≠ [] ∧ (∀ c ∈ cs, c.isDigit = true) ∧ digitsValue cs = n := by
  constructor
  · rintro ⟨values, hne, hlt, rfl, rfl⟩
    refine ⟨by simpa using hne, ?_, digitsValue_map_digitChar hlt⟩
    intro c hc
    obtain ⟨d, hd, rfl⟩ := List.mem_map.mp hc
    rw [Nat.isDigit_digitChar]
    exact decide_eq_true (hlt d hd)
  · rintro ⟨hne, hdigits, rfl⟩
    have hlt : ∀ d ∈ cs.map digitValue, d < 10 := by
      intro d hd
      obtain ⟨c, hc, rfl⟩ := List.mem_map.mp hd
      exact (digitChar_digitValue (hdigits c hc)).1
    have hcs : (cs.map digitValue).map Nat.digitChar = cs := by
      rw [List.map_map]
      exact (List.map_congr_left fun c hc => (digitChar_digitValue (hdigits c hc)).2).trans
        (List.map_id' cs)
    refine ⟨cs.map digitValue, by simpa using hne, hlt, hcs.symm, ?_⟩
    rw [← digitsValue_map_digitChar hlt, hcs]

instance (cs : List Char) (n : Nat) : Decidable (Decimal cs n) :=
  decidable_of_iff (cs ≠ [] ∧ cs.all Char.isDigit = true ∧ digitsValue cs = n)
    (by rw [decimal_iff, List.all_eq_true])

-- Digits have no sign of their own.
theorem numeralDigits_of_digits (h : ∀ c ∈ cs, c.isDigit = true) : numeralDigits cs = cs := by
  unfold numeralDigits
  split
  · exact absurd (h '+' List.mem_cons_self) (by decide)
  · rfl

theorem numeral_iff : Numeral s n ↔ Decimal (numeralDigits s.toList) n := by
  constructor
  · rintro ⟨cs, hs, h⟩
    rcases hs with hs | hs
    · rw [hs, numeralDigits_of_digits (decimal_iff.mp h).2.1]
      exact h
    · rw [hs]
      exact h
  · intro h
    refine ⟨numeralDigits s.toList, ?_, h⟩
    unfold numeralDigits
    split
    · rename_i hs
      exact .inr hs
    · exact .inl rfl

instance (s : String) (n : Nat) : Decidable (Numeral s n) :=
  decidable_of_iff (Decimal (numeralDigits s.toList) n) numeral_iff.symm

-- A text spells at most one number.
theorem Numeral.unique {m : Nat} (hm : Numeral s m) (hn : Numeral s n) : m = n := by
  obtain ⟨-, -, hm⟩ := decimal_iff.mp (numeral_iff.mp hm)
  obtain ⟨-, -, hn⟩ := decimal_iff.mp (numeral_iff.mp hn)
  exact hm.symm.trans hn

theorem numeral?_eq_some_iff : numeral? bound s = some n ↔ Numeral s n ∧ n ≤ bound := by
  have hguard : (numeralDigits s.toList).isEmpty || !(numeralDigits s.toList).all Char.isDigit ↔
      ¬ (numeralDigits s.toList ≠ [] ∧ ∀ c ∈ numeralDigits s.toList, c.isDigit = true) := by
    simp only [Bool.or_eq_true, List.isEmpty_iff, Bool.not_eq_true', ← Bool.not_eq_true,
      List.all_eq_true, ne_eq, not_and_or, not_not]
  rw [numeral_iff, decimal_iff, numeral?]
  dsimp only
  split
  · rename_i hbad
    have hnot := hguard.mp hbad
    simp only [reduceCtorEq, false_iff]
    rintro ⟨⟨hne, hdigits, -⟩, -⟩
    exact hnot ⟨hne, hdigits⟩
  · rename_i hgood
    obtain ⟨hne, hdigits⟩ := not_not.mp fun h => hgood (hguard.mpr h)
    split
    · rename_i hle
      constructor
      · intro h
        obtain rfl := Option.some.inj h
        exact ⟨⟨hne, hdigits, rfl⟩, hle⟩
      · rintro ⟨⟨-, -, rfl⟩, -⟩
        rfl
    · rename_i hlt
      simp only [reduceCtorEq, false_iff]
      rintro ⟨⟨-, -, rfl⟩, hle⟩
      exact hlt hle

-- Words are read as the numbers that they are, whatever their size.
theorem map_numeral?_eq_some_iff {word : Type} {ofNat : Nat → word} {toNat : word → Nat}
    (hofNat : ∀ n ≤ bound, toNat (ofNat n) = n) (htoNat : ∀ value, ofNat (toNat value) = value)
    (hbound : ∀ value, toNat value ≤ bound) {value : word} :
    (numeral? bound s).map ofNat = some value ↔ Numeral s (toNat value) := by
  rw [Option.map_eq_some_iff]
  constructor
  · rintro ⟨n, hn, rfl⟩
    obtain ⟨hnumeral, hle⟩ := numeral?_eq_some_iff.mp hn
    rwa [hofNat n hle]
  · intro h
    exact ⟨toNat value, numeral?_eq_some_iff.mpr ⟨h, hbound value⟩, htoNat value⟩

theorem word32?_eq_some_iff {value : UInt32} : word32? s = some value ↔ Numeral s value.toNat :=
  map_numeral?_eq_some_iff
    (fun _ hle => UInt32.toNat_ofNat_of_lt' (Nat.lt_of_le_pred (by decide) hle))
    (fun _ => UInt32.ofNat_toNat) fun value => Nat.le_pred_of_lt value.toNat_lt

theorem word64?_eq_some_iff {value : UInt64} : word64? s = some value ↔ Numeral s value.toNat :=
  map_numeral?_eq_some_iff
    (fun _ hle => UInt64.toNat_ofNat_of_lt' (Nat.lt_of_le_pred (by decide) hle))
    (fun _ => UInt64.ofNat_toNat) fun value => Nat.le_pred_of_lt value.toNat_lt

end Text

end SoftConfirm
