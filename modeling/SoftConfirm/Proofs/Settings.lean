import SoftConfirm.Proofs.Numerals
import SoftConfirm.Settings

namespace SoftConfirm

namespace Settings

variable {setting : Option String} {text : String}

-- A number that a setting can be given as: one from 1 to `bound`.
def Usable (bound : Nat) (text : String) (n : Nat) : Prop :=
  Text.Numeral text n ∧ 1 ≤ n ∧ n ≤ bound

theorem Usable.ne_empty {bound n : Nat} (h : Usable bound text n) : text ≠ "" := by
  rintro rfl
  obtain ⟨hne, -⟩ := Text.decimal_iff.mp (Text.numeral_iff.mp h.1)
  exact hne rfl

theorem given?_eq_some_iff :
    given? setting = some text ↔ setting.map Text.trim = some text ∧ text ≠ "" := by
  rw [given?, Option.filter_eq_some_iff]
  simp

theorem given?_eq_none_iff :
    given? setting = none ↔ setting = none ∨ setting.map Text.trim = some "" := by
  cases setting with
  | none => simp [given?]
  | some text => simp [given?]

-- What a threshold setting comes to. One with nothing but blanks counts as absent, and any other
-- has to be a number from 1 on.
inductive ThresholdOf (setting : Option String) : Except ConfigError (Option UInt32) → Prop where
  | unset (hblank : setting = none ∨ setting.map Text.trim = some "") :
      ThresholdOf setting (.ok none)
  | given {text : String} {value : UInt32} (htext : setting.map Text.trim = some text)
      (husable : Usable (2 ^ 32 - 1) text value.toNat) : ThresholdOf setting (.ok (some value))
  | invalid {text : String} (htext : setting.map Text.trim = some text) (hne : text ≠ "")
      (hunusable : ∀ n, ¬ Usable (2 ^ 32 - 1) text n) :
      ThresholdOf setting (.error (.invalidThreshold text))

-- What a scan-limit setting comes to. All that is no usable number gives way to the usual limit.
inductive ScanLimitOf (setting : Option String) : UInt64 → Prop where
  | given {text : String} {limit : UInt64} (htext : setting.map Text.trim = some text)
      (husable : Usable (2 ^ 64 - 1) text limit.toNat) : ScanLimitOf setting limit
  | usual (hunusable : ∀ text n, setting.map Text.trim = some text →
      ¬ Usable (2 ^ 64 - 1) text n) : ScanLimitOf setting defaultScanLimit

theorem usable_iff {bound n : Nat} (hlt : n < bound) :
    Usable (bound - 1) text n ↔ Text.Numeral text n ∧ 0 < n := by
  constructor
  · rintro ⟨hnumeral, hpos, -⟩
    exact ⟨hnumeral, hpos⟩
  · rintro ⟨hnumeral, hpos⟩
    exact ⟨hnumeral, hpos, by omega⟩

theorem usable_word32_iff {value : UInt32} :
    Usable (2 ^ 32 - 1) text value.toNat ↔ Text.word32? text = some value ∧ 0 < value := by
  rw [usable_iff value.toNat_lt, Text.word32?_eq_some_iff, UInt32.lt_iff_toNat_lt,
    UInt32.toNat_zero]

theorem usable_word64_iff {value : UInt64} :
    Usable (2 ^ 64 - 1) text value.toNat ↔ Text.word64? text = some value ∧ 0 < value := by
  rw [usable_iff value.toNat_lt, Text.word64?_eq_some_iff, UInt64.lt_iff_toNat_lt,
    UInt64.toNat_zero]

theorem ThresholdOf.threshold_eq {result : Except ConfigError (Option UInt32)}
    (h : ThresholdOf setting result) : threshold setting = result := by
  cases h with
  | unset hblank => rw [threshold, given?_eq_none_iff.mpr hblank]
  | given htext husable =>
      obtain ⟨hword, hpos⟩ := usable_word32_iff.mp husable
      rw [threshold, given?_eq_some_iff.mpr ⟨htext, husable.ne_empty⟩]
      simp only [hword, hpos, if_true]
  | @invalid text htext hne hunusable =>
      rw [threshold, given?_eq_some_iff.mpr ⟨htext, hne⟩]
      cases hword : Text.word32? text with
      | none => simp only [hword]
      | some value =>
          have hzero : ¬ 0 < value := fun hpos =>
            hunusable value.toNat (usable_word32_iff.mpr ⟨hword, hpos⟩)
          simp only [hword, hzero, if_false]

theorem ScanLimitOf.scanLimit_eq {limit : UInt64} (h : ScanLimitOf setting limit) :
    scanLimit setting = limit := by
  cases h with
  | given htext husable =>
      obtain ⟨hword, hpos⟩ := usable_word64_iff.mp husable
      rw [scanLimit, given?_eq_some_iff.mpr ⟨htext, husable.ne_empty⟩]
      simp only [Option.bind_some, hword, hpos, if_true]
  | usual hunusable =>
      unfold scanLimit
      split
      · rename_i value hvalue
        obtain ⟨text, hgiven, hword⟩ := Option.bind_eq_some_iff.mp hvalue
        have htext := (given?_eq_some_iff.mp hgiven).1
        have hzero : ¬ 0 < value := fun hpos =>
          hunusable text value.toNat htext (usable_word64_iff.mpr ⟨hword, hpos⟩)
        rw [if_neg hzero]
      · rfl

-- A word has room for any number that is usable.
theorem Usable.exists_word32 {n : Nat} (h : Usable (2 ^ 32 - 1) text n) :
    ∃ value : UInt32, value.toNat = n := by
  have hle : n ≤ 2 ^ 32 - 1 := h.2.2
  have hlt : n < UInt32.size := by
    unfold UInt32.size
    omega
  exact ⟨UInt32.ofNat n, UInt32.toNat_ofNat_of_lt' hlt⟩

theorem Usable.exists_word64 {n : Nat} (h : Usable (2 ^ 64 - 1) text n) :
    ∃ value : UInt64, value.toNat = n := by
  have hle : n ≤ 2 ^ 64 - 1 := h.2.2
  have hlt : n < UInt64.size := by
    unfold UInt64.size
    omega
  exact ⟨UInt64.ofNat n, UInt64.toNat_ofNat_of_lt' hlt⟩

theorem exists_thresholdOf (setting : Option String) : ∃ result, ThresholdOf setting result := by
  by_cases hblank : setting = none ∨ setting.map Text.trim = some ""
  · exact ⟨_, .unset hblank⟩
  · obtain ⟨hthere, hne⟩ := not_or.mp hblank
    obtain ⟨text, htext⟩ := Option.ne_none_iff_exists'.mp (mt Option.map_eq_none_iff.mp hthere)
    by_cases husable : ∃ n, Usable (2 ^ 32 - 1) text n
    · obtain ⟨n, husable⟩ := husable
      obtain ⟨value, rfl⟩ := husable.exists_word32
      exact ⟨_, .given htext husable⟩
    · have hempty : text ≠ "" := by
        rintro rfl
        exact hne htext
      exact ⟨_, .invalid htext hempty fun n h => husable ⟨n, h⟩⟩

theorem exists_scanLimitOf (setting : Option String) : ∃ limit, ScanLimitOf setting limit := by
  by_cases husable : ∃ text n, setting.map Text.trim = some text ∧ Usable (2 ^ 64 - 1) text n
  · obtain ⟨text, n, htext, husable⟩ := husable
    obtain ⟨value, rfl⟩ := husable.exists_word64
    exact ⟨value, .given htext husable⟩
  · exact ⟨_, .usual fun text n htext h => husable ⟨text, n, htext, h⟩⟩

theorem threshold_eq_iff {result : Except ConfigError (Option UInt32)} :
    threshold setting = result ↔ ThresholdOf setting result := by
  refine ⟨fun h => ?_, ThresholdOf.threshold_eq⟩
  obtain ⟨other, hother⟩ := exists_thresholdOf setting
  rwa [← h, hother.threshold_eq]

theorem scanLimitOf_scanLimit (setting : Option String) :
    ScanLimitOf setting (scanLimit setting) := by
  obtain ⟨limit, hlimit⟩ := exists_scanLimitOf setting
  rwa [hlimit.scanLimit_eq]

theorem ScanLimitOf.one_le {limit : UInt64} (h : ScanLimitOf setting limit) : 1 ≤ limit.toNat := by
  cases h with
  | given htext husable => exact husable.2.1
  | usual hunusable => decide

theorem usableScanLimit_of_one_le {limit : UInt64} (h : 1 ≤ limit.toNat) :
    usableScanLimit limit = limit := by
  have hle : 1 ≤ limit := UInt64.le_iff_toNat_le.mpr h
  have hmax : max limit 1 = if limit ≤ 1 then 1 else limit := rfl
  rw [usableScanLimit, hmax]
  split
  · rename_i hone
    exact UInt64.le_antisymm hle hone
  · rfl

-- A threshold is left out, given as a number from 1 on, or refused with its trimmed text. A scan
-- limit is any number from 1 on and else the usual one, and a resolver can use it as it is.
theorem overrides_usable (setting : Option String) :
    (threshold setting = .ok none ↔ setting = none ∨ setting.map Text.trim = some "") ∧
      (∀ value, threshold setting = .ok (some value) ↔
        ∃ text, setting.map Text.trim = some text ∧ Usable (2 ^ 32 - 1) text value.toNat) ∧
      (∀ e, threshold setting = .error e ↔
        ∃ text, setting.map Text.trim = some text ∧ text ≠ "" ∧
          (∀ n, ¬ Usable (2 ^ 32 - 1) text n) ∧ e = .invalidThreshold text) ∧
      (∀ text n, setting.map Text.trim = some text → Text.Numeral text n →
        ((scanLimit setting).toNat = n ↔ 1 ≤ n ∧ n ≤ 2 ^ 64 - 1)) ∧
      ((∀ text n, setting.map Text.trim = some text → ¬ Usable (2 ^ 64 - 1) text n) →
        scanLimit setting = defaultScanLimit) ∧
      1 ≤ (scanLimit setting).toNat ∧
      usableScanLimit (scanLimit setting) = scanLimit setting := by
  have hlimit := scanLimitOf_scanLimit setting
  refine ⟨?_, fun value => ?_, fun e => ?_, fun text n htext hnumeral => ?_, fun h => ?_,
    hlimit.one_le, usableScanLimit_of_one_le hlimit.one_le⟩
  · rw [threshold_eq_iff]
    constructor
    · intro h
      cases h with
      | unset hblank => exact hblank
    · exact .unset
  · rw [threshold_eq_iff]
    constructor
    · intro h
      cases h with
      | given htext husable => exact ⟨_, htext, husable⟩
    · rintro ⟨text, htext, husable⟩
      exact .given htext husable
  · rw [threshold_eq_iff]
    constructor
    · intro h
      cases h with
      | invalid htext hne hunusable => exact ⟨_, htext, hne, hunusable, rfl⟩
    · rintro ⟨text, htext, hne, hunusable, rfl⟩
      exact .invalid htext hne hunusable
  · constructor
    · rintro rfl
      exact ⟨hlimit.one_le, Nat.le_pred_of_lt (scanLimit setting).toNat_lt⟩
    · intro hbounds
      have husable : Usable (2 ^ 64 - 1) text n := ⟨hnumeral, hbounds⟩
      obtain ⟨value, rfl⟩ := husable.exists_word64
      rw [(ScanLimitOf.given htext husable).scanLimit_eq]
  · exact (ScanLimitOf.usual h).scanLimit_eq

-- With a plus sign, leading zeros and blanks around it, 2^32 is too large for a threshold but not
-- for a scan limit.
theorem overrides_usable_two_pow :
    let setting := some "\u2003+004294967296\n"
    setting.map Text.trim = some "+004294967296" ∧ Text.Numeral "+004294967296" (2 ^ 32) ∧
      threshold setting = .error (.invalidThreshold "+004294967296") ∧
      (scanLimit setting).toNat = 2 ^ 32 := by
  intro setting
  have htext : setting.map Text.trim = some "+004294967296" := by decide
  have hnumeral : Text.Numeral "+004294967296" (2 ^ 32) := by decide
  have hunusable : ∀ n, ¬ Usable (2 ^ 32 - 1) "+004294967296" n := by
    rintro n ⟨hother, -, hle⟩
    have hn := hnumeral.unique hother
    omega
  obtain ⟨-, -, hrefused, hlimit, -⟩ := overrides_usable setting
  refine ⟨htext, hnumeral, ?_, ?_⟩
  · exact (hrefused _).mpr ⟨_, htext, by decide, hunusable, rfl⟩
  · exact (hlimit _ _ htext hnumeral).mpr (by decide)

end Settings

end SoftConfirm
