import Mathlib.Algebra.Group.Int.Defs
import Mathlib.Algebra.Group.Nat.Defs
import SoftConfirm.Json.Value
import SoftConfirm.Proofs.Hex

namespace SoftConfirm.Json

namespace Numeral

-- What gathering does with one digit.
def gatherDigit : Nat × Nat × Nat × Bool → Char → Nat × Nat × Nat × Bool :=
  fun (value, taken, left, full) c =>
    let next := value * 10 + Text.digitValue c
    if full || wordBound ≤ next then (value, taken, left + 1, true)
    else (next, taken + 1, left, false)

theorem le_ofDigitChars (digits : List Char) (start : Nat) :
    start ≤ Nat.ofDigitChars 10 digits start := by
  have hpos : 0 < 10 ^ digits.length := Nat.pow_pos (by omega)
  rw [Nat.ofDigitChars_eq_ofDigitChars_zero]
  exact Nat.le_add_right_of_le (Nat.le_mul_of_pos_left start hpos)

theorem ofDigitChars_cons (c : Char) (digits : List Char) (start : Nat) :
    Nat.ofDigitChars 10 (c :: digits) start =
      Nat.ofDigitChars 10 digits (start * 10 + Text.digitValue c) := by
  rw [Nat.ofDigitChars_cons, Nat.mul_comm]
  rfl

theorem foldl_gatherDigit {digits : List Char} {start : Nat} (taken : Nat)
    (h : Nat.ofDigitChars 10 digits start < wordBound) :
    digits.foldl gatherDigit (start, taken, 0, false) =
      (Nat.ofDigitChars 10 digits start, taken + digits.length, 0, false) := by
  induction digits generalizing start taken with
  | nil =>
      rw [Nat.ofDigitChars_nil]
      rfl
  | cons c digits ih =>
      rw [ofDigitChars_cons] at h
      have hnext : ¬ wordBound ≤ start * 10 + Text.digitValue c :=
        Nat.not_le.mpr (Nat.lt_of_le_of_lt (le_ofDigitChars digits _) h)
      have hstep : gatherDigit (start, taken, 0, false) c =
          (start * 10 + Text.digitValue c, taken + 1, 0, false) := by
        simp only [gatherDigit, Bool.false_or, decide_eq_true_eq, hnext, if_false]
      rw [List.foldl_cons, hstep, ih (taken + 1) h, ofDigitChars_cons, List.length_cons,
        Nat.add_right_comm, Nat.add_assoc]

-- Digits whose number fits a word are all taken.
theorem gather_of_lt {digits : List Char} {start : Nat}
    (h : Nat.ofDigitChars 10 digits start < wordBound) :
    gather start digits = (Nat.ofDigitChars 10 digits start, digits.length, 0) := by
  have hfold := foldl_gatherDigit 0 h
  rw [Nat.zero_add] at hfold
  exact congrArg (fun (value, taken, left, _) => (value, taken, left)) hfold

-- A numeral of a sign and digits only.
def ofDigits (negative : Bool) (whole : List Char) : Numeral :=
  ⟨negative, whole, [], false, [], false⟩

theorem value?_ofDigits {n : Nat} (h : n < wordBound) :
    (ofDigits false (Nat.toDigits 10 n)).value? = some (.integer n) := by
  have hdigits : Nat.ofDigitChars 10 (Nat.toDigits 10 n) 0 = n := Nat.ofDigitChars_ten_toDigits
  have hgather := gather_of_lt (hdigits.symm ▸ h)
  rw [hdigits] at hgather
  simp only [value?, ofDigits, hgather]
  rfl

theorem value?_ofDigits_negative {n : Nat} (hpos : 0 < n) (h : n ≤ 2 ^ 63) :
    (ofDigits true (Nat.toDigits 10 n)).value? = some (.integer (-n)) := by
  have hdigits : Nat.ofDigitChars 10 (Nat.toDigits 10 n) 0 = n := Nat.ofDigitChars_ten_toDigits
  have hword : n < wordBound := by
    unfold wordBound UInt64.size
    omega
  have hgather := gather_of_lt (hdigits.symm ▸ hword)
  have hsmall : ¬ (n = 0 ∨ Nat.pow 2 63 < n) := by
    rw [Nat.pow_eq]
    omega
  rw [hdigits] at hgather
  simp only [value?, ofDigits, hgather, hsmall, ne_eq, not_true_eq_false, decide_false,
    Bool.or_false, Bool.not_true, Bool.false_eq_true, if_false]
  rfl

end Numeral

namespace Scanner

open Numeral (ofDigits)

inductive Mark : Char → Token → Prop
  | comma : Mark ',' .comma
  | closeArray : Mark ']' .closeArray
  | closeObject : Mark '\x7d' .closeObject

-- The scanner has read these tokens, the last one first, as soon as the text ends or goes on with
-- a mark. A numeral is over only then.
structure Settled (s : Scanner) (reversed : List Token) : Prop where
  finish : s.finish = reversed.reverse
  step : ∀ c token, Mark c token → s.step c = ⟨token :: reversed, .between⟩

theorem settled_between (reversed : List Token) : Settled ⟨reversed, .between⟩ reversed where
  finish := rfl
  step := by
    intro c token hmark
    cases hmark <;> rfl

theorem settled_numeral (done : List Token) {part : NumberPart}
    (hpart : part = .zero ∨ part = .whole) (n : Numeral) :
    Settled ⟨done, .number part n⟩ (.number (forward n).value? :: done) := by
  rcases hpart with rfl | rfl
  all_goals
    refine ⟨rfl, ?_⟩
    intro c token hmark
    cases hmark <;> rfl

theorem stepBetween_digit (s : Scanner) {c : Char} (hdigit : c.isDigit) (hzero : c ≠ '0') :
    s.stepBetween c = s.enter (.number .whole (ofDigits false [c])) := by
  unfold stepBetween
  split
  case isTrue hspace =>
    simp only [isSpace, Bool.or_eq_true, beq_iff_eq] at hspace
    rcases hspace with ((rfl | rfl) | rfl) | rfl <;> exact absurd hdigit (by decide)
  case isFalse =>
    split
    -- Zero and the characters that no pattern names come last, and nothing else is a digit.
    case h_12 => exact absurd rfl hzero
    case h_13 => rfl
    all_goals exact absurd hdigit (by decide)

theorem stepNumber_sign (s : Scanner) {c : Char} (n : Numeral) (hdigit : c.isDigit)
    (hzero : c ≠ '0') :
    s.stepNumber .sign n c = s.enter (.number .whole { n with whole := [c] }) := by
  simp only [stepNumber, beq_eq_false_iff_ne.mpr hzero, hdigit, if_true, Bool.false_eq_true,
    if_false]

theorem foldl_step_digits (done : List Token) (n : Numeral) {digits : List Char}
    (h : ∀ c ∈ digits, c.isDigit) :
    digits.foldl step ⟨done, .number .whole n⟩ =
      ⟨done, .number .whole { n with whole := digits.reverse ++ n.whole }⟩ := by
  induction digits generalizing n with
  | nil => rfl
  | cons c digits ih =>
      have hstep : step ⟨done, .number .whole n⟩ c =
          ⟨done, .number .whole { n with whole := c :: n.whole }⟩ := by
        simp only [step, stepNumber, h c List.mem_cons_self, if_true, enter]
      rw [List.foldl_cons, hstep, ih _ fun d hd => h d (List.mem_cons_of_mem c hd),
        List.reverse_cons, List.append_assoc, List.singleton_append]

-- The digits of a number that is not zero start with another digit than zero.
theorem exists_toDigits_eq_cons {n : Nat} (hpos : 0 < n) :
    ∃ c digits, Nat.toDigits 10 n = c :: digits ∧ c ≠ '0' := by
  induction n using Nat.base_induction 10 (by omega) with
  | single digit hdigit =>
      refine ⟨digit.digitChar, [], Nat.toDigits_of_lt_base hdigit, ?_⟩
      rw [Ne, Nat.digitChar_eq_zero]
      omega
  | digit n digit hdigit hn ih =>
      obtain ⟨c, digits, heq, hzero⟩ := ih hn
      refine ⟨c, digits ++ Nat.toDigits 10 digit, ?_, hzero⟩
      rw [← Nat.toDigits_append_toDigits (by omega) hn hdigit, heq, List.cons_append]

-- The digits of a number from wherever its first digit starts a numeral.
theorem foldl_step_toDigits {s : Scanner} {done : List Token} {negative : Bool}
    (hstart : ∀ c : Char, c.isDigit → c ≠ '0' →
      s.step c = ⟨done, .number .whole (ofDigits negative [c])⟩) {n : Nat} (hpos : 0 < n) :
    (Nat.toDigits 10 n).foldl step s =
      ⟨done, .number .whole (ofDigits negative (Nat.toDigits 10 n).reverse)⟩ := by
  obtain ⟨c, digits, heq, hzero⟩ := exists_toDigits_eq_cons hpos
  have hall : ∀ d ∈ c :: digits, d.isDigit := fun d hd =>
    Nat.isDigit_of_mem_toDigits (by omega) (by omega) (heq ▸ hd)
  rw [heq, List.foldl_cons, hstart c (hall c List.mem_cons_self) hzero,
    foldl_step_digits done _ fun d hd => hall d (List.mem_cons_of_mem c hd), List.reverse_cons]
  rfl

theorem settled_digits (done : List Token) {negative : Bool} {digits : List Char} {value : Number}
    (h : (ofDigits negative digits).value? = some value) :
    Settled ⟨done, .number .whole (ofDigits negative digits.reverse)⟩
      (.number (some value) :: done) := by
  have hforward : forward (ofDigits negative digits.reverse) = ofDigits negative digits := by
    simp only [forward, ofDigits, List.reverse_reverse, List.reverse_nil]
  have hsettled := settled_numeral done (.inr rfl) (ofDigits negative digits.reverse)
  rwa [hforward, h] at hsettled

-- The decimal text of a 64-bit integer, signed or unsigned, is read as that integer.
theorem settled_integer (done : List Token) {value : Int} (hlow : -2 ^ 63 ≤ value)
    (hhigh : value < 2 ^ 64) :
    Settled ((Number.integer value).render.toList.foldl step ⟨done, .between⟩)
      (.number (some (.integer value)) :: done) := by
  have hrender : (Number.integer value).render = value.repr := rfl
  rw [hrender, Int.repr_eq_if]
  split
  case isTrue hnonneg =>
    obtain ⟨n, rfl⟩ := Int.eq_ofNat_of_zero_le hnonneg
    rw [Int.toNat_natCast, Nat.toList_repr]
    rcases Nat.eq_zero_or_pos n with rfl | hpos
    · exact settled_numeral done (.inl rfl) (ofDigits false ['0'])
    · have hword : n < Numeral.wordBound := by
        unfold Numeral.wordBound UInt64.size
        omega
      rw [foldl_step_toDigits (fun c => stepBetween_digit ⟨done, .between⟩) hpos]
      exact settled_digits done (Numeral.value?_ofDigits hword)
  case isFalse hneg =>
    have hpos : 0 < (-value).toNat := by omega
    have hbound : (-value).toNat ≤ 2 ^ 63 := by omega
    have hvalue : -((-value).toNat : Int) = value := by omega
    have hread := Numeral.value?_ofDigits_negative hpos hbound
    have hchars : ("-" ++ (-value).toNat.repr).toList = '-' :: Nat.toDigits 10 (-value).toNat := by
      rw [String.toList_append, Nat.toList_repr]
      rfl
    rw [hvalue] at hread
    have hsign : step ⟨done, .between⟩ '-' = ⟨done, .number .sign (ofDigits true [])⟩ := rfl
    rw [hchars, List.foldl_cons, hsign, foldl_step_toDigits
      (fun c => stepNumber_sign ⟨done, .number .sign (ofDigits true [])⟩ (ofDigits true [])) hpos]
    exact settled_digits done hread

theorem unitDigit?_hexDigit : ∀ n < 16, unitDigit? (Text.hexDigit n) = some n := by decide

theorem utf8Size_hexDigit : ∀ n < 16, (Text.hexDigit n).utf8Size = 1 := by decide

theorem step_unit (done : List Token) (reversed : List Char) {seen : Nat} (hseen : seen < 3)
    (value : Nat) {digit : Nat} (hdigit : digit < 16) :
    step ⟨done, .text reversed .whole (.unit seen value false none)⟩ (Text.hexDigit digit) =
      ⟨done, .text reversed .whole (.unit (seen + 1) (value * 16 + digit) false none)⟩ := by
  have hmore : seen + 1 < 4 := by omega
  simp only [step, stepText, stepUnit, utf8Size_hexDigit digit hdigit,
    unitDigit?_hexDigit digit hdigit, hmore, Option.isNone_some, Option.getD_some, Bool.or_false,
    if_true, enter]

-- The last digit of a unit that is a character of its own.
theorem step_unit_last (done : List Token) (reversed : List Char) {value digit : Nat}
    (hdigit : digit < 16) (hunit : value * 16 + digit < 0xD800) :
    step ⟨done, .text reversed .whole (.unit 3 value false none)⟩ (Text.hexDigit digit) =
      ⟨done, .text (Char.ofNat (value * 16 + digit) :: reversed) .whole .plain⟩ := by
  have hhigh : isHigh (value * 16 + digit) = false := by
    simp only [isHigh, Bool.and_eq_false_iff, decide_eq_false_iff_not]
    omega
  have hlow : isLow (value * 16 + digit) = false := by
    simp only [isLow, Bool.and_eq_false_iff, decide_eq_false_iff_not]
    omega
  simp only [step, stepText, stepUnit, utf8Size_hexDigit digit hdigit,
    unitDigit?_hexDigit digit hdigit, Option.isNone_some, Option.getD_some, Bool.or_false,
    Nat.reduceAdd, Nat.lt_irrefl, if_false, Bool.false_eq_true, takeUnit, hhigh, hlow, enter]

-- A control character as a code unit of four digits.
theorem foldl_step_control (done : List Token) (reversed : List Char) {c : Char}
    (hc : c.toNat < 0x20) :
    ['\\', 'u', '0', '0', Text.hexDigit (c.toNat / 16), Text.hexDigit (c.toNat % 16)].foldl step
        ⟨done, .text reversed .whole .plain⟩ = ⟨done, .text (c :: reversed) .whole .plain⟩ := by
  have hunit : c.toNat / 16 * 16 + c.toNat % 16 = c.toNat := Nat.div_add_mod' c.toNat 16
  have hopen : ['\\', 'u', '0', '0'].foldl step ⟨done, .text reversed .whole .plain⟩ =
      ⟨done, .text reversed .whole (.unit 2 0 false none)⟩ := rfl
  have hhigh := step_unit done reversed (by omega : 2 < 3) 0 (by omega : c.toNat / 16 < 16)
  have hlow := step_unit_last done reversed (by omega : c.toNat % 16 < 16)
    (by omega : c.toNat / 16 * 16 + c.toNat % 16 < 0xD800)
  rw [Nat.zero_mul, Nat.zero_add] at hhigh
  rw [hunit, Char.ofNat_toNat] at hlow
  calc
    _ = [Text.hexDigit (c.toNat / 16), Text.hexDigit (c.toNat % 16)].foldl step
          (['\\', 'u', '0', '0'].foldl step ⟨done, .text reversed .whole .plain⟩) := rfl
    _ = step (step ⟨done, .text reversed .whole (.unit 2 0 false none)⟩
          (Text.hexDigit (c.toNat / 16))) (Text.hexDigit (c.toNat % 16)) := by rw [hopen]; rfl
    _ = ⟨done, .text (c :: reversed) .whole .plain⟩ := by rw [hhigh, hlow]

-- What stands for a character between quotes is read as that character.
theorem foldl_step_escapeChar (done : List Token) (reversed : List Char) (c : Char) :
    (escapeChar c).foldl step ⟨done, .text reversed .whole .plain⟩ =
      ⟨done, .text (c :: reversed) .whole .plain⟩ := by
  by_cases hquote : c = '"'
  · subst hquote
    rfl
  by_cases hslash : c = '\\'
  · subst hslash
    rfl
  by_cases hback : c = '\x08'
  · subst hback
    rfl
  by_cases hfeed : c = '\x0C'
  · subst hfeed
    rfl
  by_cases hline : c = '\n'
  · subst hline
    rfl
  by_cases hreturn : c = '\r'
  · subst hreturn
    rfl
  by_cases htab : c = '\t'
  · subst htab
    rfl
  simp only [escapeChar, beq_eq_false_iff_ne.mpr hquote, beq_eq_false_iff_ne.mpr hslash,
    beq_eq_false_iff_ne.mpr hback, beq_eq_false_iff_ne.mpr hfeed, beq_eq_false_iff_ne.mpr hline,
    beq_eq_false_iff_ne.mpr hreturn, beq_eq_false_iff_ne.mpr htab, Bool.or_false,
    Bool.false_eq_true, if_false]
  by_cases hcontrol : c.toNat < 0x20
  · rw [if_pos hcontrol]
    exact foldl_step_control done reversed hcontrol
  · simp only [if_neg hcontrol, List.foldl_cons, List.foldl_nil, step, stepText, stepPlain,
      beq_eq_false_iff_ne.mpr hquote, beq_eq_false_iff_ne.mpr hslash, Bool.false_eq_true,
      if_false, enter]

theorem foldl_step_escaped (done : List Token) (reversed cs : List Char) :
    (cs.flatMap escapeChar).foldl step ⟨done, .text reversed .whole .plain⟩ =
      ⟨done, .text (cs.reverse ++ reversed) .whole .plain⟩ := by
  induction cs generalizing reversed with
  | nil => rfl
  | cons c cs ih =>
      rw [List.flatMap_cons, List.foldl_append, foldl_step_escapeChar, ih, List.reverse_cons,
        List.append_assoc, List.singleton_append]

-- A quoted text is read as one token, whatever its characters are.
theorem foldl_step_quotedChars (done : List Token) (s : String) :
    (quotedChars s).foldl step ⟨done, .between⟩ = ⟨.text (some s) :: done, .between⟩ := by
  have hopen : step ⟨done, .between⟩ '"' = ⟨done, .text [] .whole .plain⟩ := rfl
  have hclose (reversed : List Char) : step ⟨done, .text reversed .whole .plain⟩ '"' =
      ⟨.text (some (String.ofList reversed.reverse)) :: done, .between⟩ := rfl
  rw [quotedChars, List.cons_append, List.foldl_cons, hopen, List.foldl_append,
    foldl_step_escaped, List.foldl_cons, List.foldl_nil, hclose, List.append_nil,
    List.reverse_reverse, String.ofList_toList]

end Scanner

end SoftConfirm.Json
