import Mathlib.Data.Nat.Digits.Defs
import Fexpr.Text.Decimal

/-!
# Numerals read back

An integer is written in ASCII digits and read in the digits of any script. `IsNumeral` says which
texts are read as integers; the numeral that an integer is written as is one of them, stands for
that integer, and has as many digits as the size of the integer allows.
-/

namespace Fexpr.Text

/-- A text that is read as an integer: a sign or none, and decimal digits, of which there is one at
least. -/
def IsNumeral (cs : List Char) : Prop :=
  ∃ sign digits, sign ∈ [[], ['+'], ['-']] ∧ digits ≠ [] ∧
    (∀ d ∈ digits, isDecimalDigit d = true) ∧ cs = sign ++ digits

/-! ## What is a numeral -/

namespace Numeral

theorem ofDigits?_eq_some_iff {negative : Bool} {cs : List Char} {n : Numeral} :
    ofDigits? negative cs = some n ↔
      cs ≠ [] ∧ (∀ d ∈ cs, isDecimalDigit d = true) ∧ n = ⟨negative, cs⟩ := by
  unfold ofDigits?
  by_cases h : (!cs.isEmpty && cs.all isDecimalDigit) = true
  · rw [if_pos h]
    simp only [Bool.and_eq_true, Bool.not_eq_true', List.isEmpty_eq_false_iff,
      List.all_eq_true] at h
    constructor
    · intro hn
      exact ⟨h.1, h.2, (Option.some.inj hn).symm⟩
    · rintro ⟨-, -, rfl⟩
      rfl
  · rw [if_neg h]
    simp only [Bool.and_eq_true, Bool.not_eq_true', List.isEmpty_eq_false_iff,
      List.all_eq_true] at h
    simp only [reduceCtorEq, false_iff]
    rintro ⟨hne, hall, -⟩
    exact h ⟨hne, hall⟩

/-- A sign before digits is no digit. -/
theorem isDecimalDigit_sign : isDecimalDigit '+' = false ∧ isDecimalDigit '-' = false := by
  decide

/-- A text without a sign in front is read as its digits. -/
theorem ofText?_of_head {c : Char} {cs : List Char} (hp : c ≠ '+') (hm : c ≠ '-') :
    ofText? (c :: cs) = ofDigits? false (c :: cs) := by
  unfold ofText?
  split
  · rename_i h; exact absurd (List.cons.inj h).1 hm
  · rename_i h; exact absurd (List.cons.inj h).1 hp
  · rfl

/-- Digits by themselves are read as a natural number. -/
theorem ofText?_digits {digits : List Char} (hne : digits ≠ [])
    (hall : ∀ d ∈ digits, isDecimalDigit d = true) :
    ofText? digits = some ⟨false, digits⟩ := by
  cases digits with
  | nil => exact absurd rfl hne
  | cons c cs =>
    have hc := hall c List.mem_cons_self
    rw [ofText?_of_head, ofDigits?_eq_some_iff]
    · exact ⟨hne, hall, rfl⟩
    · rintro rfl; rw [isDecimalDigit_sign.1] at hc; simp at hc
    · rintro rfl; rw [isDecimalDigit_sign.2] at hc; simp at hc

/-- Exactly the numerals are read as integers. -/
theorem ofText?_isSome_iff {cs : List Char} : (ofText? cs).isSome = true ↔ IsNumeral cs := by
  constructor
  · intro h
    obtain ⟨n, hn⟩ := Option.isSome_iff_exists.1 h
    unfold ofText? at hn
    split at hn
    · rename_i ds
      obtain ⟨hne, hall, -⟩ := ofDigits?_eq_some_iff.1 hn
      exact ⟨['-'], ds, by simp, hne, hall, rfl⟩
    · rename_i ds
      obtain ⟨hne, hall, -⟩ := ofDigits?_eq_some_iff.1 hn
      exact ⟨['+'], ds, by simp, hne, hall, rfl⟩
    · obtain ⟨hne, hall, -⟩ := ofDigits?_eq_some_iff.1 hn
      exact ⟨[], cs, by simp, hne, hall, rfl⟩
  · rintro ⟨sign, digits, hsign, hne, hall, rfl⟩
    simp only [List.mem_cons, List.not_mem_nil, or_false] at hsign
    rcases hsign with rfl | rfl | rfl
    · rw [List.nil_append, ofText?_digits hne hall]; rfl
    · exact Option.isSome_iff_exists.2 ⟨_, ofDigits?_eq_some_iff.2 ⟨hne, hall, rfl⟩⟩
    · exact Option.isSome_iff_exists.2 ⟨_, ofDigits?_eq_some_iff.2 ⟨hne, hall, rfl⟩⟩

/-- What is no numeral is not read as an integer. -/
theorem ofText?_eq_none_iff {cs : List Char} : ofText? cs = none ↔ ¬ IsNumeral cs := by
  rw [← ofText?_isSome_iff, Option.not_isSome_iff_eq_none]

end Numeral

/-! ## The digits that integers are written in -/

/-- An ASCII digit stands for its distance from zero. -/
theorem digitValue?_of_isDigit {c : Char} (h : c.isDigit = true) :
    digitValue? c = some (c.toNat - '0'.toNat) := by
  have hle : 0x30 ≤ c.toNat ∧ c.toNat < 0x30 + 10 := by
    simp only [Char.isDigit, Bool.and_eq_true, decide_eq_true_eq] at h
    have h0 : '0'.toNat ≤ c.toNat := h.1
    have h9 : c.toNat ≤ '9'.toNat := h.2
    simp at h0 h9
    omega
  have hfind : zeroDigits.find? (fun first => first ≤ c.toNat && c.toNat < first + 10)
      = some 0x30 := by
    rw [zeroDigits, List.find?_cons_of_pos]
    simp [hle]
  rw [digitValue?, hfind]
  rfl

theorem isDecimalDigit_of_isDigit {c : Char} (h : c.isDigit = true) : isDecimalDigit c = true := by
  rw [isDecimalDigit, digitValue?_of_isDigit h]
  rfl

/-- Every digit that a natural number is written in is a decimal digit. -/
theorem isDecimalDigit_of_mem_toDigits {n : Nat} {c : Char} (h : c ∈ Nat.toDigits 10 n) :
    isDecimalDigit c = true :=
  isDecimalDigit_of_isDigit (Nat.isDigit_of_mem_toDigits (by omega) (by omega) h)

/-- ASCII digits stand for the number that the standard reading gives them. -/
theorem digitsValue_eq_ofDigitChars {cs : List Char} (h : ∀ c ∈ cs, c.isDigit = true) :
    digitsValue cs = Nat.ofDigitChars 10 cs 0 := by
  -- The fold is followed from any number, since it goes on from the digits before.
  have general : ∀ (cs : List Char) (n : Nat), (∀ c ∈ cs, c.isDigit = true) →
      cs.foldl (fun n c => 10 * n + (digitValue? c).getD 0) n = Nat.ofDigitChars 10 cs n := by
    intro cs
    induction cs with
    | nil => intro n _; rfl
    | cons c cs ih =>
      intro n hcs
      have hc := digitValue?_of_isDigit (hcs c List.mem_cons_self)
      rw [List.foldl_cons, Nat.ofDigitChars_cons, hc]
      exact ih _ fun d hd => hcs d (List.mem_cons_of_mem c hd)
  exact general cs 0 h

/-- The digits of a natural number stand for it. -/
theorem digitsValue_toDigits (n : Nat) : digitsValue (Nat.toDigits 10 n) = n := by
  rw [digitsValue_eq_ofDigitChars fun c hc =>
    Nat.isDigit_of_mem_toDigits (by omega) (by omega) hc]
  exact Nat.ofDigitChars_ten_toDigits

/-! ## Integers -/

/-- The numeral that an integer is written as is read as that integer. -/
theorem ofText?_integerText (n : Int) :
    ∃ numeral, Numeral.ofText? (integerText n) = some numeral ∧ numeral.value = n ∧
      numeral.digits = Nat.toDigits 10 n.natAbs := by
  have hne : Nat.toDigits 10 n.natAbs ≠ [] := Nat.toDigits_ne_nil
  have hall : ∀ d ∈ Nat.toDigits 10 n.natAbs, isDecimalDigit d = true :=
    fun d hd => isDecimalDigit_of_mem_toDigits hd
  unfold integerText
  by_cases hn : n < 0
  · refine ⟨⟨true, Nat.toDigits 10 n.natAbs⟩, ?_, ?_, rfl⟩
    · rw [if_pos hn]
      exact Numeral.ofDigits?_eq_some_iff.2 ⟨hne, hall, rfl⟩
    · have hvalue := digitsValue_toDigits n.natAbs
      simp only [Numeral.value, if_true, hvalue]
      omega
  · refine ⟨⟨false, Nat.toDigits 10 n.natAbs⟩, ?_, ?_, rfl⟩
    · rw [if_neg hn]
      exact Numeral.ofText?_digits hne hall
    · have hvalue := digitsValue_toDigits n.natAbs
      simp only [Numeral.value, Bool.false_eq_true, if_false, hvalue]
      omega

theorem tooLongFrom_eq : tooLongFrom = 10 ^ digitLimit := by
  unfold tooLongFrom
  generalize digitLimit = digits
  exact Nat.pow_eq

/-- An integer is written in no more digits than the limit exactly if it is below the first that is
too long. -/
theorem length_toDigits_le_digitLimit_iff (n : Nat) :
    (Nat.toDigits 10 n).length ≤ digitLimit ↔ n < tooLongFrom := by
  rw [tooLongFrom_eq]
  exact Nat.length_toDigits_le_iff (by omega) (by decide)

theorem integerText?_of_lt {n : Int} (h : n.natAbs < tooLongFrom) :
    integerText? n = some (integerText n) := by
  unfold integerText?
  rw [if_pos h]

/-- The value of decimal digits is below the power of ten with as many zeros. -/
theorem digitsValue_lt (cs : List Char) : digitsValue cs < 10 ^ cs.length := by
  have digit_lt : ∀ c : Char, (digitValue? c).getD 0 < 10 := by
    intro c
    rcases h : zeroDigits.find? (fun first => first ≤ c.toNat && c.toNat < first + 10) with _ | z
    · simp [digitValue?, h]
    · have hz := List.find?_some h
      simp only [Bool.and_eq_true, decide_eq_true_eq] at hz
      simp only [digitValue?, h, Option.map_some, Option.getD_some]
      omega
  have general : ∀ (cs : List Char) (n : Nat),
      cs.foldl (fun n c => 10 * n + (digitValue? c).getD 0) n < (n + 1) * 10 ^ cs.length := by
    intro cs
    induction cs with
    | nil => intro n; simp
    | cons c cs ih =>
      intro n
      have hc := digit_lt c
      have hstep := ih (10 * n + (digitValue? c).getD 0)
      rw [List.foldl_cons, List.length_cons, pow_succ]
      calc _ < (10 * n + (digitValue? c).getD 0 + 1) * 10 ^ cs.length := hstep
        _ ≤ ((n + 1) * 10) * 10 ^ cs.length := Nat.mul_le_mul_right _ (by omega)
        _ = (n + 1) * (10 ^ cs.length * 10) := by ring
  have h := general cs 0
  rwa [Nat.zero_add, one_mul] at h

/-- What is read within the limit of digits can be written within it. -/
theorem natAbs_value_lt_tooLongFrom {numeral : Numeral}
    (h : numeral.digits.length ≤ digitLimit) : numeral.value.natAbs < tooLongFrom := by
  have hvalue : numeral.value.natAbs = digitsValue numeral.digits := by
    unfold Numeral.value
    split <;> omega
  rw [hvalue, tooLongFrom_eq]
  exact lt_of_lt_of_le (digitsValue_lt _) (Nat.pow_le_pow_right (by omega) h)

end Fexpr.Text
