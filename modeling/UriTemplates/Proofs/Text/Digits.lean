import Mathlib.Data.List.Basic
import Mathlib.Data.List.Induction
import Mathlib.Tactic.IntervalCases
import UriTemplates.Regex.Basic
import UriTemplates.Text.Character

/-!
# Decimal digits

The number that digits write is read back from the digits of any number
(`Text.digitsNumber_toDigits`), and digits are those of the number that they write unless they
start with a zero (`Text.toDigits_digitsNumber`). With the zeros counted, any digits are the text
of a count (`Count.exists_text_eq`).
-/

namespace UriTemplates

namespace Text

/-- A decimal number is read from the digits that it is written with. -/
theorem digitsNumber_toDigits (number : Nat) : digitsNumber (Nat.toDigits 10 number) = number := by
  have folded := Nat.ofDigitChars_toDigits (n := number) (by decide : 1 < 10) (Nat.le_refl 10)
  simpa only [Nat.ofDigitChars, digitsNumber, Nat.mul_comm 10] using folded

/-- A last digit counts ones, and those before it tens. -/
theorem digitsNumber_append (digits : Text) (digit : Char) :
    digitsNumber (digits ++ [digit]) = digitsNumber digits * 10 + (digit.toNat - '0'.toNat) := by
  simp [digitsNumber]

/-- A zero in front does not count. -/
theorem digitsNumber_zero_cons (digits : Text) :
    digitsNumber ('0' :: digits) = digitsNumber digits :=
  rfl

/-- A decimal digit writes a number below ten, and it is the digit of this number. -/
theorem digitChar_toNat {digit : Char} (decimal : digit.isDigit = true) :
    digit.toNat - '0'.toNat < 10 ∧ Nat.digitChar (digit.toNat - '0'.toNat) = digit := by
  rw [Char.isDigit, Bool.and_eq_true, decide_eq_true_eq, decide_eq_true_eq] at decimal
  have least : 48 ≤ digit.toNat := decimal.1
  have most : digit.toNat ≤ 57 := decimal.2
  have same := Char.ofNat_toNat digit
  refine ⟨by change digit.toNat - 48 < 10; omega, ?_⟩
  generalize digit.toNat = code at *
  rw [← same]
  interval_cases code <;> rfl

/-- Digits are those of the number that they write, unless they start with a zero. -/
theorem toDigits_digitsNumber {digits : Text} (nonempty : digits ≠ [])
    (decimal : ∀ digit ∈ digits, digit.isDigit = true) (first : digits.head? ≠ some '0') :
    Nat.toDigits 10 (digitsNumber digits) = digits := by
  induction digits using List.reverseRecOn with
  | nil => exact (nonempty rfl).elim
  | append_singleton digits digit ih =>
    rw [List.forall_mem_append, List.forall_mem_singleton] at decimal
    obtain ⟨small, written⟩ := digitChar_toNat decimal.2
    rw [digitsNumber_append]
    by_cases only : digits = []
    · subst only
      rw [show digitsNumber [] = 0 from rfl, Nat.zero_mul, Nat.zero_add,
        Nat.toDigits_of_lt_base small, written, List.nil_append]
    · rw [List.head?_append_of_ne_nil _ only] at first
      have before := ih only decimal.1 first
      have positive : 0 < digitsNumber digits := by
        refine Nat.pos_of_ne_zero fun zero => first ?_
        rw [← before, zero]
        rfl
      rw [Nat.mul_comm, ← Nat.toDigits_append_toDigits (by decide) positive small, before,
        Nat.toDigits_of_lt_base small, written]

/-- A decimal number is written in decimal digits. -/
theorem isDigit_of_mem_toDigits {number : Nat} {digit : Char}
    (member : digit ∈ Nat.toDigits 10 number) : digit.isDigit = true :=
  Nat.isDigit_of_mem_toDigits (by decide) (Nat.le_refl 10) member

end Text

namespace Count

/-- The number that a count writes. -/
theorem digitsNumber_text (count : Count) : Text.digitsNumber count.text = count.value := by
  obtain ⟨value, zeros⟩ := count
  rw [text]
  induction zeros with
  | zero => exact Text.digitsNumber_toDigits value
  | succ zeros ih => rwa [List.replicate_succ, List.cons_append, Text.digitsNumber_zero_cons]

/-- A count is written in decimal digits. -/
theorem isDigit_of_mem_text {count : Count} {digit : Char} (member : digit ∈ count.text) :
    digit.isDigit = true := by
  rcases List.mem_append.mp member with zero | written
  · rw [List.eq_of_mem_replicate zero]
    rfl
  · exact Text.isDigit_of_mem_toDigits written

/-- A count is written with at least one digit. -/
theorem text_ne_nil (count : Count) : count.text ≠ [] :=
  List.append_ne_nil_of_right_ne_nil _ Nat.toDigits_ne_nil

/-- **Digits are the text of a count**: zeros, and then the number that they write. -/
theorem exists_text_eq {digits : Text} (nonempty : digits ≠ [])
    (decimal : ∀ digit ∈ digits, digit.isDigit = true) :
    ∃ zeros, text ⟨Text.digitsNumber digits, zeros⟩ = digits := by
  induction digits with
  | nil => exact (nonempty rfl).elim
  | cons first digits ih =>
    by_cases zero : first = '0'
    · subst zero
      by_cases last : digits = []
      · subst last
        exact ⟨0, rfl⟩
      · obtain ⟨zeros, same⟩ := ih last (List.forall_mem_cons.mp decimal).2
        refine ⟨zeros + 1, ?_⟩
        rw [text, List.replicate_succ, List.cons_append, Text.digitsNumber_zero_cons]
        exact congrArg ('0' :: ·) same
    · exact ⟨0, Text.toDigits_digitsNumber nonempty decimal (by simpa using zero)⟩

end Count

end UriTemplates
