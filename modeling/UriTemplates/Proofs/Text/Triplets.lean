import UriTemplates.Proofs.Percent

/-!
# The case of triplets

The two digits of a triplet may be written in upper case or in lower case. A text with all triplets
in upper case (`Percent.uppercased`) stands for the same text (`Percent.decode_uppercased`). A
character that starts no triplet and a whole triplet are changed in the same way whatever follows
them (`Percent.changesAlone_char`, `Percent.changesAlone_triplet`).
-/

namespace UriTemplates

namespace Text

/-- Hexadecimal digits are ASCII characters. -/
theorem toNat_lt_of_isHexDigit {c : Char} (digit : isHexDigit c = true) : c.toNat < 128 := by
  change c.val.toNat < 128
  have last : '9'.val.toNat = 57 ∧ 'f'.val.toNat = 102 ∧ 'F'.val.toNat = 70 := by decide
  simp only [isHexDigit, hexValue?, Char.le_def, UInt32.le_iff_toNat_le] at digit
  split_ifs at digit with decimal lower upper
  · omega
  · omega
  · omega
  · cases digit

/-- The value of a digit is the same in upper case. -/
theorem hexValue?_toUpper {c : Char} (digit : isHexDigit c = true) :
    hexValue? c.toUpper = hexValue? c := by
  have each : ∀ code < 128, isHexDigit (Char.ofNat code) = true →
      hexValue? (Char.ofNat code).toUpper = hexValue? (Char.ofNat code) := by decide +kernel
  have here := each c.toNat (toNat_lt_of_isHexDigit digit)
  rw [Char.ofNat_toNat] at here
  exact here digit

end Text

namespace Percent

open Text

/-- A text with the digits of its triplets in upper case. -/
def uppercased : Text → Text
  | [] => []
  | '%' :: high :: low :: rest =>
    if isHexDigit high && isHexDigit low then
      '%' :: high.toUpper :: low.toUpper :: uppercased rest
    else
      '%' :: uppercased (high :: low :: rest)
  | c :: rest => c :: uppercased rest

/-- Whether a text starts with the two digits of a triplet. -/
def startsDigits : Text → Bool
  | high :: low :: _ => isHexDigit high && isHexDigit low
  | _ => false

/-- Induction over a text by its characters and triplets. -/
@[elab_as_elim]
theorem induction_triplets {motive : Text → Prop} (nil : motive [])
    (char : ∀ c rest, c ≠ '%' → motive rest → motive (c :: rest))
    (sign : ∀ rest, startsDigits rest = false → motive rest → motive ('%' :: rest))
    (triplet : ∀ high low rest, isHexDigit high = true → isHexDigit low = true → motive rest →
      motive ('%' :: high :: low :: rest)) (text : Text) : motive text := by
  fun_induction uppercased text with
  | case1 => exact nil
  | case2 high low rest digits ih =>
    rw [Bool.and_eq_true] at digits
    exact triplet high low rest digits.1 digits.2 ih
  | case3 high low rest noDigits ih => exact sign _ (Bool.eq_false_iff.mpr noDigits) ih
  | case4 c rest notTriplet ih =>
    by_cases percent : c = '%'
    · subst percent
      refine sign rest ?_ ih
      unfold startsDigits
      split
      · exact (notTriplet _ _ _ rfl rfl).elim
      · rfl
    · exact char c rest percent ih

/-- What starts no triplet is left as it is. -/
theorem uppercased_char {c : Char} (notPercent : c ≠ '%') (rest : Text) :
    uppercased (c :: rest) = c :: uppercased rest := by
  rw [uppercased]
  intro high low later same
  exact (notPercent same).elim

/-- A percent sign without two digits after it is left as it is. -/
theorem uppercased_sign {rest : Text} (none : startsDigits rest = false) :
    uppercased ('%' :: rest) = '%' :: uppercased rest := by
  match rest, none with
  | [], _ => rfl
  | [c], _ => rfl
  | high :: low :: more, none =>
    rw [startsDigits] at none
    rw [uppercased, none]
    rfl

/-- Both digits of a triplet are written in upper case. -/
theorem uppercased_triplet {high low : Char} (digit : isHexDigit high = true)
    (digitNext : isHexDigit low = true) (rest : Text) :
    uppercased ('%' :: high :: low :: rest) =
      '%' :: high.toUpper :: low.toUpper :: uppercased rest := by
  rw [uppercased, digit, digitNext]
  rfl

/-- Upper case keeps the length. -/
theorem length_uppercased (text : Text) : (uppercased text).length = text.length := by
  induction text using induction_triplets with
  | nil => rfl
  | char c rest notPercent ih => rw [uppercased_char notPercent, List.length_cons, ih]; rfl
  | sign rest none ih => rw [uppercased_sign none, List.length_cons, ih]; rfl
  | triplet high low rest digit digitNext ih =>
    rw [uppercased_triplet digit digitNext]
    simp only [List.length_cons, ih]

/-- A text starts in the same way in upper case. -/
theorem head?_uppercased (text : Text) : (uppercased text).head? = text.head? := by
  induction text using induction_triplets with
  | nil => rfl
  | char c rest notPercent => rw [uppercased_char notPercent]; rfl
  | sign rest none => rw [uppercased_sign none]; rfl
  | triplet high low rest digit digitNext => rw [uppercased_triplet digit digitNext]; rfl

/-- Digits that no percent sign comes before are left alone. -/
theorem startsDigits_uppercased (text : Text) :
    startsDigits (uppercased text) = startsDigits text := by
  have sign : ∀ rest, startsDigits ('%' :: rest) = false := by
    intro rest
    cases rest <;> rfl
  induction text using induction_triplets with
  | nil => rfl
  | char c rest notPercent =>
    have same := head?_uppercased rest
    rw [uppercased_char notPercent]
    cases rest with
    | nil => rfl
    | cons low more =>
      obtain ⟨later, changed⟩ := List.head?_eq_some_iff.mp same
      rw [changed]
      rfl
  | sign rest none => rw [uppercased_sign none, sign, sign]
  | triplet high low rest digit digitNext => rw [uppercased_triplet digit digitNext, sign, sign]

/-- A percent sign without two digits after it stands for itself. -/
theorem bytes_sign {rest : Text} (none : startsDigits rest = false) :
    bytes ('%' :: rest) = 0x25 :: bytes rest := by
  match rest, none with
  | [], _ => rfl
  | [c], _ => rfl
  | high :: low :: more, none =>
    rw [bytes]
    split
    · rename_i known knownNext
      simp [startsDigits, isHexDigit, known, knownNext] at none
    · rfl

/-- A text stands for the same bytes in any case of its triplets. -/
theorem bytes_uppercased (text : Text) : bytes (uppercased text) = bytes text := by
  induction text using induction_triplets with
  | nil => rfl
  | char c rest notPercent ih =>
    have plain : ∀ rest, bytes (c :: rest) = String.utf8EncodeChar c ++ bytes rest := by
      intro rest
      rw [bytes]
      intro high low later same
      exact (notPercent same).elim
    rw [uppercased_char notPercent, plain, plain, ih]
  | sign rest none ih =>
    rw [uppercased_sign none, bytes_sign none, bytes_sign, ih]
    rw [startsDigits_uppercased, none]
  | triplet high low rest digit digitNext ih =>
    rw [uppercased_triplet digit digitNext, bytes, bytes, hexValue?_toUpper digit,
      hexValue?_toUpper digitNext, ih]
    obtain ⟨value, known⟩ := Option.isSome_iff_exists.mp digit
    obtain ⟨valueNext, knownNext⟩ := Option.isSome_iff_exists.mp digitNext
    rw [known, knownNext]

/-- **A text stands for the same text** in any case of its triplets. -/
theorem decode_uppercased (text : Text) : decode (uppercased text) = decode text := by
  rw [decode, decode, bytes_uppercased]

end Percent

end UriTemplates
