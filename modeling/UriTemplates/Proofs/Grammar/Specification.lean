import Mathlib.Data.List.Induction
import Mathlib.Tactic.IntervalCases
import UriTemplates.Proofs.Template.Separation
import UriTemplates.Proofs.Text.Digits

/-!
# The grammar of variable specifications

Names and specifications by the rules that RFC 6570 gives for them (`Text.IsName`,
`Variable.IsSpecification`). The checks on texts decide these grammars (`Text.isName_iff`,
`Variable.isSpecification_iff`), the specifications are just what variables are written as
(`Variable.exists_text_eq_iff`), and a written variable is read as itself
(`Variable.parse_text`).
-/

namespace UriTemplates

namespace Text

/-- A name character or a triplet. -/
inductive IsNameUnit : Text → Prop
  /-- A name character. -/
  | char {c : Char} (named : isNameChar c = true) : IsNameUnit [c]
  /-- A triplet. -/
  | triplet {high low : Char} (highDigit : isHexDigit high = true)
      (lowDigit : isHexDigit low = true) : IsNameUnit ['%', high, low]

/-- Variable names: name characters and triplets, with single dots between them. -/
inductive IsName : Text → Prop
  /-- A single unit. -/
  | unit {unit : Text} (first : IsNameUnit unit) : IsName unit
  /-- A unit directly before a name. -/
  | next {unit rest : Text} (first : IsNameUnit unit) (name : IsName rest) : IsName (unit ++ rest)
  /-- A unit and a dot before a name. -/
  | dotted {unit rest : Text} (first : IsNameUnit unit) (name : IsName rest) :
      IsName (unit ++ '.' :: rest)

/-- What can follow a unit of a name: the end, or a name, which may come after a dot. -/
def EndsName (rest : Text) : Prop :=
  rest = [] ∨ IsName rest ∨ ∃ name, rest = '.' :: name ∧ IsName name

/-- A name starts with a unit, and what is left completes it. -/
theorem isName_iff_exists {text : Text} :
    IsName text ↔ ∃ unit rest, text = unit ++ rest ∧ IsNameUnit unit ∧ EndsName rest := by
  constructor
  · rintro (first | ⟨first, name⟩ | @⟨unit, rest, first, name⟩)
    · exact ⟨text, [], (List.append_nil text).symm, first, .inl rfl⟩
    · exact ⟨_, _, rfl, first, .inr (.inl name)⟩
    · exact ⟨_, _, rfl, first, .inr (.inr ⟨rest, rfl, name⟩)⟩
  · rintro ⟨unit, rest, rfl, first, rfl | name | ⟨name, rfl, follows⟩⟩
    · rw [List.append_nil]
      exact .unit first
    · exact .next first name
    · exact .dotted first follows

/-- After a percent sign, a name goes on with two hexadecimal digits. -/
theorem isName_triplet_iff {high low : Char} {rest : Text} :
    IsName ('%' :: high :: low :: rest) ↔
      (isHexDigit high = true ∧ isHexDigit low = true) ∧ EndsName rest := by
  rw [isName_iff_exists]
  constructor
  · rintro ⟨unit, more, same, @⟨c, named⟩ | ⟨highDigit, lowDigit⟩, ends⟩
    · obtain ⟨rfl, -⟩ := List.cons.inj same
      exact absurd named (by decide)
    · cases same
      exact ⟨⟨highDigit, lowDigit⟩, ends⟩
  · rintro ⟨⟨highDigit, lowDigit⟩, ends⟩
    exact ⟨['%', high, low], rest, rfl, .triplet highDigit lowDigit, ends⟩

/-- Where no triplet starts, a name starts with a character of names. -/
theorem isName_cons_iff {c : Char} {rest : Text}
    (noTriplet : ∀ high low more, c = '%' → rest = high :: low :: more → False) :
    IsName (c :: rest) ↔ isNameChar c = true ∧ EndsName rest := by
  rw [isName_iff_exists]
  constructor
  · rintro ⟨unit, more, same, named | @⟨high, low, -, -⟩, ends⟩
    · cases same
      exact ⟨named, ends⟩
    · cases same
      exact (noTriplet high low more rfl rfl).elim
  · rintro ⟨named, ends⟩
    exact ⟨[c], rest, rfl, .char named, ends⟩

/-- What completes a name is a name, or what can follow a unit where one came before. -/
theorem completesName_iff (afterChar : Bool) (text : Text) :
    completesName afterChar text = true ↔
      if afterChar = true then EndsName text else IsName text := by
  induction afterChar, text using completesName.induct with
  | case1 afterChar =>
    have noName : ¬ IsName [] := by
      rw [isName_iff_exists]
      rintro ⟨_, _, same, _ | _, -⟩ <;> cases same
    cases afterChar <;> simp [completesName, EndsName, noName]
  | case2 afterChar rest ih =>
    have noName : ¬ IsName ('.' :: rest) := fun name =>
      absurd ((isName_cons_iff fun _ _ _ same => absurd same (by decide)).mp name).1 (by decide)
    cases afterChar <;> simp [completesName, EndsName, ih, noName]
  | case3 afterChar high low rest ih =>
    cases afterChar <;> simp [completesName, EndsName, ih, isName_triplet_iff]
  | case4 afterChar c rest noDot noTriplet ih =>
    have unit := isName_cons_iff noTriplet
    rw [completesName]
    · cases afterChar
      · simp [ih, unit]
      · have notDotted : ¬ ∃ name, c :: rest = '.' :: name ∧ IsName name := by
          rintro ⟨name, same, -⟩
          exact noDot (List.cons.inj same).1
        simp only [↓reduceIte, EndsName, notDotted, or_false, reduceCtorEq, false_or, unit,
          Bool.and_eq_true, ih]
    · exact noDot
    · exact noTriplet

/-- The check on names decides their grammar. -/
theorem isName_iff {text : Text} : IsName text ↔ isVariableName text = true := by
  rw [isVariableName, completesName_iff]
  simp

end Text

namespace Variable

/-- Variable specifications: a name, alone or with a modifier, whose length is a decimal number
from 1 to 9999. -/
inductive IsSpecification : Text → Prop
  /-- A name. -/
  | plain {name : Text} (named : Text.IsName name) : IsSpecification name
  /-- A name that is exploded. -/
  | exploded {name : Text} (named : Text.IsName name) : IsSpecification (name ++ ['*'])
  /-- A name that is truncated. -/
  | truncated {name : Text} {length : Nat} (named : Text.IsName name) (positive : 0 < length)
      (bounded : length ≤ 9999) : IsSpecification (name ++ ':' :: Nat.toDigits 10 length)

/-- Specifications are just what variables are written as. -/
theorem exists_text_eq_iff {specification : Text} :
    (∃ v : Variable, v.text = specification) ↔ IsSpecification specification := by
  constructor
  · rintro ⟨⟨name, modifier, nameValid, modifierValid⟩, rfl⟩
    have named := Text.isName_iff.mpr nameValid
    cases modifier with
    | plain => exact .plain named
    | exploded => exact .exploded named
    | truncated length =>
      simp only [Modifier.isValid, Bool.and_eq_true, decide_eq_true_eq] at modifierValid
      exact .truncated named modifierValid.1 modifierValid.2
  · rintro (named | named | ⟨named, positive, bounded⟩)
    · exact ⟨⟨_, .plain, Text.isName_iff.mp named, rfl⟩, rfl⟩
    · exact ⟨⟨_, .exploded, Text.isName_iff.mp named, rfl⟩, rfl⟩
    · have valid : 0 < _ ∧ _ ≤ Modifier.greatestLength := ⟨positive, bounded⟩
      exact ⟨⟨_, .truncated _, Text.isName_iff.mp named,
        by simpa [Modifier.isValid] using valid⟩, rfl⟩

/-- Four digits are enough for just the numbers up to 9999. -/
theorem length_toDigits_le_iff {number : Nat} :
    (Nat.toDigits 10 number).length ≤ 4 ↔ number ≤ 9999 := by
  rw [Nat.length_toDigits_le_iff (by decide) (by decide)]
  omega

/-- A number other than zero is not written with a zero in front. -/
theorem head?_toDigits {number : Nat} (positive : 0 < number) :
    (Nat.toDigits 10 number).head? ≠ some '0' := by
  induction number using Nat.strongRecOn with
  | ind number ih =>
    rw [Nat.toDigits_eq_if (by decide)]
    split
    · rename_i small
      interval_cases number <;> decide
    · rename_i large
      rw [List.head?_append_of_ne_nil _ Nat.toDigits_ne_nil]
      exact ih (number / 10) (by omega) (by omega)

/-- Lengths are the decimal numbers from 1 to 9999. -/
theorem isLength_iff {text : Text} :
    isLength text = true ↔
      ∃ number, 0 < number ∧ number ≤ 9999 ∧ text = Nat.toDigits 10 number := by
  constructor
  · intro valid
    obtain _ | ⟨first, more⟩ := text
    · cases valid
    simp only [isLength, Bool.and_eq_true, bne_iff_ne, ne_eq, List.all_eq_true,
      decide_eq_true_eq] at valid
    obtain ⟨⟨notZero, decimal⟩, short⟩ := valid
    have digits := Text.toDigits_digitsNumber (List.cons_ne_nil first more) decimal
      (by simpa using notZero)
    refine ⟨Text.digitsNumber (first :: more), Nat.pos_of_ne_zero fun zero => notZero ?_,
      length_toDigits_le_iff.mp ?_, digits.symm⟩
    · rw [zero] at digits
      exact (List.cons.inj digits).1.symm
    · rw [digits, List.length_cons]
      omega
  · rintro ⟨number, positive, bounded, rfl⟩
    have short := length_toDigits_le_iff.mpr bounded
    have notZero := head?_toDigits positive
    have decimal : ∀ digit ∈ Nat.toDigits 10 number, digit.isDigit = true :=
      fun digit => Text.isDigit_of_mem_toDigits
    obtain ⟨first, more, digits⟩ :=
      List.exists_cons_of_ne_nil (Nat.toDigits_ne_nil (b := 10) (n := number))
    rw [digits] at short notZero decimal ⊢
    simp only [isLength, Bool.and_eq_true, bne_iff_ne, ne_eq, List.all_eq_true, decide_eq_true_eq]
    exact ⟨⟨by simpa using notZero, decimal⟩, short⟩

/-- What can follow a name in a specification. -/
def EndsSpecification (rest : Text) : Prop :=
  ∀ c ∈ rest.head?, c = ':' ∨ c = '*'

/-- A name has neither a colon nor an asterisk. -/
theorem notMem_name {name : Text} (named : Text.IsName name) : ':' ∉ name ∧ '*' ∉ name := by
  have written : Percent.Written false name :=
    Percent.written_of_completesName (Text.isName_iff.mp named)
  exact ⟨written.notMem (by decide) (by decide), written.notMem (by decide) (by decide)⟩

/-- A specification is cut where its name ends. -/
theorem cut_name {name rest : Text} (named : Text.IsName name) (ends : EndsSpecification rest) :
    (name ++ rest).takeWhile (fun c => c != ':' && c != '*') = name ∧
      (name ++ rest).dropWhile (fun c => c != ':' && c != '*') = rest := by
  have inside : ∀ c ∈ name, (c != ':' && c != '*') = true := by
    rintro c member
    obtain ⟨noColon, noAsterisk⟩ := notMem_name named
    simp only [Bool.and_eq_true, bne_iff_ne]
    exact ⟨fun same => noColon (same ▸ member), fun same => noAsterisk (same ▸ member)⟩
  rw [List.takeWhile_append_of_pos inside, List.dropWhile_append_of_pos inside]
  cases rest with
  | nil => simp
  | cons c rest => rcases ends c rfl with rfl | rfl <;> simp

/-- A modifier is empty, an asterisk, or a colon and a number from 1 to 9999 without zeros in front.
-/
theorem isModifier_iff {rest : Text} :
    isModifier rest = true ↔ rest = [] ∨ rest = ['*'] ∨
      ∃ number, 0 < number ∧ number ≤ 9999 ∧ rest = ':' :: Nat.toDigits 10 number := by
  unfold isModifier
  split
  · simp
  · simp
  · rename_i length
    simp [isLength_iff]
  · rename_i notNil notAsterisk notColon
    simp only [Bool.false_eq_true, false_iff, not_or, not_exists, not_and]
    exact ⟨notNil, notAsterisk, fun number _ _ => notColon _⟩

/-- The check on specifications decides their grammar. -/
theorem isSpecification_iff {text : Text} : isSpecification text = true ↔ IsSpecification text := by
  rw [isSpecification, Bool.and_eq_true, ← Text.isName_iff, isModifier_iff]
  constructor
  · rintro ⟨named, modified⟩
    have whole := List.takeWhile_append_dropWhile (p := fun c => c != ':' && c != '*') (l := text)
    rw [← whole]
    rcases modified with rest | rest | ⟨number, positive, bounded, rest⟩
    · rw [rest, List.append_nil]
      exact .plain named
    · rw [rest]
      exact .exploded named
    · rw [rest]
      exact .truncated named positive bounded
  · rintro (named | @⟨name, named⟩ | @⟨name, number, named, positive, bounded⟩)
    · obtain ⟨front, back⟩ := cut_name named (nofun : EndsSpecification [])
      rw [List.append_nil] at front back
      rw [front, back]
      exact ⟨named, .inl rfl⟩
    · obtain ⟨front, back⟩ := cut_name named (by simp [EndsSpecification] : EndsSpecification ['*'])
      rw [front, back]
      exact ⟨named, .inr (.inl rfl)⟩
    · obtain ⟨front, back⟩ :=
        cut_name named
          (by simp [EndsSpecification] : EndsSpecification (':' :: Nat.toDigits 10 number))
      rw [front, back]
      exact ⟨named, .inr (.inr ⟨number, positive, bounded, rfl⟩)⟩

/-- No variable has the empty name. -/
theorem name_ne_nil (v : Variable) : v.name ≠ [] := by
  intro empty
  have valid := v.name_valid
  rw [empty] at valid
  cases valid

/-- The name and the modifier of a variable make up the variable. -/
theorem ofModifier_self (v : Variable) : ofModifier v.name v.modifier = .ok v := by
  rw [ofModifier, if_neg (by simpa using v.name_ne_nil), dif_pos v.name_valid,
    dif_pos v.modifier_valid]

/-- Digits after a colon are read as a length, unless they are too many. -/
theorem parse_digits {name digits : Text} (apart : ':' ∉ name) (nonempty : digits ≠ [])
    (decimal : ∀ digit ∈ digits, digit.isDigit = true) :
    parse (name ++ ':' :: digits) =
      if Text.greatestDigits < digits.length then .error (.tooManyDigits digits.length)
      else ofModifier name (.truncated (Text.digitsNumber digits)) := by
  have noLast : (name ++ ':' :: digits).getLast? ≠ some '*' := by
    rw [List.getLast?_append_of_ne_nil _ (List.cons_ne_nil _ _),
      List.getLast?_cons_of_ne_nil nonempty]
    intro last
    exact absurd (decimal '*' (List.mem_of_getLast? last)) (by decide)
  have readable : (digits.isEmpty || !digits.all Char.isDigit) = false := by
    simpa [nonempty] using decimal
  rw [parse, if_neg (by simp), if_neg noLast, Text.cut_append apart]
  simp only [readable, Bool.false_eq_true, ↓reduceIte]

/-- **A written variable is read as itself.** -/
theorem parse_text (v : Variable) : parse v.text = .ok v := by
  obtain ⟨noColon, noAsterisk⟩ := notMem_name (Text.isName_iff.mpr v.name_valid)
  have self := v.ofModifier_self
  rw [text]
  cases modifier : v.modifier with
  | plain =>
    rw [modifier] at self
    have noLast : v.name.getLast? ≠ some '*' := fun last => noAsterisk (List.mem_of_getLast? last)
    simp only [parse, List.isEmpty_iff, v.name_ne_nil, ↓reduceIte, noLast,
      Text.cut_of_notMem noColon, self]
  | exploded =>
    rw [modifier] at self
    simp [parse, noColon, self]
  | truncated length =>
    rw [modifier] at self
    have valid := v.modifier_valid
    rw [modifier, Modifier.isValid, Bool.and_eq_true, decide_eq_true_eq, decide_eq_true_eq] at valid
    have few : ¬ Text.greatestDigits < (Nat.toDigits 10 length).length := by
      have short : (Nat.toDigits 10 length).length ≤ 4 := length_toDigits_le_iff.mpr valid.2
      rw [Text.greatestDigits]
      omega
    have decimal : ∀ digit ∈ Nat.toDigits 10 length, digit.isDigit = true :=
      fun digit => Text.isDigit_of_mem_toDigits
    have read := parse_digits noColon Nat.toDigits_ne_nil decimal
    rwa [if_neg few, Text.digitsNumber_toDigits, self] at read

end Variable

end UriTemplates
