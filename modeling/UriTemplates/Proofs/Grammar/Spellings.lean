import UriTemplates.Proofs.Grammar.Specification

/-!
# What specifications are read as

A length is read from any decimal digits, so it may have zeros before it: digits are the text of a
count (`Count.exists_text_eq`). A specification is read as a variable just where it spells the
variable (`Variable.IsSpelling`), and of all spellings only the one without such zeros follows the
grammar and is what the variable is written as. All else is refused as malformed, except for digits
that are too many to be a number (`Variable.parse_spelling`).
-/

namespace UriTemplates

namespace Variable

/-- A variable that is made of a name and a modifier has these. -/
theorem ofModifier_eq_ok_iff {name : Text} {modifier : Modifier} {v : Variable} :
    ofModifier name modifier = .ok v ↔ v.name = name ∧ v.modifier = modifier := by
  constructor
  · intro accepted
    unfold ofModifier at accepted
    split_ifs at accepted
    cases accepted
    exact ⟨rfl, rfl⟩
  · rintro ⟨rfl, rfl⟩
    exact v.ofModifier_self

/-- A name and a modifier that make up no variable are reported as malformed. -/
theorem malformed_of_ofModifier {name : Text} {modifier : Modifier} {error : Error}
    (refused : ofModifier name modifier = .error error) : ∃ cause, error = .malformed cause := by
  unfold ofModifier at refused
  split_ifs at refused <;> cases refused <;> exact ⟨_, rfl⟩

/-- Texts that end in digits after a first colon, more of them than a number may have. -/
def HasTooManyDigits (specification : Text) (count : Nat) : Prop :=
  ∃ name digits, specification = name ++ ':' :: digits ∧ ':' ∉ name ∧
    (∀ digit ∈ digits, digit.isDigit = true) ∧ digits.length = count ∧
      Text.greatestDigits < count

/-- The ways in which a specification is taken apart into a name and a modifier. -/
inductive IsTakenApart : Text → Text → Modifier → Prop
  /-- A name alone. -/
  | plain (name : Text) : IsTakenApart name name .plain
  /-- A name before an asterisk. -/
  | exploded (name : Text) : IsTakenApart (name ++ ['*']) name .exploded
  /-- A name before a colon and digits. -/
  | truncated (name : Text) {digits : Text} (nonempty : digits ≠ [])
      (decimal : ∀ digit ∈ digits, digit.isDigit = true)
      (short : digits.length ≤ Text.greatestDigits) :
      IsTakenApart (name ++ ':' :: digits) name (.truncated (Text.digitsNumber digits))

/-- **A specification is taken apart, or refused.** -/
theorem parse_cases (specification : Text) :
    (∃ name modifier, IsTakenApart specification name modifier ∧
        parse specification = ofModifier name modifier) ∨
      (∃ count, HasTooManyDigits specification count ∧
        parse specification = .error (.tooManyDigits count)) ∨
      ∃ cause, parse specification = .error (.malformed cause) := by
  unfold parse
  split_ifs with empty exploded
  · exact .inr (.inr ⟨_, rfl⟩)
  · have whole := List.dropLast_append_getLast? '*' exploded
    simp only []
    split_ifs
    · exact .inr (.inr ⟨_, rfl⟩)
    · refine .inl ⟨specification.dropLast, .exploded, ?_, rfl⟩
      conv => arg 1; rw [← whole]
      exact .exploded _
  · rcases Text.cut_cases ':' specification with
      ⟨-, alone⟩ | ⟨name, digits, rfl, apart, cut⟩
    · rw [alone]
      exact .inl ⟨specification, .plain, .plain _, rfl⟩
    · rw [cut]
      simp only []
      split_ifs with unreadable tooMany
      · exact .inr (.inr ⟨_, rfl⟩)
      · have decimal : ∀ digit ∈ digits, digit.isDigit = true := by simp_all
        exact .inr (.inl ⟨_, ⟨name, digits, rfl, apart, decimal, rfl, tooMany⟩, rfl⟩)
      · have readable : digits ≠ [] ∧ ∀ digit ∈ digits, digit.isDigit = true := by simp_all
        exact .inl ⟨name, _, .truncated name readable.1 readable.2 (Nat.le_of_not_lt tooMany), rfl⟩

/-- The spellings of a variable: what it is written as, and that with zeros before its length, as
long as a number may have so many digits. -/
inductive IsSpelling (v : Variable) : Text → Prop
  /-- What the variable is written as. -/
  | written : IsSpelling v v.text
  /-- The variable with zeros before its length. -/
  | padded {length : Count} (truncated : v.modifier = .truncated length.value)
      (zeros : 0 < length.zeros) (short : length.text.length ≤ Text.greatestDigits) :
      IsSpelling v (v.name ++ ':' :: length.text)

/-- What is taken apart into the name and the modifier of a variable is a spelling of it. -/
theorem IsTakenApart.isSpelling {specification : Text} {v : Variable}
    (apart : IsTakenApart specification v.name v.modifier) : v.IsSpelling specification := by
  obtain ⟨name, modifier, nameValid, modifierValid⟩ := v
  cases apart with
  | plain => exact .written
  | exploded => exact .written
  | truncated _ nonempty decimal short =>
    obtain ⟨zeros, same⟩ := Count.exists_text_eq nonempty decimal
    generalize Text.digitsNumber _ = length at same modifierValid
    subst same
    cases zeros with
    | zero => exact .written
    | succ zeros => exact .padded rfl (Nat.succ_pos zeros) short

/-- **A specification is read as the variable that it spells.** -/
theorem parse_eq_ok_iff_isSpelling {specification : Text} {v : Variable} :
    parse specification = .ok v ↔ v.IsSpelling specification := by
  constructor
  · intro read
    rcases parse_cases specification with ⟨name, modifier, apart, same⟩ | ⟨_, _, same⟩ | ⟨_, same⟩
    · rw [same, ofModifier_eq_ok_iff] at read
      obtain ⟨rfl, rfl⟩ := read
      exact apart.isSpelling
    · rw [same] at read
      cases read
    · rw [same] at read
      cases read
  · rintro (_ | @⟨length, truncated, -, short⟩)
    · exact v.parse_text
    · rw [parse_digits (notMem_name (Text.isName_iff.mpr v.name_valid)).1 length.text_ne_nil
        fun _ => Count.isDigit_of_mem_text, if_neg (Nat.not_lt.mpr short),
        Count.digitsNumber_text, ← truncated]
      exact v.ofModifier_self

/-- Too many digits are no number. -/
theorem parse_eq_tooManyDigits_iff {specification : Text} {count : Nat} :
    parse specification = .error (.tooManyDigits count) ↔ HasTooManyDigits specification count := by
  constructor
  · intro refused
    rcases parse_cases specification with ⟨name, modifier, -, same⟩ | ⟨_, many, same⟩ | ⟨_, same⟩
    · rw [same] at refused
      obtain ⟨_, malformed⟩ := malformed_of_ofModifier refused
      cases malformed
    · rw [same] at refused
      cases refused
      exact many
    · rw [same] at refused
      cases refused
  · rintro ⟨name, digits, rfl, apart, decimal, rfl, many⟩
    have nonempty : digits ≠ [] := List.length_pos_iff.mp (Nat.zero_lt_of_lt many)
    rw [parse_digits apart nonempty decimal, if_pos many]

/-- **Reading specifications.** A specification is read as the variable that it spells. The grammar
has just the specifications that are read as a variable and written as before, so what is read
beyond the grammar are lengths with zeros before them. All other specifications are malformed,
except for digits that are too many to be a number. -/
theorem parse_spelling (specification : Text) :
    (∀ v, parse specification = .ok v ↔ v.IsSpelling specification) ∧
      (IsSpecification specification ↔
        ∃ v, parse specification = .ok v ∧ v.text = specification) ∧
      (∀ count, parse specification = .error (.tooManyDigits count) ↔
        HasTooManyDigits specification count) ∧
      ((∃ cause, parse specification = .error (.malformed cause)) ↔
        (∀ v : Variable, ¬ v.IsSpelling specification) ∧
          ∀ count, ¬ HasTooManyDigits specification count) := by
  refine ⟨fun v => parse_eq_ok_iff_isSpelling, ?_, fun count => parse_eq_tooManyDigits_iff, ?_⟩
  · rw [← exists_text_eq_iff]
    constructor
    · rintro ⟨v, rfl⟩
      exact ⟨v, v.parse_text, rfl⟩
    · rintro ⟨v, -, same⟩
      exact ⟨v, same⟩
  · simp only [← parse_eq_ok_iff_isSpelling, ← parse_eq_tooManyDigits_iff]
    rcases parse_cases specification with ⟨name, modifier, -, same⟩ | ⟨count, -, same⟩ | ⟨_, same⟩
    · rw [same]
      cases result : ofModifier name modifier with
      | ok v => simp
      | error error =>
        obtain ⟨cause, rfl⟩ := malformed_of_ofModifier result
        simp
    · simp [same]
    · simp [same]

/-- A length with a zero before it follows no grammar, and yet it is read; and where there are too
many digits, not even the specification is found malformed. -/
theorem parse_spelling_padded :
    ¬ IsSpecification ['a', ':', '0', '1'] ∧
      (∃ v, parse ['a', ':', '0', '1'] = .ok v ∧ v.text = ['a', ':', '1']) ∧
      ∀ cause, parse ('a' :: ':' :: List.replicate 4301 '1') ≠ .error (.malformed cause) := by
  refine ⟨?_, ⟨⟨['a'], .truncated 1, rfl, rfl⟩, rfl, rfl⟩, ?_⟩
  · rw [← isSpecification_iff]
    decide
  · have many : HasTooManyDigits ('a' :: ':' :: List.replicate 4301 '1') 4301 := by
      refine ⟨['a'], List.replicate 4301 '1', rfl, by decide, fun digit member => ?_,
        List.length_replicate, by decide⟩
      rw [List.eq_of_mem_replicate member]
      rfl
    rw [parse_eq_tooManyDigits_iff.mpr many]
    simp

end Variable

end UriTemplates
