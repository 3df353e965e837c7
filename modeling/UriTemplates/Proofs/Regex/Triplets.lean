import UriTemplates.Proofs.Reading.Commuting
import UriTemplates.Proofs.Template.Characters
import UriTemplates.Proofs.Text.Triplets

/-!
# Regular expressions that do not see the case of triplets

An expression that reads triplets only as a whole, with digits in either case, reads a text like the
text with all triplets in upper case (`Regex.IgnoresCase`). The characters of values are read so
(`Regex.ignoresCase_valueChar`, `Regex.ignoresCase_codePoint`), and so is every text without a
percent sign (`Regex.ignoresCase_ofText`).
-/

namespace UriTemplates

/-- After a character that passes its test, the rest is read. -/
theorem Readings.char_andThen {β : Type} (test : Char → Bool) (next : Readings β) (c : Char)
    (rest : Text) :
    (Readings.char test).andThen next (c :: rest) = if test c then next rest else [] := by
  simp only [Readings.andThen, Readings.char]
  split
  · simp [continued]
  · rfl

namespace Percent

open Text (ChangesAlone isHexDigit)

/-- A character that starts no triplet is changed alone. -/
theorem changesAlone_char {c : Char} (notPercent : c ≠ '%') : ChangesAlone uppercased [c] := by
  intro rest
  rw [List.singleton_append, uppercased_char notPercent, uppercased_char notPercent]
  rfl

/-- A triplet is changed alone. -/
theorem changesAlone_triplet {high low : Char} (digit : isHexDigit high = true)
    (digitNext : isHexDigit low = true) : ChangesAlone uppercased ['%', high, low] := by
  intro rest
  rw [uppercased_triplet digit digitNext]
  exact uppercased_triplet digit digitNext rest

end Percent

namespace ClassMember

/-- The last character that a member of a class holds. -/
def last : ClassMember → Char
  | one member => member.char
  | range _ last => last.char

/-- No member of a class holds a character beyond its last one. -/
theorem le_last {member : ClassMember} {c : Char} (holds : member.holds c = true) :
    c.toNat ≤ member.last.toNat := by
  cases member with
  | one member =>
    rw [ClassMember.holds, beq_iff_eq] at holds
    exact Nat.le_of_eq (congrArg Char.toNat holds.symm)
  | range first last =>
    rw [ClassMember.holds, Bool.and_eq_true, decide_eq_true_eq, decide_eq_true_eq] at holds
    exact UInt32.le_iff_toNat_le.mp holds.2

end ClassMember

namespace Regex

open Percent (uppercased)

/-- Whether an expression reads a text like the text with all triplets in upper case. -/
def IgnoresCase (regex : Regex) : Prop :=
  ∀ (β : Type) (mark : β → β), Readings.Commutes uppercased mark regex.readings

theorem ignoresCase_empty : IgnoresCase empty :=
  fun _ _ => Readings.commutes_stop rfl

/-- A character that starts no triplet is read alone. -/
theorem ignoresCase_char {test : CharTest} (notPercent : test.accepts '%' = false) :
    IgnoresCase (char test) := by
  intro β mark
  have differs : ∀ {c}, test.accepts c = true → c ≠ '%' := by
    rintro c accepted rfl
    rw [notPercent] at accepted
    cases accepted
  refine ⟨fun text reading member => ?_, fun text => ?_⟩
  · cases text with
    | nil => cases member
    | cons c rest =>
      simp only [readings, Readings.char] at member
      split at member
      · rename_i accepted
        rw [List.mem_singleton.mp member]
        exact ⟨[c], rfl, Percent.changesAlone_char (differs accepted)⟩
      · cases member
  · cases text with
    | nil => rfl
    | cons c rest =>
      by_cases percent : c = '%'
      · obtain ⟨later, changed⟩ := List.head?_eq_some_iff.mp (Percent.head?_uppercased (c :: rest))
        rw [changed, percent]
        simp [readings, Readings.char, notPercent]
      · simp only [Percent.uppercased_char percent, readings, Readings.char]
        split <;> rfl

theorem IgnoresCase.alt {first second : Regex} (ignores : first.IgnoresCase)
    (ignoresNext : second.IgnoresCase) : (first.alt second).IgnoresCase :=
  fun _ mark => (ignores _ mark).orElse (ignoresNext _ mark)

theorem IgnoresCase.loop {body : Regex} (ignores : body.IgnoresCase) (quantifier : Quantifier)
    (isLazy : Bool) : (body.loop quantifier isLazy).IgnoresCase :=
  fun _ mark => (ignores _ mark).loop Percent.length_uppercased quantifier isLazy

theorem IgnoresCase.splice {first second : Regex} (ignores : first.IgnoresCase)
    (ignoresNext : second.IgnoresCase) (undivided : first.isUndivided = true)
    (undividedNext : second.isUndivided = true) : (first.splice second).IgnoresCase := by
  intro β mark
  rw [splice_eq_andThen undivided undividedNext, readings_andThen]
  exact (ignores _ mark).andThen (ignoresNext _ mark)

theorem ignoresCase_oneOf {regexes : List Regex} (each : ∀ regex ∈ regexes, regex.IgnoresCase) :
    (oneOf regexes).IgnoresCase := by
  induction regexes with
  | nil => exact ignoresCase_empty
  | cons first regexes ih =>
    obtain ⟨here, later⟩ := List.forall_mem_cons.mp each
    cases regexes with
    | nil => exact here
    | cons second others => exact here.alt (ih later)

/-- Any expressions without bars that ignore the case of triplets do so one after the other. -/
theorem ignoresCase_spliceAll {regexes : List Regex}
    (each : ∀ regex ∈ regexes, regex.IgnoresCase)
    (undivided : ∀ regex ∈ regexes, regex.isUndivided = true) :
    (spliceAll regexes).IgnoresCase := by
  induction regexes with
  | nil => exact ignoresCase_empty
  | cons first regexes ih =>
    obtain ⟨here, later⟩ := List.forall_mem_cons.mp each
    obtain ⟨undividedHere, undividedLater⟩ := List.forall_mem_cons.mp undivided
    exact here.splice (ih later undividedLater) undividedHere
      (spliceAll_undivided (β := Unit) undividedLater).1

/-- **A text without a percent sign** is read as it is. -/
theorem ignoresCase_ofText {text : Text} (plain : '%' ∉ text) : (ofText text).IgnoresCase := by
  refine ignoresCase_spliceAll (fun regex member => ?_) (isUndivided_ofChars text)
  obtain ⟨c, found, rfl⟩ := List.mem_map.mp member
  apply ignoresCase_char
  rw [CharTest.accepts, beq_eq_false_iff_ne]
  rintro rfl
  exact plain found

/-- Whether a class holds digits of triplets only, and with a digit the same digit in upper case. -/
structure IsDigitClass (members : List ClassMember) : Prop where
  /-- Every character of the class is a digit. -/
  isHexDigit : ∀ c, members.any (·.holds c) = true → Text.isHexDigit c = true
  /-- The case of a digit does not matter. -/
  any_toUpper : ∀ c, Text.isHexDigit c = true →
    members.any (·.holds c.toUpper) = members.any (·.holds c)

/-- A class of ASCII characters is checked code by code. -/
theorem isDigitClass_of_ascii {members : List ClassMember}
    (checked : (∀ member ∈ members, member.last.toNat < 128) ∧
      ∀ code < 128, members.any (·.holds (Char.ofNat code)) =
        (Text.isHexDigit (Char.ofNat code) &&
          members.any (·.holds (Char.ofNat code).toUpper))) :
    IsDigitClass members := by
  have each : ∀ c : Char, c.toNat < 128 → members.any (·.holds c) =
      (Text.isHexDigit c && members.any (·.holds c.toUpper)) := by
    intro c ascii
    have here := checked.2 c.toNat ascii
    rwa [Char.ofNat_toNat] at here
  refine ⟨fun c inside => ?_, fun c digit => ?_⟩
  · obtain ⟨member, found, holds⟩ := List.any_eq_true.mp inside
    have ascii := Nat.lt_of_le_of_lt (ClassMember.le_last holds) (checked.1 member found)
    rw [each c ascii, Bool.and_eq_true] at inside
    exact inside.1
  · rw [each c (Text.toNat_lt_of_isHexDigit digit), digit, Bool.true_and]

section Percent

variable {β : Type} {members more : List ClassMember}

/-- A percent sign and two characters of given classes are read one after the other. -/
theorem readings_percent :
    (percent [class_ members, class_ more]).readings =
      ((Readings.char fun c => '%' == c).andThen
        ((Readings.char fun c => members.any (·.holds c)).andThen
          (Readings.char fun c => more.any (·.holds c))) : Readings β) := by
  have undivided : ∀ regex ∈ [ofChar '%', class_ members, class_ more],
      regex.isUndivided = true := by
    simp [ofChar, class_, isUndivided]
  have digit : ∀ members, (class_ members).readings =
      (Readings.char fun c => members.any (·.holds c) : Readings β) := by
    intro members
    exact congrArg Readings.char (funext fun c => by simp [CharTest.accepts])
  rw [percent, (spliceAll_undivided undivided).2]
  simp only [List.foldr_cons, List.foldr_nil, digit, Readings.andThen_stop]
  rfl

/-- The expression of a triplet reads nothing where no percent sign stands. -/
theorem readings_percent_char {c : Char} (notPercent : c ≠ '%') (rest : Text) :
    ((percent [class_ members, class_ more]).readings : Readings β) (c :: rest) = [] := by
  rw [readings_percent, Readings.char_andThen, if_neg]
  rw [beq_iff_eq]
  exact notPercent.symm

/-- The expression of a triplet reads one whose digits are in its two classes. -/
theorem readings_percent_triplet (high low : Char) (rest : Text) :
    ((percent [class_ members, class_ more]).readings : Readings β) ('%' :: high :: low :: rest) =
      if members.any (·.holds high) && more.any (·.holds low) then [⟨[], rest⟩] else [] := by
  rw [readings_percent, Readings.char_andThen, if_pos (beq_self_eq_true _), Readings.char_andThen]
  cases members.any (·.holds high) <;> rfl

/-- A percent sign that starts no triplet is not read. -/
theorem readings_percent_sign (digits : IsDigitClass members) (digitsNext : IsDigitClass more)
    {rest : Text} (none : Percent.startsDigits rest = false) :
    ((percent [class_ members, class_ more]).readings : Readings β) ('%' :: rest) = [] := by
  match rest, none with
  | [], _ =>
    rw [readings_percent]
    rfl
  | [high], _ =>
    rw [readings_percent, Readings.char_andThen, if_pos (beq_self_eq_true _),
      Readings.char_andThen]
    split <;> rfl
  | high :: low :: later, none =>
    rw [readings_percent_triplet, if_neg]
    rw [Bool.and_eq_true]
    rintro ⟨inside, insideNext⟩
    rw [Percent.startsDigits, digits.isHexDigit high inside,
      digitsNext.isHexDigit low insideNext] at none
    cases none

/-- **A triplet is read as a whole**, whatever the case of its digits is. -/
theorem ignoresCase_percent (digits : IsDigitClass members) (digitsNext : IsDigitClass more) :
    (percent [class_ members, class_ more]).IgnoresCase := by
  intro β mark
  constructor
  · intro text reading member
    induction text using Percent.induction_triplets with
    | nil =>
      rw [readings_percent] at member
      cases member
    | char c rest notPercent =>
      rw [readings_percent_char notPercent] at member
      cases member
    | sign rest none =>
      rw [readings_percent_sign digits digitsNext none] at member
      cases member
    | triplet high low rest digit digitNext =>
      rw [readings_percent_triplet] at member
      split at member
      · rw [List.mem_singleton.mp member]
        exact ⟨['%', high, low], rfl, Percent.changesAlone_triplet digit digitNext⟩
      · cases member
  · intro text
    induction text using Percent.induction_triplets with
    | nil =>
      rw [readings_percent]
      rfl
    | char c rest notPercent =>
      rw [Percent.uppercased_char notPercent, readings_percent_char notPercent,
        readings_percent_char notPercent]
      rfl
    | sign rest none =>
      rw [Percent.uppercased_sign none, readings_percent_sign digits digitsNext none,
        readings_percent_sign digits digitsNext]
      · rfl
      · rw [Percent.startsDigits_uppercased, none]
    | triplet high low rest digit digitNext =>
      rw [Percent.uppercased_triplet digit digitNext, readings_percent_triplet,
        readings_percent_triplet, digits.any_toUpper high digit,
        digitsNext.any_toUpper low digitNext]
      split <;> rfl

end Percent

/-- The class of hexadecimal digits holds the same digits in both cases. -/
theorem isDigitClass_hexDigit :
    IsDigitClass [span 'a' 'f', span 'A' 'F', span '0' '9'] :=
  isDigitClass_of_ascii (by decide +kernel)

/-- A triplet that continues a code point. -/
theorem ignoresCase_continuationTriplet : continuationTriplet.IgnoresCase :=
  ignoresCase_percent (isDigitClass_of_ascii (by decide +kernel)) isDigitClass_hexDigit

/-- The triplets of one code point. -/
theorem ignoresCase_encodedCodePoint : encodedCodePoint.IgnoresCase := by
  have octal : IsDigitClass [span '0' '7'] :=
    isDigitClass_of_ascii (by decide +kernel)
  have ofTwo : IsDigitClass [member 'c', member 'd', member 'C', member 'D'] :=
    isDigitClass_of_ascii (by decide +kernel)
  have ofThree : IsDigitClass [member 'e', member 'E'] :=
    isDigitClass_of_ascii (by decide +kernel)
  have ofFour : IsDigitClass [member 'f', member 'F'] :=
    isDigitClass_of_ascii (by decide +kernel)
  have continuing := ignoresCase_continuationTriplet
  apply ignoresCase_oneOf
  simp only [List.forall_mem_cons]
  refine ⟨ignoresCase_percent octal isDigitClass_hexDigit, ?_, ?_, ?_, List.forall_mem_nil _⟩
  · exact (ignoresCase_percent ofTwo isDigitClass_hexDigit).splice continuing rfl rfl
  · exact (ignoresCase_percent ofThree isDigitClass_hexDigit).splice (continuing.loop _ _) rfl rfl
  · exact (ignoresCase_percent ofFour octal).splice (continuing.loop _ _) rfl rfl

/-- One of unreserved characters, encoded ones, and reserved ones where they are let through. -/
theorem ignoresCase_character {encoded : Regex} (ignores : encoded.IgnoresCase)
    (allowReserved : Bool) :
    (group (oneOf ([unreserved, .group encoded] ++
      if allowReserved then [reserved] else []))).IgnoresCase := by
  refine ignoresCase_oneOf fun regex member => ?_
  simp only [List.mem_append, List.mem_cons, List.not_mem_nil, or_false,
    List.mem_ite_nil_right] at member
  rcases member with (rfl | rfl) | ⟨-, rfl⟩
  · exact ignoresCase_char (by decide)
  · exact ignores
  · exact ignoresCase_char (by decide)

/-- **The characters of values** are read alike in any case of triplets. -/
theorem ignoresCase_valueChar (allowReserved : Bool) : (valueChar allowReserved).IgnoresCase :=
  ignoresCase_character (ignoresCase_percent isDigitClass_hexDigit isDigitClass_hexDigit)
    allowReserved

/-- **The code points of values** are read alike in any case of triplets. -/
theorem ignoresCase_codePoint (allowReserved : Bool) : (codePoint allowReserved).IgnoresCase :=
  ignoresCase_character ignoresCase_encodedCodePoint allowReserved

end Regex

end UriTemplates
