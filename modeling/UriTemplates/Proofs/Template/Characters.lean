import UriTemplates.Proofs.Percent
import UriTemplates.Proofs.Regex.Language
import UriTemplates.Template.Language

/-!
# The characters of values

What the expressions for runs of characters match: texts of kept characters and triplets
(`Operator.derives_chars`), and texts of code points (`Operator.derives_codePoints`).
-/

namespace UriTemplates

namespace Regex

/-- A class matches one character alone that one of its members holds. -/
theorem isMatch_class {members : List ClassMember} {text : Text} :
    (class_ members).isMatch text = true ↔ ∃ c, text = [c] ∧ members.any (·.holds c) = true := by
  simp only [class_, isMatch_char, CharTest.accepts, bne_iff_ne, ne_eq, Bool.not_eq_false]

theorem isMatch_hexDigit {text : Text} :
    hexDigit.isMatch text = true ↔ ∃ c, text = [c] ∧ Text.isHexDigit c = true := by
  have same : ∀ c, [span 'a' 'f', span 'A' 'F', span '0' '9'].any (·.holds c) = true ↔
      Text.isHexDigit c = true := by
    intro c
    simp only [List.any_cons, List.any_nil, span, ClassMember.holds, Text.isHexDigit,
      Text.hexValue?]
    grind
  simp only [hexDigit, isMatch_class, same]

theorem isMatch_unreserved {text : Text} :
    unreserved.isMatch text = true ↔ ∃ c, text = [c] ∧ Text.isUnreserved c = true := by
  have same : ∀ c, [span 'a' 'z', span 'A' 'Z', span '0' '9', member '.', member '_',
      member '~', member '-'].any (·.holds c) = true ↔ Text.isUnreserved c = true := by
    intro c
    simp only [List.any_cons, List.any_nil, span, member, ClassMember.holds, Text.isUnreserved,
      Bool.or_eq_true, Percent.isAlphanum_iff, Char.le_def]
    grind
  simp only [unreserved, isMatch_class, same]

/-- A class of single characters holds these. -/
theorem any_holds_member (all : List Char) (c : Char) :
    (all.map member).any (·.holds c) = all.contains c := by
  induction all with
  | nil => rfl
  | cons first all ih =>
    rw [List.map_cons, List.any_cons, ih, List.contains_cons, Bool.beq_comm]
    rfl

theorem isMatch_reserved {text : Text} :
    reserved.isMatch text = true ↔ ∃ c, text = [c] ∧ Text.isReserved c = true := by
  simp only [reserved, isMatch_class, any_holds_member, Text.isReserved]

/-- A percent sign and two characters of given kinds. -/
theorem isMatch_percent {first second : Regex} (undivided : first.isUndivided = true)
    (undividedNext : second.isUndivided = true) {able ableNext : Char → Prop}
    (matches_ : ∀ text, first.isMatch text = true ↔ ∃ c, text = [c] ∧ able c)
    (matchesNext : ∀ text, second.isMatch text = true ↔ ∃ c, text = [c] ∧ ableNext c)
    {text : Text} :
    (percent [first, second]).isMatch text = true ↔
      ∃ high low, text = ['%', high, low] ∧ able high ∧ ableNext low := by
  have each : ∀ regex ∈ [first, second], regex.isUndivided = true := by
    simp [undivided, undividedNext]
  rw [percent, isMatch_spliceAll_cons (List.forall_mem_cons.mpr ⟨rfl, each⟩)]
  simp only [isMatch_ofChar, isMatch_spliceAll_cons each,
    isMatch_spliceAll_cons (List.forall_mem_cons.mp each).2, isMatch_spliceAll_nil, matches_,
    matchesNext]
  constructor
  · rintro ⟨_, _, rfl, rfl, _, _, rfl, ⟨high, rfl, known⟩, _, _, rfl, ⟨low, rfl, knownNext⟩, rfl⟩
    exact ⟨high, low, rfl, known, knownNext⟩
  · rintro ⟨high, low, rfl, known, knownNext⟩
    exact ⟨['%'], [high, low], rfl, rfl, [high], [low], rfl, ⟨high, rfl, known⟩, [low], [], rfl,
      ⟨low, rfl, knownNext⟩, rfl⟩

/-- The expression of a triplet has no bar. -/
theorem isUndivided_percent (first second : Regex) (undivided : first.isUndivided = true)
    (undividedNext : second.isUndivided = true) :
    (percent [first, second]).isUndivided = true := by
  refine (spliceAll_undivided (β := Unit) (List.forall_mem_cons.mpr ⟨rfl, ?_⟩)).1
  simp [undivided, undividedNext]

/-- The expression of a continuing triplet matches just these triplets. -/
theorem isMatch_continuationTriplet {text : Text} :
    continuationTriplet.isMatch text = true ↔ ∃ high low, text = ['%', high, low] ∧
      Percent.isContinuing high = true ∧ Text.isHexDigit low = true := by
  refine isMatch_percent rfl rfl (fun text => ?_) fun _ => isMatch_hexDigit
  exact isMatch_class.trans (by
    simp only [← any_holds_member, Percent.isContinuing, List.map_cons, List.map_nil])

/-- Triplets continue a sequence if each of them matches the expression of one that does. -/
theorem continues_iff {count : Nat} {text : Text} :
    Percent.Continues count text ↔ ∃ pieces : List Text, pieces.length = count ∧
      text = pieces.flatten ∧ ∀ piece ∈ pieces, continuationTriplet.isMatch piece = true := by
  simp only [isMatch_continuationTriplet]
  constructor
  · intro continues
    induction continues with
    | nil => exact ⟨[], rfl, rfl, by simp⟩
    | @cons count high low rest known digit _ ih =>
      obtain ⟨pieces, size, rfl, each⟩ := ih
      exact ⟨['%', high, low] :: pieces, by simpa using size, rfl,
        List.forall_mem_cons.mpr ⟨⟨high, low, rfl, known, digit⟩, each⟩⟩
  · rintro ⟨pieces, rfl, rfl, each⟩
    induction pieces with
    | nil => exact .nil
    | cons piece pieces ih =>
      obtain ⟨⟨high, low, rfl, known, digit⟩, later⟩ := List.forall_mem_cons.mp each
      exact .cons known digit (ih later)

/-- The expression of several continuing triplets matches just as many of them. -/
theorem isMatch_continuations {count : Nat} {text : Text} :
    (loop (group continuationTriplet) (.exactly (.ofNat count)) false).isMatch text = true ↔
      Percent.Continues count text := by
  have nonempty : (group continuationTriplet).isMatch [] = false := by decide
  rw [isMatch_loop nonempty, continues_iff]
  simp only [Quantifier.least, Quantifier.further, Count.ofNat, Option.some.injEq,
    forall_eq', Nat.add_zero, isMatch_group]
  constructor
  · rintro ⟨pieces, enough, bound, each⟩
    exact ⟨pieces, Nat.le_antisymm bound enough, each⟩
  · rintro ⟨pieces, rfl, each⟩
    exact ⟨pieces, Nat.le_refl _, Nat.le_refl _, each⟩

/-- A first triplet of given digits and a number of triplets that continue it. -/
theorem isMatch_splice_percent (first second more : Regex) {able ableNext : Char → Prop}
    {count : Nat} (undivided : first.isUndivided = true)
    (undividedNext : second.isUndivided = true) (undividedMore : more.isUndivided = true)
    (matches_ : ∀ text, first.isMatch text = true ↔ ∃ c, text = [c] ∧ able c)
    (matchesNext : ∀ text, second.isMatch text = true ↔ ∃ c, text = [c] ∧ ableNext c)
    (matchesMore : ∀ text, more.isMatch text = true ↔ Percent.Continues count text)
    {text : Text} :
    ((percent [first, second]).splice more).isMatch text = true ↔
      ∃ high low rest, text = '%' :: high :: low :: rest ∧ able high ∧ ableNext low ∧
        Percent.Continues count rest := by
  rw [isMatch_splice (isUndivided_percent _ _ undivided undividedNext) undividedMore]
  simp only [isMatch_percent undivided undividedNext matches_ matchesNext, matchesMore]
  constructor
  · rintro ⟨_, rest, rfl, ⟨high, low, rfl, known, knownNext⟩, continues⟩
    exact ⟨high, low, rest, rfl, known, knownNext, continues⟩
  · rintro ⟨high, low, rest, rfl, known, knownNext, continues⟩
    exact ⟨['%', high, low], rest, rfl, ⟨high, low, rfl, known, knownNext⟩, continues⟩

theorem isMatch_members {all : List Char} {text : Text} :
    (class_ (all.map member)).isMatch text = true ↔ ∃ c, text = [c] ∧ c ∈ all := by
  simp only [isMatch_class, any_holds_member, List.contains_iff_mem]

theorem isMatch_span {first last : Char} {text : Text} :
    (class_ [span first last]).isMatch text = true ↔ ∃ c, text = [c] ∧ first ≤ c ∧ c ≤ last := by
  simp [isMatch_class, span, ClassMember.holds]

/-- A triplet of an ASCII character. -/
theorem isMatch_asciiTriplet {text : Text} :
    (percent [class_ [span '0' '7'], hexDigit]).isMatch text = true ↔
      ∃ high low rest, text = '%' :: high :: low :: rest ∧ ('0' ≤ high ∧ high ≤ '7') ∧
        Text.isHexDigit low = true ∧ Percent.Continues 0 rest := by
  rw [isMatch_percent rfl rfl (fun _ => isMatch_span) fun _ => isMatch_hexDigit]
  constructor
  · rintro ⟨high, low, rfl, known, digit⟩
    exact ⟨high, low, [], rfl, known, digit, .nil⟩
  · rintro ⟨high, low, _, rfl, known, digit, ⟨⟩⟩
    exact ⟨high, low, rfl, known, digit⟩

/-- One continuing triplet continues a sequence by one. -/
theorem isMatch_oneContinuation (text : Text) :
    continuationTriplet.isMatch text = true ↔ Percent.Continues 1 text := by
  rw [continues_iff]
  constructor
  · intro matched
    exact ⟨[text], rfl, by simp, by simpa using matched⟩
  · rintro ⟨pieces, size, rfl, each⟩
    obtain ⟨piece, rfl⟩ := List.length_eq_one_iff.mp size
    simpa using each

/-- The expression of an encoded code point matches a first triplet with as many continuing ones as
it announces. -/
theorem isMatch_encodedCodePoint {text : Text} :
    encodedCodePoint.isMatch text = true ↔ ∃ high low count more,
      text = '%' :: high :: low :: more ∧ Percent.following? high low = some count ∧
        Percent.Continues count more := by
  have options : encodedCodePoint.isMatch text = true ↔
      (percent [class_ [span '0' '7'], hexDigit]).isMatch text = true ∨
      ((percent [class_ (['c', 'd', 'C', 'D'].map member), hexDigit]).splice
        continuationTriplet).isMatch text = true ∨
      ((percent [class_ (['e', 'E'].map member), hexDigit]).splice
        (.loop (.group continuationTriplet) (.exactly (.ofNat 2)) false)).isMatch text = true ∨
      ((percent [class_ (['f', 'F'].map member), class_ [span '0' '7']]).splice
        (.loop (.group continuationTriplet) (.exactly (.ofNat 3)) false)).isMatch text = true := by
    rw [encodedCodePoint, isMatch_oneOf (List.cons_ne_nil _ _)]
    simp only [List.mem_cons, List.not_mem_nil, or_false, exists_eq_or_imp, exists_eq_left,
      List.map_cons, List.map_nil]
  rw [options, isMatch_asciiTriplet,
    isMatch_splice_percent _ _ _ rfl rfl rfl (fun _ => isMatch_members)
      (fun _ => isMatch_hexDigit) isMatch_oneContinuation,
    isMatch_splice_percent _ _ _ rfl rfl rfl (fun _ => isMatch_members)
      (fun _ => isMatch_hexDigit) fun _ => isMatch_continuations,
    isMatch_splice_percent _ _ _ rfl rfl rfl (fun _ => isMatch_members)
      (fun _ => isMatch_span) fun _ => isMatch_continuations]
  simp only [Percent.following?_eq_some_iff]
  constructor
  · rintro (⟨high, low, more, rfl, known, digit, continues⟩ |
      ⟨high, low, more, rfl, known, digit, continues⟩ |
      ⟨high, low, more, rfl, known, digit, continues⟩ |
      ⟨high, low, more, rfl, known, digit, continues⟩)
    · exact ⟨high, low, 0, more, rfl, .inl ⟨known, digit, rfl⟩, continues⟩
    · exact ⟨high, low, 1, more, rfl, .inr (.inl ⟨known, digit, rfl⟩), continues⟩
    · exact ⟨high, low, 2, more, rfl, .inr (.inr (.inl ⟨known, digit, rfl⟩)), continues⟩
    · exact ⟨high, low, 3, more, rfl, .inr (.inr (.inr ⟨known, digit, rfl⟩)), continues⟩
  · rintro ⟨high, low, count, more, rfl, (⟨known, digit, rfl⟩ | ⟨known, digit, rfl⟩ |
      ⟨known, digit, rfl⟩ | ⟨known, digit, rfl⟩), continues⟩
    · exact .inl ⟨high, low, more, rfl, known, digit, continues⟩
    · exact .inr (.inl ⟨high, low, more, rfl, known, digit, continues⟩)
    · exact .inr (.inr (.inl ⟨high, low, more, rfl, known, digit, continues⟩))
    · exact .inr (.inr (.inr ⟨high, low, more, rfl, known, digit, continues⟩))

/-- The expression of a character of a value matches a kept character or a triplet. -/
theorem isMatch_valueChar {allowReserved : Bool} {text : Text} :
    (valueChar allowReserved).isMatch text = true ↔
      (∃ c, text = [c] ∧ Percent.isKept allowReserved c = true) ∨
      ∃ high low, text = ['%', high, low] ∧ Text.isHexDigit high = true ∧
        Text.isHexDigit low = true := by
  rw [valueChar, isMatch_group, isMatch_oneOf (by simp)]
  have triplet : (group (percent [hexDigit, hexDigit])).isMatch text = true ↔ ∃ high low,
      text = ['%', high, low] ∧ Text.isHexDigit high = true ∧ Text.isHexDigit low = true :=
    isMatch_percent rfl rfl (fun _ => isMatch_hexDigit) fun _ => isMatch_hexDigit
  cases allowReserved
  · simp [isMatch_unreserved, triplet, Percent.isKept]
  · simp only [List.cons_append, List.nil_append, ↓reduceIte, List.mem_cons, List.not_mem_nil,
      or_false, exists_eq_or_imp, exists_eq_left, isMatch_unreserved, triplet, isMatch_reserved,
      Percent.isKept, Bool.true_and, Bool.or_eq_true, and_or_left, exists_or]
    rw [or_assoc, or_comm (a := ∃ high low, _)]

/-- The expression of a code point matches just the code points that are written. -/
theorem isMatch_codePoint {allowReserved : Bool} {text : Text} :
    (codePoint allowReserved).isMatch text = true ↔ Percent.IsCodePoint allowReserved text := by
  have shapes : Percent.IsCodePoint allowReserved text ↔
      (∃ c, text = [c] ∧ Percent.isKept allowReserved c = true) ∨
      encodedCodePoint.isMatch text = true := by
    rw [isMatch_encodedCodePoint]
    constructor
    · rintro (known | ⟨announced, continues⟩)
      · exact .inl ⟨_, rfl, known⟩
      · exact .inr ⟨_, _, _, _, rfl, announced, continues⟩
    · rintro (⟨c, rfl, known⟩ | ⟨high, low, count, more, rfl, announced, continues⟩)
      · exact .kept known
      · exact .encoded announced continues
  rw [codePoint, isMatch_group, isMatch_oneOf (by simp), shapes]
  cases allowReserved
  · simp [isMatch_unreserved, isMatch_group, Percent.isKept]
  · simp only [List.cons_append, List.nil_append, ↓reduceIte, List.mem_cons, List.not_mem_nil,
      or_false, exists_eq_or_imp, exists_eq_left, isMatch_unreserved, isMatch_group,
      isMatch_reserved, Percent.isKept, Bool.true_and, Bool.or_eq_true, and_or_left, exists_or]
    rw [or_assoc, or_comm (a := encodedCodePoint.isMatch text = true)]

/-- A written text is made of characters of values. -/
theorem written_iff {allowReserved : Bool} {text : Text} :
    Percent.Written allowReserved text ↔ ∃ pieces : List Text, text = pieces.flatten ∧
      ∀ piece ∈ pieces, (valueChar allowReserved).isMatch piece = true := by
  simp only [isMatch_valueChar]
  constructor
  · intro written
    induction written with
    | nil => exact ⟨[], rfl, by simp⟩
    | @kept c rest known _ ih =>
      obtain ⟨pieces, rfl, each⟩ := ih
      exact ⟨[c] :: pieces, rfl, List.forall_mem_cons.mpr ⟨.inl ⟨c, rfl, known⟩, each⟩⟩
    | @triplet high low rest digit digitNext _ ih =>
      obtain ⟨pieces, rfl, each⟩ := ih
      exact ⟨['%', high, low] :: pieces, rfl,
        List.forall_mem_cons.mpr ⟨.inr ⟨high, low, rfl, digit, digitNext⟩, each⟩⟩
  · rintro ⟨pieces, rfl, each⟩
    induction pieces with
    | nil => exact .nil
    | cons piece pieces ih =>
      obtain ⟨first, later⟩ := List.forall_mem_cons.mp each
      rcases first with ⟨c, rfl, known⟩ | ⟨high, low, rfl, digit, digitNext⟩
      · exact .kept known (ih later)
      · exact .triplet digit digitNext (ih later)

/-- A text of code points is made of as many pieces that match the expression of one. -/
theorem inCodePoints_iff {allowReserved : Bool} {count : Nat} {text : Text} :
    Percent.InCodePoints allowReserved count text ↔ ∃ pieces : List Text,
      pieces.length = count ∧ text = pieces.flatten ∧
        ∀ piece ∈ pieces, (codePoint allowReserved).isMatch piece = true := by
  simp only [isMatch_codePoint]
  constructor
  · intro points
    induction points with
    | nil => exact ⟨[], rfl, rfl, by simp⟩
    | @cons count first rest point _ ih =>
      obtain ⟨pieces, size, rfl, each⟩ := ih
      exact ⟨first :: pieces, by simpa using size, rfl, List.forall_mem_cons.mpr ⟨point, each⟩⟩
  · rintro ⟨pieces, rfl, rfl, each⟩
    induction pieces with
    | nil => exact .nil
    | cons piece pieces ih =>
      obtain ⟨point, later⟩ := List.forall_mem_cons.mp each
      exact .cons point (ih later)

theorem valueChar_nonempty {allowReserved : Bool} :
    (valueChar allowReserved).isMatch [] = false := by
  cases allowReserved <;> decide

theorem codePoint_nonempty {allowReserved : Bool} :
    (codePoint allowReserved).isMatch [] = false := by
  cases allowReserved <;> decide

end Regex

namespace Operator

open Readings (Derives)

variable {operator : Operator} {text : Text} {marks : List (Site × Option Text)}

/-- A run of characters is any text of kept characters and triplets. -/
theorem derives_chars :
    Derives operator.chars.readings text marks ↔
      marks = [] ∧ Percent.Written operator.allowsReserved text := by
  rw [chars, Pattern.readings, Regex.derives_readings,
    Regex.isMatch_loop Regex.valueChar_nonempty, Regex.written_iff]
  simp [Quantifier.least, Quantifier.further]

/-- At least one character of a value reads just the written texts that are not empty. -/
theorem derives_someChars :
    Derives operator.someChars.readings text marks ↔
      marks = [] ∧ Percent.Written operator.allowsReserved text ∧ text ≠ [] := by
  rw [someChars, Pattern.readings, Regex.derives_readings,
    Regex.isMatch_loop Regex.valueChar_nonempty, Regex.written_iff]
  simp only [Quantifier.least, Quantifier.further, reduceCtorEq, false_implies, implies_true,
    true_and]
  apply and_congr_right
  intro _
  constructor
  · rintro ⟨pieces, enough, rfl, each⟩
    refine ⟨⟨pieces, rfl, each⟩, ?_⟩
    obtain ⟨piece, later, rfl⟩ := List.exists_cons_of_length_pos enough
    intro nothing
    have matched := each piece List.mem_cons_self
    rw [(List.append_eq_nil_iff.mp nothing).1, Regex.valueChar_nonempty] at matched
    cases matched
  · rintro ⟨⟨pieces, rfl, each⟩, nonempty⟩
    refine ⟨pieces, List.length_pos_iff.mpr ?_, rfl, each⟩
    rintro rfl
    exact nonempty rfl

/-- A bounded run of code points is a text made of a number of them within the bounds. -/
theorem derives_codePoints {least most : Nat} (ordered : least ≤ most) :
    Derives (operator.codePoints least most).readings text marks ↔
      marks = [] ∧ ∃ count, least ≤ count ∧ count ≤ most ∧
        Percent.InCodePoints operator.allowsReserved count text := by
  rw [codePoints, Pattern.readings, Regex.derives_readings,
    Regex.isMatch_loop Regex.codePoint_nonempty]
  simp only [Regex.inCodePoints_iff, Quantifier.ofBounds, Quantifier.least, Quantifier.further,
    Option.map_some, Option.getD_some, Count.ofNat, Option.some.injEq, forall_eq',
    Nat.add_sub_cancel' ordered]
  apply and_congr_right
  intro _
  constructor
  · rintro ⟨pieces, enough, bound, each⟩
    exact ⟨pieces.length, enough, bound, pieces, rfl, each⟩
  · rintro ⟨_, enough, bound, pieces, rfl, each⟩
    exact ⟨pieces, enough, bound, each⟩

end Operator

end UriTemplates
