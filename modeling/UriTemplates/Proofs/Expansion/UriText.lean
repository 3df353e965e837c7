import UriTemplates.Proofs.Expansion.Language
import UriTemplates.Proofs.Grammar.Printing

/-!
# Expansions are text of a URI

What a template expands to is made of unreserved and reserved characters, triplets, and the
characters beyond ASCII that literal text may hold (`Text.IsUri`): nothing else is written by an
expression (`Expression.isUri_expand`) or stands in literal text (`Text.isUri_of_isLiteral`).
Literal text may hold all of these but the apostrophe (`Text.isLiteralChar_iff`), so an expansion
is a template itself just if it has no apostrophe, and then it expands to itself
(`Template.isUri_expansion`).
-/

namespace UriTemplates

namespace Text

/-- The code points beyond ASCII that may stand in literal text, as closed ranges: those of
`ucschar` and then the three of `iprivate`. -/
def wideRanges : List (Nat × Nat) :=
  [(0xa0, 0xd7ff), (0xf900, 0xfdcf), (0xfdf0, 0xffef),
    (0x10000, 0x1fffd), (0x20000, 0x2fffd), (0x30000, 0x3fffd), (0x40000, 0x4fffd),
    (0x50000, 0x5fffd), (0x60000, 0x6fffd), (0x70000, 0x7fffd), (0x80000, 0x8fffd),
    (0x90000, 0x9fffd), (0xa0000, 0xafffd), (0xb0000, 0xbfffd), (0xc0000, 0xcfffd),
    (0xd0000, 0xdfffd), (0xe1000, 0xefffd),
    (0xe000, 0xf8ff), (0xf0000, 0xffffd), (0x100000, 0x10fffd)]

/-- Whether a character is one of those beyond ASCII that may stand in literal text. -/
def isWide (c : Char) : Bool :=
  wideRanges.any fun (first, last) => first ≤ c.toNat && c.toNat ≤ last

/-- Texts made of unreserved and reserved characters, triplets, and the characters beyond ASCII that
literal text may hold. -/
inductive IsUri : Text → Prop
  /-- The empty text. -/
  | nil : IsUri []
  /-- A character before such a text. -/
  | char {c : Char} {rest : Text}
      (allowed : isUnreserved c = true ∨ isReserved c = true ∨ isWide c = true)
      (more : IsUri rest) : IsUri (c :: rest)
  /-- A triplet before such a text. -/
  | triplet {high low : Char} {rest : Text} (highDigit : isHexDigit high = true)
      (lowDigit : isHexDigit low = true) (more : IsUri rest) : IsUri ('%' :: high :: low :: rest)

/-- The ASCII characters of literal text are the unreserved and the reserved ones but for the
apostrophe. -/
theorem isLiteralChar_ascii : ∀ code < 128, isLiteralChar (Char.ofNat code) =
    ((isUnreserved (Char.ofNat code) || isReserved (Char.ofNat code)) &&
      Char.ofNat code != '\x27') := by
  decide +kernel

/-- Unreserved and reserved characters are ASCII characters. -/
theorem toNat_lt_of_kept {c : Char} (kept : isUnreserved c = true ∨ isReserved c = true) :
    c.toNat < 128 := by
  obtain unreserved | reserved := kept
  · rw [isUnreserved, Bool.or_eq_true, Percent.isAlphanum_iff] at unreserved
    obtain alphanumeric | mark := unreserved
    · simp only [Char.le_def, UInt32.le_iff_toNat_le] at alphanumeric
      change c.val.toNat < 128
      have upper : 'Z'.val.toNat = 90 ∧ 'z'.val.toNat = 122 ∧ '9'.val.toNat = 57 := by decide
      omega
    · exact of_decide_eq_true
        (Percent.holds_of_contains (fun c => c.toNat < 128) (by decide) mark)
  · exact of_decide_eq_true
      (Percent.holds_of_contains (fun c => c.toNat < 128) (by decide) reserved)

/-- The wide characters lie beyond ASCII. -/
theorem le_toNat_of_isWide {c : Char} (wide : isWide c = true) : 128 ≤ c.toNat := by
  obtain ⟨range, member, inside⟩ := List.any_eq_true.mp wide
  rw [Bool.and_eq_true, decide_eq_true_eq, decide_eq_true_eq] at inside
  exact ((by decide : ∀ range ∈ wideRanges, 128 ≤ range.1) range member).trans inside.1

/-- Beyond ASCII the literal characters are those in the ranges beyond ASCII. -/
theorem isLiteralChar_of_le {c : Char} (beyond : 128 ≤ c.toNat) :
    isLiteralChar c = isWide c := by
  have ranges : literalRanges = literalRanges.take 10 ++ wideRanges := rfl
  rw [isLiteralChar, ranges, List.any_append, isWide, Bool.or_eq_right_iff_imp]
  intro plain
  obtain ⟨range, member, inside⟩ := List.any_eq_true.mp plain
  rw [Bool.and_eq_true, decide_eq_true_eq, decide_eq_true_eq] at inside
  have small := (by decide : ∀ range ∈ literalRanges.take 10, range.2 < 128) range member
  omega

/-- **Literal characters** are the unreserved and the reserved characters except the apostrophe, and
those beyond ASCII. -/
theorem isLiteralChar_iff {c : Char} :
    isLiteralChar c = true ↔
      (isUnreserved c = true ∨ isReserved c = true ∨ isWide c = true) ∧ c ≠ '\x27' := by
  rw [← or_assoc]
  -- Below 128 the classes were compared code by code; from there on only ranges are left.
  by_cases ascii : c.toNat < 128
  · have same := isLiteralChar_ascii c.toNat ascii
    rw [Char.ofNat_toNat] at same
    have narrow : ¬isWide c = true := fun wide => absurd (le_toNat_of_isWide wide) (by omega)
    rw [same, Bool.and_eq_true, Bool.or_eq_true, bne_iff_ne, or_iff_left narrow]
  · have notKept := mt toNat_lt_of_kept ascii
    have notApostrophe : c ≠ '\x27' := by
      rintro rfl
      exact ascii (by decide)
    rw [isLiteralChar_of_le (Nat.not_lt.mp ascii), or_iff_right notKept, and_iff_left notApostrophe]

namespace IsUri

/-- Two such texts are one when they are put together. -/
theorem append {first second : Text} (written : IsUri first) (writtenNext : IsUri second) :
    IsUri (first ++ second) := by
  induction written with
  | nil => exact writtenNext
  | char allowed _ ih => exact .char allowed ih
  | triplet highDigit lowDigit _ ih => exact .triplet highDigit lowDigit ih

/-- Such texts are one when they are written one after the other. -/
theorem flatten {texts : List Text} (each : ∀ text ∈ texts, IsUri text) : IsUri texts.flatten := by
  induction texts with
  | nil => exact .nil
  | cons text texts ih =>
    obtain ⟨here, later⟩ := List.forall_mem_cons.mp each
    exact here.append (ih later)

end IsUri

/-- Literal text is text of a URI. -/
theorem isUri_of_isLiteral {text : Text} (literal : isLiteral text = true) : IsUri text := by
  fun_induction isLiteral text with
  | case1 => exact .nil
  | case2 high low rest ih =>
    rw [Bool.and_eq_true, Bool.and_eq_true] at literal
    exact .triplet literal.1.1 literal.1.2 (ih literal.2)
  | case3 c rest apart ih =>
    rw [Bool.and_eq_true] at literal
    exact .char (isLiteralChar_iff.mp literal.1).1 (ih literal.2)

namespace IsUri

/-- No text of a URI holds a character that is neither allowed nor a percent sign. -/
theorem notMem {text : Text} (written : IsUri text) {c : Char} (percent : c ≠ '%')
    (refused : ¬(isUnreserved c = true ∨ isReserved c = true ∨ isWide c = true)) : c ∉ text := by
  have notDigit : ∀ {digit : Char}, isHexDigit digit = true → c ≠ digit := by
    rintro digit known rfl
    exact refused (.inl (Percent.isUnreserved_of_isHexDigit known))
  induction written with
  | nil => exact List.not_mem_nil
  | char allowed more ih =>
    rw [List.mem_cons, not_or]
    refine ⟨?_, ih⟩
    rintro rfl
    exact refused allowed
  | triplet highDigit lowDigit more ih =>
    simp only [List.mem_cons, not_or]
    exact ⟨percent, notDigit highDigit, notDigit lowDigit, ih⟩

/-- **Text of a URI is literal** just if it has no apostrophe. -/
theorem isLiteral_iff {text : Text} (written : IsUri text) :
    isLiteral text = true ↔ '\x27' ∉ text := by
  have notDigit : ∀ {digit : Char}, isHexDigit digit = true → '\x27' ≠ digit := by
    rintro digit known rfl
    exact absurd known (by decide)
  induction written with
  | nil => exact iff_of_true rfl List.not_mem_nil
  | @char c rest allowed more ih =>
    have noTriplet : ∀ high low more, c = '%' → rest = high :: low :: more → False := by
      rintro high low more rfl -
      exact absurd allowed (by decide)
    rw [isLiteral.eq_3 c rest noTriplet, Bool.and_eq_true, isLiteralChar_iff, and_iff_right allowed,
      List.mem_cons, not_or, ne_comm]
    exact and_congr_right' ih
  | triplet highDigit lowDigit more ih =>
    rw [isLiteral, highDigit, lowDigit, Bool.true_and, Bool.true_and]
    refine ih.trans ?_
    simp only [List.mem_cons, not_or]
    rw [and_iff_right (by decide), and_iff_right (notDigit highDigit),
      and_iff_right (notDigit lowDigit)]

/-- Texts with a character that is allowed between them. -/
theorem joined {separator : Char}
    (allowed : isUnreserved separator = true ∨ isReserved separator = true)
    {fields : List Text} (each : ∀ field ∈ fields, IsUri field) :
    IsUri (Text.joined separator fields) := by
  cases fields with
  | nil => exact .nil
  | cons field fields =>
    obtain ⟨here, later⟩ := List.forall_mem_cons.mp each
    rw [joined_cons_eq]
    refine here.append (.flatten fun text member => ?_)
    obtain ⟨next, found, rfl⟩ := List.mem_map.mp member
    exact .char (allowed.imp_right .inl) (later next found)

end IsUri

end Text

open Text (IsUri)

/-- What is written with triplets is text of a URI. -/
theorem Percent.Written.isUri {allowReserved : Bool} {text : Text}
    (written : Written allowReserved text) : IsUri text := by
  induction written with
  | nil => exact .nil
  | kept known _ ih =>
    rw [isKept, Bool.or_eq_true, Bool.and_eq_true] at known
    exact .char (known.imp_right fun reserved => .inl reserved.2) ih
  | triplet high low _ ih => exact .triplet high low ih

namespace Operator

variable (operator : Operator)

/-- An encoded text can stand in a URI. -/
theorem isUri_encode (text : Text) : IsUri (operator.encode text) :=
  (Percent.written_encode text).isUri

/-- Every separator is an unreserved or a reserved character. -/
theorem separator_allowed :
    Text.isUnreserved operator.separator = true ∨ Text.isReserved operator.separator = true := by
  cases operator <;> decide

theorem isUri_withName {name text : Text} (named : IsUri name) (written : IsUri text) :
    IsUri (operator.withName name text) := by
  rw [withName]
  split_ifs
  · refine named.append ?_
    cases operator with
    | query => exact .char (by decide) .nil
    | continuation => exact .char (by decide) .nil
    | _ => exact .nil
  · exact named.append (.char (by decide) written)
  · exact written

theorem isUri_entryContribution {key item : Text} (keyed : IsUri key) (written : IsUri item) :
    IsUri (operator.entryContribution key item) := by
  rw [entryContribution]
  split_ifs
  · exact operator.isUri_withName keyed written
  · exact keyed.append (.char (by decide) written)

theorem isUri_listContribution (v : Variable) (items : List Text) :
    IsUri (operator.listContribution v items) := by
  have named := (v.written_name false).isUri
  rw [listContribution]
  split_ifs
  · refine .joined operator.separator_allowed ?_
    simp only [List.forall_mem_map]
    exact fun item _ => operator.isUri_withName named (operator.isUri_encode item)
  · refine operator.isUri_withName named (.joined (by decide) ?_)
    simp only [List.forall_mem_map]
    exact fun item _ => operator.isUri_encode item

theorem isUri_mapContribution (v : Variable) (entries : List (Text × Text)) :
    IsUri (operator.mapContribution v entries) := by
  rw [mapContribution]
  split_ifs
  · refine .joined operator.separator_allowed ?_
    simp only [List.forall_mem_map]
    exact fun entry _ => operator.isUri_entryContribution (operator.isUri_encode entry.1)
      (operator.isUri_encode entry.2)
  · refine operator.isUri_withName (v.written_name false).isUri (.joined (by decide) ?_)
    simp only [List.forall_mem_map]
    exact fun entry _ => (operator.isUri_encode entry.1).append
      (.char (by decide) (operator.isUri_encode entry.2))

/-- What a variable contributes is text of a URI. -/
theorem isUri_contribution {v : Variable} {value : Value} {text : Text}
    (accepted : operator.contribution v value = .ok (some text)) : IsUri text := by
  cases value with
  | undefined => cases accepted
  | text original =>
    cases accepted
    exact operator.isUri_withName (v.written_name false).isUri (operator.isUri_encode _)
  | list items =>
    simp only [contribution] at accepted
    split_ifs at accepted
    · cases accepted
    · cases accepted
      exact operator.isUri_listContribution v items
  | map entries =>
    simp only [contribution] at accepted
    split_ifs at accepted
    · cases accepted
    · cases accepted
      exact operator.isUri_mapContribution v entries.entries

/-- An expression is a text of a URI if all its contributions are. -/
theorem isUri_assemble {contributions : List Text} (each : ∀ text ∈ contributions, IsUri text) :
    IsUri (operator.assemble contributions) := by
  rw [assemble]
  split_ifs
  · exact .nil
  · refine IsUri.append ?_ (.joined operator.separator_allowed each)
    cases operator with
    | simple => exact .nil
    | reserved => exact .nil
    | _ => exact .char (by decide) .nil

end Operator

/-- What an expression expands to is text of a URI. -/
theorem Expression.isUri_expand {expression : Expression} {environment : Environment} {text : Text}
    (expanded : expression.expand environment = .ok text) : IsUri text := by
  obtain ⟨contributions, accepted, rfl⟩ := expand_eq_ok_iff.mp expanded
  refine expression.operator.isUri_assemble fun text member => ?_
  obtain ⟨_, contributed, rfl⟩ := List.mem_filterMap.mp member
  obtain ⟨v, same⟩ := exists_of_mem_mapM accepted _ contributed
  exact expression.operator.isUri_contribution same

/-- What a template expands to is text of a URI. -/
theorem Template.isUri_expand {template : Template} {environment : Environment} {text : Text}
    (expanded : template.expand environment = .ok text) : IsUri text := by
  obtain ⟨texts, accepted, rfl⟩ := expand_eq_ok_iff.mp expanded
  refine IsUri.flatten fun text member => ?_
  obtain ⟨part, same⟩ := exists_of_mem_mapM accepted text member
  cases part with
  | literal part =>
    cases same
    exact Text.isUri_of_isLiteral part.valid
  | expression part => exact part.isUri_expand same

/-- A text without braces is a single gap, if it is not empty. -/
theorem Segment.scan_of_notMem {text : Text} (noBrace : '\x7b' ∉ text) (nonempty : text ≠ []) :
    scan text = [.gap text] := by
  have scanned := scan_append noBrace []
  rwa [List.append_nil, scan.eq_1, withText_of_startsGap nonempty rfl] at scanned

namespace Template

variable {text : Text} {template : Template}

/-- A text without braces is read as a single literal part, if it is not empty. -/
theorem parse_eq_ok_iff_of_notMem (noBrace : '\x7b' ∉ text) :
    parse text = .ok template ↔ text = [] ∧ template.parts = [] ∨
      text ≠ [] ∧ ∃ literal : Literal, literal.text = text ∧
        template.parts = [.literal literal] := by
  rw [parse_eq_ok_iff_scan]
  by_cases empty : text = []
  · rw [empty, Segment.scan.eq_1]
    simp [eq_comm]
  · rw [Segment.scan_of_notMem noBrace empty]
    simp only [empty, false_and, false_or, ne_eq, not_false_iff, true_and]
    constructor
    · intro scanned
      obtain ⟨part, parts, same⟩ := List.map_eq_singleton_iff.mp scanned.symm
      cases part with
      | literal literal => exact ⟨literal, Segment.gap.inj same, parts⟩
      | expression part => cases same
    · rintro ⟨literal, rfl, parts⟩
      rw [parts]
      rfl

/-- A text without braces is a template just if it is literal. -/
theorem exists_parse_iff (noBrace : '\x7b' ∉ text) :
    (∃ template, parse text = .ok template) ↔ Text.isLiteral text = true := by
  constructor
  · rintro ⟨template, read⟩
    obtain ⟨rfl, -⟩ | ⟨-, literal, rfl, -⟩ := (parse_eq_ok_iff_of_notMem noBrace).mp read
    · rfl
    · exact literal.valid
  · intro literal
    by_cases empty : text = []
    · exact ⟨⟨[]⟩, (parse_eq_ok_iff_of_notMem noBrace).mpr (.inl ⟨empty, rfl⟩)⟩
    · exact ⟨⟨[.literal ⟨text, literal⟩]⟩, (parse_eq_ok_iff_of_notMem noBrace).mpr
        (.inr ⟨empty, _, rfl, rfl⟩)⟩

/-- Such a template has no variables and always expands to the text. -/
theorem fixed_of_parse (noBrace : '\x7b' ∉ text) (read : parse text = .ok template) :
    template.variableNames = [] ∧ ∀ environment, template.expand environment = .ok text := by
  obtain ⟨parts⟩ := template
  obtain ⟨rfl, rfl⟩ | ⟨-, literal, rfl, rfl⟩ := (parse_eq_ok_iff_of_notMem noBrace).mp read
  · exact ⟨rfl, fun environment => rfl⟩
  · refine ⟨rfl, fun environment => expand_eq_ok_iff.mpr ⟨[literal.text], rfl, ?_⟩⟩
    rw [List.flatten_singleton]

/-- **Expansions are text of a URI.** Whatever a template expands to is made of unreserved and
reserved characters, triplets, and the characters beyond ASCII that literal text may hold. It is a
template itself just if it has no apostrophe, and then one without variables that always expands to
itself. -/
theorem isUri_expansion {environment : Environment} {expansion : Text}
    (expanded : template.expand environment = .ok expansion) :
    IsUri expansion ∧
      ((∃ parsed, parse expansion = .ok parsed) ↔ '\x27' ∉ expansion) ∧
      ∀ parsed, parse expansion = .ok parsed →
        parsed.variableNames = [] ∧ ∀ others, parsed.expand others = .ok expansion := by
  have written := isUri_expand expanded
  have noBrace : '\x7b' ∉ expansion := written.notMem (by decide) (by decide)
  refine ⟨written, ?_, fun parsed => fixed_of_parse noBrace⟩
  rw [exists_parse_iff noBrace, written.isLiteral_iff]

/-- A space is encoded and so the expansion is a template; an apostrophe that is let through is not
allowed in one. -/
theorem isUri_expansion_apostrophe :
    let template : Template := ⟨[.literal ⟨['é', '/'], rfl⟩,
      .expression ⟨.reserved, [⟨['x'], .plain, rfl, rfl⟩], by simp⟩]⟩
    (∃ parsed, template.expand ⟨[(['x'], .text ['a', ' '])], by decide⟩ =
          .ok ['é', '/', 'a', '%', '2', '0'] ∧
        parse ['é', '/', 'a', '%', '2', '0'] = .ok parsed ∧ parsed.variableNames = []) ∧
      template.expand ⟨[(['x'], .text ['a', '\x27'])], by decide⟩ = .ok ['é', '/', 'a', '\x27'] ∧
        ∀ parsed, parse ['é', '/', 'a', '\x27'] ≠ .ok parsed := by
  intro template
  have expanded : template.expand ⟨[(['x'], .text ['a', ' '])], by decide⟩ =
      .ok ['é', '/', 'a', '%', '2', '0'] := by decide +kernel
  have kept : template.expand ⟨[(['x'], .text ['a', '\x27'])], by decide⟩ =
      .ok ['é', '/', 'a', '\x27'] := by decide +kernel
  obtain ⟨-, accepted, fixed⟩ := isUri_expansion expanded
  obtain ⟨-, refused, -⟩ := isUri_expansion kept
  obtain ⟨parsed, read⟩ := accepted.mpr (by decide)
  refine ⟨⟨parsed, expanded, read, (fixed parsed read).1⟩, kept, fun other readOther => ?_⟩
  exact refused.mp ⟨other, readOther⟩ (by decide)

end Template

end UriTemplates
