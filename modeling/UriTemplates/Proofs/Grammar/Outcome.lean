import UriTemplates.Proofs.Grammar.Printing

/-!
# How the reading of a template ends

The parts that a text starts with do not change how its reading ends, apart from offsets
(`Part.verdict_ofSegments_append`): a token joins the gap that follows it or makes a part of its
own. So the reading ends as it does for what follows the longest template that the text starts
with, where no token starts (`Part.verdict_ofSegments_of_isStuck`): it succeeds if nothing
follows, it names the operator if an expression follows whose operator is set aside, and it finds
the template malformed otherwise (`Template.parse_classifies`).
-/

namespace UriTemplates

/-- How a reading ends, without the details of what it gives or finds malformed. -/
inductive Verdict where
  /-- It succeeds. -/
  | accepted
  /-- It finds the text malformed. -/
  | malformed
  /-- It finds an operator that is set aside, in an expression at an offset. -/
  | reservedOperator (operator : Char) (expression : Text) (offset : Nat)
  /-- It fails in another way. -/
  | other
  deriving DecidableEq

namespace Verdict

variable {α : Type}

/-- How a reading ends. -/
def of : Except Error α → Verdict
  | .ok _ => accepted
  | .error (.malformed _) => malformed
  | .error (.reservedOperator operator expression offset) =>
    reservedOperator operator expression offset
  | .error _ => other

theorem of_eq_accepted_iff {reading : Except Error α} :
    of reading = accepted ↔ ∃ result, reading = .ok result := by
  unfold of
  split <;> simp

theorem of_eq_malformed_iff {reading : Except Error α} :
    of reading = malformed ↔ ∃ cause, reading = .error (.malformed cause) := by
  unfold of
  split <;> simp_all

/-- The verdict is a reserved operator just if it is reported, at this place. -/
theorem of_eq_reservedOperator_iff {reading : Except Error α} {operator : Char}
    {expression : Text} {offset : Nat} :
    of reading = reservedOperator operator expression offset ↔
      reading = .error (.reservedOperator operator expression offset) := by
  unfold of
  split <;> simp_all

/-- There is no other verdict if every error is a malformation or a reserved operator. -/
theorem of_ne_other_iff {reading : Except Error α} :
    of reading ≠ other ↔ ∀ error, reading = .error error →
      (∃ cause, error = .malformed cause) ∨ ∃ operator expression offset,
        error = .reservedOperator operator expression offset := by
  unfold of
  split <;> simp_all

/-- The verdict does not depend on what is made of the result. -/
theorem of_map {β : Type} (reading : Except Error α) (image : α → β) :
    of (reading.map image) = of reading := by
  rcases reading with error | result
  · cases error <;> rfl
  · rfl

end Verdict

namespace Text

/-- An expression with an operator is a part as it is printed. -/
theorem IsExpression.exists_part {operator : Operator} {text : Text}
    (written : IsExpression operator.symbol text) :
    ∃ part, text = (Part.expression part).segment.text := by
  obtain ⟨specifications, nonempty, each, rfl⟩ := written
  obtain ⟨occurrences, rfl⟩ := Variable.exists_eq_map_text each
  refine ⟨⟨operator, occurrences, by simpa using nonempty⟩, ?_⟩
  rw [Part.text_segment]
  rfl

/-- Expressions whose operator is set aside are segments. -/
theorem isExpression_iff_exists_segment {operator : Char}
    (aside : Operator.isSetAside operator = true) {text : Text} :
    IsExpression [operator] text ↔ ∃ specifications,
      (Segment.expression (some operator) specifications).IsExpression ∧
        text = (Segment.expression (some operator) specifications).text := by
  constructor
  · rintro ⟨specifications, nonempty, each, rfl⟩
    have known : Operator.isSymbol operator = true := by simp [Operator.isSymbol, aside]
    exact ⟨specifications, .intro (by simpa using known) nonempty each, rfl⟩
  · rintro ⟨specifications, ⟨-, nonempty, each⟩, rfl⟩
    exact ⟨specifications, nonempty, each, rfl⟩

theorem IsExpression.ne_nil {symbol text : Text} (written : IsExpression symbol text) :
    text ≠ [] := by
  obtain ⟨rest, rfl⟩ := written.exists_eq_cons
  exact List.cons_ne_nil _ _

/-- No two expressions whose operators are set aside start the same text. -/
theorem IsExpression.eq_of_isSetAside {operator other : Char} {first second text : Text}
    (written : IsExpression [operator] first) (aside : Operator.isSetAside operator = true)
    (asideOther : Operator.isSetAside other = true) (writtenOther : IsExpression [other] second)
    (starts : first <+: text) (startsOther : second <+: text) :
    operator = other ∧ first = second := by
  obtain ⟨rest, rfl⟩ := starts
  obtain ⟨more, same⟩ := startsOther
  have known : ∀ {c : Char}, Operator.isSetAside c = true →
      ∀ d ∈ [c], Operator.isSymbol d = true := by
    intro c aside d member
    rw [List.mem_singleton.mp member, Operator.isSymbol, aside, Bool.or_true]
  obtain ⟨rfl, -⟩ := written.eq_of_append (known aside) (known asideOther) writtenOther same.symm
  obtain ⟨specifications, -, -, rfl⟩ := written
  obtain ⟨others, -, -, alike⟩ := writtenOther
  refine ⟨?_, rfl⟩
  simp only [List.cons_append, List.nil_append, List.cons.injEq] at alike
  exact alike.2.1

end Text

namespace Part

variable {template : Text} {start : Nat}

/-- A segment that is read as a part leaves the verdict to what follows it. -/
theorem verdict_ofSegments_segment (part : Part) (later : List Segment) :
    Verdict.of (ofSegments template start (part.segment :: later)) =
      Verdict.of (ofSegments template (start + part.segment.text.length) later) := by
  rw [ofSegments, ofSegment_segment]
  exact Verdict.of_map _ (part :: ·)

/-- What is refused at the first segment is refused whatever follows. -/
theorem ofSegments_eq_error {segment : Segment} {error : Error}
    (refused : ofSegment template start segment = .error error) (later : List Segment) :
    ofSegments template start (segment :: later) = .error error := by
  rw [ofSegments, refused]
  rfl

/-- A gap leaves the verdict to what follows if it is literal text, and otherwise the text is
malformed. -/
theorem verdict_ofSegments_gap (text : Text) (later : List Segment) :
    Verdict.of (ofSegments template start (.gap text :: later)) =
      if Text.isLiteral text then
        Verdict.of (ofSegments template (start + text.length) later)
      else .malformed := by
  split
  · rename_i valid
    exact verdict_ofSegments_segment (.literal ⟨text, valid⟩) later
  · rename_i invalid
    obtain ⟨cause, refused⟩ := exists_ofSegment_gap_eq_error invalid template start
    rw [ofSegments_eq_error refused]
    rfl

/-- Literal text that every literal text can follow joins a gap without changing the verdict. -/
theorem verdict_ofSegments_withText {unit : Text} (nonempty : unit ≠ [])
    (whole : ∀ rest, Text.isLiteral (unit ++ rest) = Text.isLiteral rest)
    (segments : List Segment) :
    Verdict.of (ofSegments template start (Segment.withText unit segments)) =
      Verdict.of (ofSegments template (start + unit.length) segments) := by
  rcases apart : Segment.startsGap segments with _ | _
  · have valid : Text.isLiteral unit = true := by simpa [Text.isLiteral] using whole []
    rw [Segment.withText_of_startsGap nonempty apart, verdict_ofSegments_gap, if_pos valid]
  · obtain ⟨other, later, rfl⟩ : ∃ other later, segments = .gap other :: later := by
      unfold Segment.startsGap at apart
      split at apart
      · exact ⟨_, _, rfl⟩
      · cases apart
    rw [Segment.withText_gap, verdict_ofSegments_gap, verdict_ofSegments_gap, whole,
      List.length_append, Nat.add_assoc]

/-- A token leaves the verdict to what follows it. -/
theorem verdict_ofSegments_token {token : Text} (known : Text.IsToken token) (rest : Text) :
    Verdict.of (ofSegments template start (Segment.scan (token ++ rest))) =
      Verdict.of (ofSegments template (start + token.length) (Segment.scan rest)) := by
  cases known with
  | @char c literal =>
    have apart : '\x7b' ∉ [c] ∧ c ≠ '%' := by
      refine ⟨fun member => ?_, ?_⟩
      · rw [← List.mem_singleton.mp member] at literal
        exact absurd literal (by decide)
      · rintro rfl
        exact absurd literal (by decide)
    rw [Segment.scan_append apart.1]
    refine verdict_ofSegments_withText (List.cons_ne_nil _ _) (fun more => ?_) _
    rw [List.singleton_append, Text.isLiteral.eq_3 _ _ (by simp [apart.2]), literal, Bool.true_and]
  | @triplet high low highDigit lowDigit =>
    have apart : '\x7b' ∉ ['%', high, low] := Text.notMem_of_isLiteral (by
      simp [Text.isLiteral, highDigit, lowDigit])
    rw [Segment.scan_append apart]
    refine verdict_ofSegments_withText (List.cons_ne_nil _ _) (fun more => ?_) _
    simp [Text.isLiteral, highDigit, lowDigit]
  | expression operator written =>
    obtain ⟨part, rfl⟩ := written.exists_part
    rw [Segment.scan_text_append (isExpression_segment part), verdict_ofSegments_segment]

/-- **A template that a text starts with leaves the verdict to what follows it.** -/
theorem verdict_ofSegments_append {front : Text} (known : Text.IsTemplate front) (back : Text) :
    Verdict.of (ofSegments template start (Segment.scan (front ++ back))) =
      Verdict.of (ofSegments template (start + front.length) (Segment.scan back)) := by
  induction known generalizing start with
  | nil => rfl
  | @token token rest first more ih =>
    rw [List.append_assoc, verdict_ofSegments_token first, ih, List.length_append, Nat.add_assoc]


end Part

/-- Literal text that is not empty starts with a token. -/
theorem Text.IsStuck.isLiteral_eq_false {text front : Text} (stuck : IsStuck text)
    (nonempty : front ≠ []) (starts : front <+: text) : isLiteral front = false := by
  rw [Bool.eq_false_iff]
  intro literal
  obtain ⟨after, rfl⟩ := starts
  unfold isLiteral at literal
  split at literal
  · exact nonempty rfl
  · rename_i high low rest
    rw [Bool.and_eq_true, Bool.and_eq_true] at literal
    exact stuck _ (rest ++ after) (.triplet literal.1.1 literal.1.2) rfl
  · rename_i c rest _
    rw [Bool.and_eq_true] at literal
    exact stuck _ (rest ++ after) (.char literal.1) rfl

/-- Where no token starts and text is left, the reading stops: at an expression whose operator is
set aside, or else because the text is malformed. -/
theorem Part.verdict_ofSegments_of_isStuck (template : Text) (start : Nat) {back : Text}
    (stuck : Text.IsStuck back) (nonempty : back ≠ []) :
    (∃ operator expression, Operator.isSetAside operator = true ∧
        Text.IsExpression [operator] expression ∧ expression <+: back ∧
        Verdict.of (ofSegments template start (Segment.scan back)) =
          .reservedOperator operator expression start) ∨
      (∀ operator expression, Operator.isSetAside operator = true →
          Text.IsExpression [operator] expression → ¬expression <+: back) ∧
        Verdict.of (ofSegments template start (Segment.scan back)) = .malformed := by
  by_cases begins : ∃ segment after, Segment.IsExpression segment ∧ segment.text ++ after = back
  · obtain ⟨segment, after, written, rfl⟩ := begins
    rcases exists_segment_eq_or_isSetAside written with ⟨part, rfl⟩ | ⟨operator, _, aside, rfl⟩
    · have token : Text.IsToken (Part.expression part).segment.text := by
        rw [text_segment]
        refine .expression part.operator ⟨part.occurrences.map Variable.text,
          by simpa using part.nonempty, fun specification member => ?_, rfl⟩
        obtain ⟨v, -, rfl⟩ := List.mem_map.mp member
        exact Variable.exists_text_eq_iff.mp ⟨v, rfl⟩
      exact (stuck _ after token rfl).elim
    · refine .inl ⟨operator, _, aside,
        (Text.isExpression_iff_exists_segment aside).mpr ⟨_, written, rfl⟩,
        List.prefix_append _ _, ?_⟩
      rw [Segment.scan_text_append written, ofSegments_eq_error
        (ofSegment_of_isSetAside aside template start _)]
      rfl
  · simp only [not_exists, not_and] at begins
    refine .inr ⟨fun operator expression aside written ⟨after, same⟩ => ?_, ?_⟩
    · obtain ⟨_, known, rfl⟩ := (Text.isExpression_iff_exists_segment aside).mp written
      exact begins _ after known same
    · obtain ⟨c, rest, rfl⟩ := List.exists_cons_of_ne_nil nonempty
      obtain ⟨front, later, first, known⟩ : ∃ front later, front ≠ [] ∧
          Segment.scan (c :: rest) = .gap front :: later := by
        rw [Segment.scan_cons begins]
        unfold Segment.withChar
        split
        · exact ⟨_, _, List.cons_ne_nil _ _, rfl⟩
        · exact ⟨_, _, List.cons_ne_nil _ _, rfl⟩
      have starts : front <+: c :: rest := by
        have whole := Segment.text_scan (c :: rest)
        rw [known, List.flatMap_cons] at whole
        exact ⟨_, whole⟩
      rw [known, verdict_ofSegments_gap, stuck.isLiteral_eq_false first starts]
      rfl

/-- **The reading of a template classifies every text** by what follows the longest template that
the text starts with: nothing follows an accepted text, an expression whose operator is set aside
is named with its offset, and everything else is malformed. -/
theorem Template.parse_classifies (text : Text) : ∃ front back, text = front ++ back ∧
    Text.IsTemplate front ∧
    (∀ other, Text.IsTemplate other → other <+: text → other.length ≤ front.length) ∧
    ((∃ template, parse text = .ok template) ↔ back = []) ∧
    (∀ operator expression offset,
      parse text = .error (.reservedOperator operator expression offset) ↔
        Operator.isSetAside operator = true ∧ Text.IsExpression [operator] expression ∧
          expression <+: back ∧ offset = front.length) ∧
    ((∃ cause, parse text = .error (.malformed cause)) ↔
      back ≠ [] ∧ ∀ operator expression, Operator.isSetAside operator = true →
        Text.IsExpression [operator] expression → ¬expression <+: back) ∧
    ∀ error, parse text = .error error → (∃ cause, error = .malformed cause) ∨
      ∃ operator expression offset, error = .reservedOperator operator expression offset := by
  obtain ⟨front, back, rfl, template, stuck⟩ := Text.exists_longest_template text
  refine ⟨front, back, rfl, template, fun other known ⟨more, same⟩ =>
    template.length_le stuck known same, ?_⟩
  have verdict : Verdict.of (parse (front ++ back)) =
      Verdict.of (Part.ofSegments (front ++ back) front.length (Segment.scan back)) := by
    rw [parse, Verdict.of_map, Part.verdict_ofSegments_append template, Nat.zero_add]
  simp only [← Verdict.of_eq_accepted_iff, ← Verdict.of_eq_malformed_iff,
    ← Verdict.of_eq_reservedOperator_iff, ← Verdict.of_ne_other_iff, verdict]
  rcases eq_or_ne back [] with rfl | nonempty
  · have ended : Verdict.of (Part.ofSegments (front ++ []) front.length (Segment.scan [])) =
        .accepted := by
      rw [Segment.scan]
      rfl
    rw [ended]
    refine ⟨by simp, fun operator expression offset => iff_of_false (by simp) ?_, by simp, by simp⟩
    rintro ⟨-, written, starts, -⟩
    exact written.ne_nil (List.prefix_nil.mp starts)
  rcases Part.verdict_ofSegments_of_isStuck (front ++ back) front.length stuck nonempty with
    ⟨operator, expression, aside, written, starts, ended⟩ | ⟨none, ended⟩
  · rw [ended]
    refine ⟨by simp [nonempty], fun other otherText offset => ⟨?_, ?_⟩,
      iff_of_false (by simp) ?_, by simp⟩
    · rintro ⟨⟩
      exact ⟨aside, written, starts, rfl⟩
    · rintro ⟨otherAside, otherWritten, otherStarts, rfl⟩
      obtain ⟨rfl, rfl⟩ := written.eq_of_isSetAside aside otherAside otherWritten starts otherStarts
      rfl
    · rintro ⟨-, nowhere⟩
      exact nowhere operator expression aside written starts
  · rw [ended]
    refine ⟨by simp [nonempty], fun operator expression offset => iff_of_false (by simp) ?_,
      by simpa [nonempty] using none, by simp⟩
    rintro ⟨aside, written, starts, -⟩
    exact none operator expression aside written starts

end UriTemplates
