import UriTemplates.Proofs.Grammar.Printing

/-!
# Where the faults of a template are

Literal text is measured token by token, and what is measured is the longest literal text that a
text starts with (`Text.isLiteralUpTo_iff`), so the character at the offset of a fault is always
there. In a template only a gap can be malformed, and the first one that is no literal text is the
one that is reported (`Part.ofSegments_eq_malformed_iff`): by its first brace, if it has one, and
otherwise by where it starts (`Template.malformed_offsets`).
-/

namespace UriTemplates

namespace Text

/-- Whether a text is literal up to an offset, and no longer: there is a character at the offset,
and the literal texts that the text starts with reach no further. -/
structure IsLiteralUpTo (text : Text) (offset : Nat) : Prop where
  /-- There is a character at the offset. -/
  inside : offset < text.length
  /-- What stands before it is literal text. -/
  literal : isLiteral (text.take offset) = true
  /-- No literal text reaches further. -/
  longest : ∀ front, front <+: text → isLiteral front = true → front.length ≤ offset

/-- A first character that may be literal does not decide whether a text is. -/
theorem isLiteral_cons {c : Char} (literal : isLiteralChar c = true) (rest : Text) :
    isLiteral (c :: rest) = isLiteral rest := by
  have apart : c ≠ '%' := by
    rintro rfl
    exact absurd literal (by decide)
  rw [isLiteral.eq_3 _ _ (by simp [apart]), literal, Bool.true_and]

/-- A first character that may be literal makes the literal beginning one character longer. -/
theorem literalRun_cons {c : Char} (literal : isLiteralChar c = true) (rest : Text) :
    literalRun (c :: rest) = literalRun rest + 1 := by
  have apart : c ≠ '%' := by
    rintro rfl
    exact absurd literal (by decide)
  rw [literalRun.eq_3 _ _ (by simp [apart]), if_pos literal]

/-- What is measured is literal text. -/
theorem isLiteral_take_literalRun (text : Text) :
    isLiteral (text.take (literalRun text)) = true := by
  fun_induction literalRun text with
  | case1 => rfl
  | case2 high low rest digits ih => simpa [isLiteral, digits] using ih
  | case3 high low rest noDigits => rfl
  | case4 c rest apart literal ih => rwa [List.take_succ_cons, isLiteral_cons literal]
  | case5 c rest apart other => rfl

/-- No longer literal text starts a text than the one that is measured. -/
theorem length_le_literalRun {front : Text} (literal : isLiteral front = true) (rest : Text) :
    front.length ≤ literalRun (front ++ rest) := by
  fun_induction isLiteral front with
  | case1 => exact Nat.zero_le _
  | case2 high low front ih =>
    simp only [Bool.and_eq_true] at literal
    have further := ih literal.2
    simpa [literalRun, literal.1] using further
  | case3 c front apart ih =>
    rw [Bool.and_eq_true] at literal
    have further := ih literal.2
    rw [List.cons_append, literalRun_cons literal.1, List.length_cons]
    exact Nat.succ_le_succ further

theorem literalRun_le_length (text : Text) : literalRun text ≤ text.length := by
  fun_induction literalRun text <;> simp_all

/-- **Texts that are not literal are measured up to where they stop being so.** -/
theorem isLiteralUpTo_iff {text : Text} {offset : Nat} :
    text.IsLiteralUpTo offset ↔ isLiteral text = false ∧ offset = literalRun text := by
  constructor
  · rintro ⟨inside, literal, longest⟩
    have most := longest _ (List.take_prefix _ text) (isLiteral_take_literalRun text)
    rw [List.length_take_of_le (literalRun_le_length text)] at most
    have least := length_le_literalRun literal (text.drop offset)
    rw [List.take_append_drop, List.length_take_of_le inside.le] at least
    refine ⟨Bool.eq_false_iff.mpr fun whole => ?_, Nat.le_antisymm least most⟩
    exact absurd (longest text List.prefix_rfl whole) (Nat.not_le.mpr inside)
  · rintro ⟨other, rfl⟩
    refine ⟨Nat.lt_of_le_of_ne (literalRun_le_length text) fun whole => ?_,
      isLiteral_take_literalRun text, ?_⟩
    · have literal := isLiteral_take_literalRun text
      rw [whole, List.take_length, other] at literal
      cases literal
    · rintro front ⟨rest, rfl⟩ literal
      exact length_le_literalRun literal rest

end Text

/-- A text is refused as a literal with the offset up to which it is literal. -/
theorem Literal.ofText_eq_error_iff {text : Text} {cause : Malformation} :
    ofText text = .error cause ↔
      ∃ offset, text.IsLiteralUpTo offset ∧ cause = .invalidLiteral text offset := by
  simp only [Text.isLiteralUpTo_iff]
  by_cases valid : Text.isLiteral text = true
  · simp [ofText, valid]
  · simp [ofText, valid, eq_comm]

/-- What is reported of a gap that is no literal text: its first brace, or else where it starts and
where it stops being literal. -/
inductive Malformation.IsOfGap (template : Text) (start : Nat) (gap : Text) : Malformation → Prop
  /-- The first brace. -/
  | brace {front back : Text} {c : Char} (split : gap = front ++ c :: back)
      (isBrace : Segment.isBrace c = true) (first : ∀ d ∈ front, Segment.isBrace d = false) :
      IsOfGap template start gap (.strayBrace template (start + front.length))
  /-- The start. -/
  | start {offset : Nat} (noBrace : ∀ c ∈ gap, Segment.isBrace c = false)
      (upTo : gap.IsLiteralUpTo offset) :
      IsOfGap template start gap (.invalidLiteralAt template start gap offset)

/-- The first brace of a text is found where the text is cut at it. -/
theorem Segment.findIdx?_isBrace {front back : Text} {c : Char} (brace : isBrace c = true)
    (first : ∀ d ∈ front, isBrace d = false) :
    (front ++ c :: back).findIdx? isBrace = some front.length := by
  rw [List.findIdx?_append, List.findIdx?_eq_none_iff.mpr first, List.findIdx?_cons]
  simp [brace]

/-- A text without braces, or cut at its first one. -/
theorem Segment.exists_first_brace (gap : Text) :
    (∀ c ∈ gap, isBrace c = false) ∨ ∃ front c back, gap = front ++ c :: back ∧
      isBrace c = true ∧ ∀ d ∈ front, isBrace d = false := by
  induction gap with
  | nil => exact .inl (by simp)
  | cons c gap ih =>
    cases here : isBrace c with
    | true => exact .inr ⟨[], c, gap, rfl, here, by simp⟩
    | false =>
      rcases ih with none | ⟨front, d, back, rfl, brace, first⟩
      · exact .inl (List.forall_mem_cons.mpr ⟨here, none⟩)
      · exact .inr ⟨c :: front, d, back, rfl, brace, List.forall_mem_cons.mpr ⟨here, first⟩⟩

/-- A gap is refused if it is no literal text. -/
theorem Literal.ofGap_eq_error_iff {template gap : Text} {start : Nat} {error : Error} :
    ofGap template start gap = .error error ↔ Text.isLiteral gap = false ∧
      ∃ cause, Malformation.IsOfGap template start gap cause ∧ error = .malformed cause := by
  by_cases valid : Text.isLiteral gap = true
  · simp [ofGap, ofText, valid]
  · have other := Bool.eq_false_iff.mpr valid
    have measured : ∀ {offset}, gap.IsLiteralUpTo offset ↔ offset = Text.literalRun gap :=
      Text.isLiteralUpTo_iff.trans (and_iff_right other)
    rcases Segment.exists_first_brace gap with noBrace | ⟨front, c, back, rfl, brace, first⟩
    · have refused : ofGap template start gap =
          .error (.malformed (.invalidLiteralAt template start gap (Text.literalRun gap))) := by
        simp only [ofGap, ofText, dif_neg valid, List.findIdx?_eq_none_iff.mpr noBrace]
      rw [refused, and_iff_right other, Except.error.injEq]
      constructor
      · rintro rfl
        exact ⟨_, .start noBrace (measured.mpr rfl), rfl⟩
      · rintro ⟨_, @⟨_, _, c, rfl, brace, _⟩ | ⟨_, upTo⟩, rfl⟩
        · rw [noBrace c (by simp)] at brace
          cases brace
        · rw [measured.mp upTo]
    · have refused : ofGap template start (front ++ c :: back) =
          .error (.malformed (.strayBrace template (start + front.length))) := by
        simp only [ofGap, ofText, dif_neg valid, Segment.findIdx?_isBrace brace first]
      rw [refused, and_iff_right other, Except.error.injEq]
      constructor
      · rintro rfl
        exact ⟨_, .brace rfl brace first, rfl⟩
      · rintro ⟨_, ⟨split, braceOther, firstOther⟩ | ⟨noBrace, _⟩, rfl⟩
        · have same := congrArg (List.findIdx? Segment.isBrace) split
          rw [Segment.findIdx?_isBrace brace first,
            Segment.findIdx?_isBrace braceOther firstOther] at same
          rw [Option.some.inj same]
        · rw [noBrace c (by simp)] at brace
          cases brace

/-- Whether a segment is a part of a template: literal text, or an expression whose operator is not
set aside. -/
def Segment.isAccepted : Segment → Bool
  | gap text => Text.isLiteral text
  | expression operator _ => !operator.any Operator.isSetAside

namespace Part

variable {template : Text} {start : Nat} {cause : Malformation}

/-- What a part is written as is accepted. -/
theorem isAccepted_segment (part : Part) : part.segment.isAccepted = true := by
  cases part with
  | literal part => exact part.valid
  | expression part =>
    obtain ⟨operator, occurrences, nonempty⟩ := part
    cases operator <;> rfl

/-- A gap is refused if it is no literal text, for a reason that its text gives. -/
theorem ofSegment_gap_eq_error_iff {gap : Text} {error : Error} :
    ofSegment template start (.gap gap) = .error error ↔ Text.isLiteral gap = false ∧
      ∃ cause, Malformation.IsOfGap template start gap cause ∧ error = .malformed cause := by
  rw [← Literal.ofGap_eq_error_iff, ofSegment]
  cases Literal.ofGap template start gap <;> simp [Except.map]

/-- Segments are refused because of the first one, or because of a later one if the first is a part.
-/
theorem ofSegments_cons_eq_error_iff {segment : Segment} {later : List Segment} {error : Error} :
    ofSegments template start (segment :: later) = .error error ↔
      ofSegment template start segment = .error error ∨
        ∃ part, ofSegment template start segment = .ok part ∧
          ofSegments template (start + segment.text.length) later = .error error := by
  rw [ofSegments, bind_eq_error_iff]
  simp only [bind_eq_error_iff, pure, Except.pure, reduceCtorEq, and_false, exists_false, or_false]

/-- Whether segments that start at an offset are malformed for a cause: the first one that is no
part of a template is a gap, and this is reported of it. -/
def AreMalformed (template : Text) (start : Nat) (segments : List Segment)
    (cause : Malformation) : Prop :=
  ∃ before gap after, segments = before ++ Segment.gap gap :: after ∧
    (∀ segment ∈ before, segment.isAccepted = true) ∧ Text.isLiteral gap = false ∧
      Malformation.IsOfGap template (start + (before.flatMap Segment.text).length) gap cause

/-- Segments are malformed if the first one is a gap that is no literal text, or if it is accepted
and the later ones are malformed. -/
theorem areMalformed_cons_iff {segment : Segment} {later : List Segment} :
    AreMalformed template start (segment :: later) cause ↔
      (∃ gap, segment = .gap gap ∧ Text.isLiteral gap = false ∧
        Malformation.IsOfGap template start gap cause) ∨
      segment.isAccepted = true ∧
        AreMalformed template (start + segment.text.length) later cause := by
  constructor
  · rintro ⟨_ | ⟨first, before⟩, gap, after, split, accepted, other, reported⟩
    · cases split
      exact .inl ⟨gap, rfl, other, reported⟩
    · cases split
      obtain ⟨here, others⟩ := List.forall_mem_cons.mp accepted
      rw [List.flatMap_cons, List.length_append, ← Nat.add_assoc] at reported
      exact .inr ⟨here, before, gap, after, rfl, others, other, reported⟩
  · rintro (⟨gap, rfl, other, reported⟩ | ⟨here, before, gap, after, rfl, others, other, reported⟩)
    · exact ⟨[], gap, later, rfl, by simp, other, reported⟩
    · refine ⟨segment :: before, gap, after, rfl, List.forall_mem_cons.mpr ⟨here, others⟩,
        other, ?_⟩
      rwa [List.flatMap_cons, List.length_append, ← Nat.add_assoc]

/-- **Only gaps are malformed**, and the first segment that is no part of a template decides. -/
theorem ofSegments_eq_malformed_iff {segments : List Segment}
    (separated : Segment.IsSeparated segments) :
    ofSegments template start segments = .error (.malformed cause) ↔
      AreMalformed template start segments cause := by
  -- A part leaves the cause to what follows it, on both sides.
  have ofPart : ∀ {later : List Segment} (part : Part) (start : Nat),
      (ofSegments template (start + part.segment.text.length) later = .error (.malformed cause) ↔
        AreMalformed template (start + part.segment.text.length) later cause) →
      (ofSegments template start (part.segment :: later) = .error (.malformed cause) ↔
        AreMalformed template start (part.segment :: later) cause) := by
    intro later part start more
    have noFault : ¬ ∃ gap, part.segment = .gap gap ∧ Text.isLiteral gap = false ∧
        Malformation.IsOfGap template start gap cause := by
      rintro ⟨gap, same, other, -⟩
      have accepted := part.isAccepted_segment
      rw [same, Segment.isAccepted, other] at accepted
      cases accepted
    rw [ofSegments_cons_eq_error_iff, areMalformed_cons_iff, ofSegment_segment, ← more]
    simp [noFault, part.isAccepted_segment]
  induction separated generalizing start with
  | nil => simp [ofSegments, AreMalformed]
  | @expression segment later written more ih =>
    rcases exists_segment_eq_or_isSetAside written with ⟨part, rfl⟩ | ⟨operator, _, aside, rfl⟩
    · exact ofPart (expression part) start ih
    · rw [ofSegments_cons_eq_error_iff, areMalformed_cons_iff, ofSegment_of_isSetAside aside]
      simp [Segment.isAccepted, aside]
  | @gap text later nonempty apart more ih =>
    by_cases valid : Text.isLiteral text = true
    · exact ofPart (literal ⟨text, valid⟩) start ih
    · have other := Bool.eq_false_iff.mpr valid
      obtain ⟨refusal, refused⟩ := exists_ofSegment_gap_eq_error valid template start
      rw [ofSegments_cons_eq_error_iff, areMalformed_cons_iff, ofSegment_gap_eq_error_iff, refused]
      simp [Segment.isAccepted, other]

end Part

/-- **Faults are reported where they are.** Literal text is refused at the end of the longest
literal text that it starts with, where there is a character. A template is malformed just if
some gap is no literal text and no expression before the first such gap has an operator that is
set aside; then the first brace of this gap is reported, or the beginning of the gap if it has no
brace. -/
theorem Template.malformed_offsets (text : Text) (cause : Malformation) :
    (Literal.ofText text = .error cause ↔
      ∃ offset, text.IsLiteralUpTo offset ∧ cause = .invalidLiteral text offset) ∧
    (parse text = .error (.malformed cause) ↔ ∃ before gap after,
      Segment.scan text = before ++ Segment.gap gap :: after ∧
        text = before.flatMap Segment.text ++ gap ++ after.flatMap Segment.text ∧
        (∀ segment ∈ before, segment.isAccepted = true) ∧ Text.isLiteral gap = false ∧
          Malformation.IsOfGap text (before.flatMap Segment.text).length gap cause) := by
  refine ⟨Literal.ofText_eq_error_iff, ?_⟩
  have read : parse text = .error (.malformed cause) ↔
      Part.ofSegments text 0 (Segment.scan text) = .error (.malformed cause) := by
    rw [parse]
    cases Part.ofSegments text 0 (Segment.scan text) <;> simp [Except.map]
  rw [read, Part.ofSegments_eq_malformed_iff (Segment.isSeparated_scan text), Part.AreMalformed]
  simp only [Nat.zero_add]
  constructor
  · rintro ⟨before, gap, after, scanned, first⟩
    have whole := Segment.text_scan text
    rw [scanned, List.flatMap_append, List.flatMap_cons, ← List.append_assoc] at whole
    exact ⟨before, gap, after, scanned, whole.symm, first⟩
  · rintro ⟨before, gap, after, scanned, -, first⟩
    exact ⟨before, gap, after, scanned, first⟩

end UriTemplates
