import UriTemplates.Proofs.Grammar.Scan
import UriTemplates.Proofs.Steps
import Mathlib.Data.List.Chain

/-!
# Reading and printing templates

Every part is written as one segment (`Part.segment`), and a segment that the scan finds is
accepted just where a part is written as it (`Part.ofSegment_eq_ok_iff`). What is scanned from
printed segments is those segments, if no two gaps among them can be confused
(`Segment.scan_flatMap_text`). So a text is read as a template just where the template is
written that way and its literal parts are kept apart (`Template.parse_eq_ok_iff`).
-/

namespace UriTemplates

/-- Literal text holds no opening brace. -/
theorem Text.notMem_of_isLiteral {text : Text} (literal : isLiteral text = true) :
    '\x7b' ∉ text := by
  have digit : ∀ {c : Char}, isHexDigit c = true → '\x7b' ≠ c := by
    rintro c known rfl
    exact absurd known (by decide)
  fun_induction isLiteral text with
  | case1 => exact List.not_mem_nil
  | case2 high low rest ih =>
    simp only [Bool.and_eq_true] at literal
    simp [digit literal.1.1, digit literal.1.2, ih literal.2]
  | case3 c rest apart ih =>
    rw [Bool.and_eq_true] at literal
    have other : '\x7b' ≠ c := by
      rintro rfl
      exact absurd literal.1 (by decide)
    simp [other, ih literal.2]

namespace Segment

/-- **Printed segments are scanned again**, if gaps are kept apart and hold no braces. -/
theorem scan_flatMap_text {segments : List Segment} (separated : IsSeparated segments)
    (noBrace : ∀ text, gap text ∈ segments → '\x7b' ∉ text) :
    scan (segments.flatMap text) = segments := by
  induction separated with
  | nil => exact scan.eq_1
  | expression written more ih =>
    rw [List.flatMap_cons, scan_text_append written,
      ih fun text member => noBrace text (List.mem_cons_of_mem _ member)]
  | gap nonempty apart more ih =>
    rw [List.flatMap_cons, text, scan_append (noBrace _ List.mem_cons_self),
      ih fun text member => noBrace text (List.mem_cons_of_mem _ member),
      withText_of_startsGap nonempty apart]

end Segment

theorem Operator.toList_head?_symbol (operator : Operator) :
    operator.symbol.head?.toList = operator.symbol := by
  cases operator <;> rfl

/-- Specifications are the printed forms of variables. -/
theorem Variable.exists_eq_map_text {specifications : List Text}
    (each : ∀ specification ∈ specifications, IsSpecification specification) :
    ∃ occurrences : List Variable, specifications = occurrences.map text := by
  induction specifications with
  | nil => exact ⟨[], rfl⟩
  | cons specification specifications ih =>
    obtain ⟨here, later⟩ := List.forall_mem_cons.mp each
    obtain ⟨v, rfl⟩ := exists_text_eq_iff.mpr here
    obtain ⟨occurrences, rfl⟩ := ih later
    exact ⟨v :: occurrences, rfl⟩

/-- Printed variables are read again. -/
theorem Variable.mapM_parse_text (occurrences : List Variable) :
    (occurrences.map text).mapM parse = .ok occurrences := by
  rw [mapM_eq_ok_iff, List.forall₂_map_left_iff, List.forall₂_same]
  exact fun v _ => parse_text v

namespace Part

/-- The segment that a part is written as. -/
def segment : Part → Segment
  | literal part => .gap part.text
  | expression part =>
    .expression part.operator.symbol.head? (part.occurrences.map Variable.text)

/-- The segment of a part has its text. -/
@[simp]
theorem text_segment (part : Part) : part.segment.text = part.text := by
  cases part with
  | literal part => rfl
  | expression part =>
    rw [segment, Segment.text, Operator.toList_head?_symbol]
    rfl

/-- The segment of an expression is one that an expression can be written as. -/
theorem isExpression_segment (part : Expression) : (expression part).segment.IsExpression := by
  refine .intro (fun c member => ?_) (by simpa using part.nonempty) fun specification member => ?_
  · exact Text.isSymbol_of_mem_symbol part.operator c (List.mem_of_head? member)
  · obtain ⟨v, -, rfl⟩ := List.mem_map.mp member
    exact Variable.exists_text_eq_iff.mp ⟨v, rfl⟩

/-- What a part is written as is read as that part. -/
theorem ofSegment_segment (template : Text) (start : Nat) (part : Part) :
    ofSegment template start part.segment = .ok part := by
  cases part with
  | literal part => simp [segment, ofSegment, Literal.ofGap, Literal.ofText, part.valid, Except.map]
  | expression part =>
    have known : Operator.ofText? part.operator.symbol = some part.operator :=
      Operator.ofText?_eq_some_iff.mpr rfl
    have accepted : Expression.ofSpecifications part.operator
        (part.occurrences.map Variable.text) = .ok part := by
      rw [Expression.ofSpecifications, Variable.mapM_parse_text]
      simp [bind, Except.bind, Expression.ofVariables, part.nonempty, Except.mapError]
    simp only [segment, ofSegment, Operator.toList_head?_symbol, known, accepted, Except.map]

/-- A well-formed expression is an expression of a template, unless its operator is set aside. -/
theorem exists_segment_eq_or_isSetAside {segment : Segment} (written : segment.IsExpression) :
    (∃ part, segment = (expression part).segment) ∨
      ∃ reserved specifications, Operator.isSetAside reserved = true ∧
        segment = .expression (some reserved) specifications := by
  obtain @⟨symbol, specifications, known, nonempty, each⟩ := written
  obtain ⟨occurrences, rfl⟩ := Variable.exists_eq_map_text each
  have some_variable : occurrences ≠ [] := by simpa using nonempty
  cases symbol with
  | none => exact .inl ⟨⟨.simple, occurrences, some_variable⟩, rfl⟩
  | some c =>
    have selects := known c rfl
    rw [Operator.isSymbol, Bool.or_eq_true, Option.isSome_iff_exists] at selects
    rcases selects with ⟨operator, found⟩ | aside
    · refine .inl ⟨⟨operator, occurrences, some_variable⟩, ?_⟩
      rw [segment, Operator.ofText?_eq_some_iff.mp found]
      rfl
    · exact .inr ⟨c, _, aside, rfl⟩

/-- An operator that is set aside is refused. -/
theorem ofSegment_of_isSetAside {reserved : Char} (aside : Operator.isSetAside reserved = true)
    (template : Text) (start : Nat) (specifications : List Text) :
    ofSegment template start (.expression (some reserved) specifications) =
      .error (.reservedOperator reserved
        (Segment.expression (some reserved) specifications).text start) := by
  have unknown : Operator.ofText? [reserved] = none := by
    simp only [Operator.isSetAside, List.contains_iff_mem, List.mem_cons, List.not_mem_nil,
      or_false] at aside
    rcases aside with rfl | rfl | rfl | rfl | rfl <;> rfl
  simp [ofSegment, unknown]

/-- A gap that is no literal text is refused. -/
theorem exists_ofSegment_gap_eq_error {text : Text} (invalid : ¬Text.isLiteral text = true)
    (template : Text) (start : Nat) :
    ∃ cause, ofSegment template start (.gap text) = .error (.malformed cause) := by
  simp only [ofSegment, Literal.ofGap, Literal.ofText, dif_neg invalid]
  split <;> exact ⟨_, rfl⟩

/-- **A segment is read as the part that is written as it**, and as no other. -/
theorem ofSegment_eq_ok_iff {template : Text} {start : Nat} {segment : Segment} {part : Part}
    (known : segment.IsExpression ∨ ∃ text, segment = .gap text) :
    ofSegment template start segment = .ok part ↔ segment = part.segment := by
  constructor
  · intro accepted
    rcases known with written | ⟨text, rfl⟩
    · rcases exists_segment_eq_or_isSetAside written with ⟨other, rfl⟩ | ⟨_, _, aside, rfl⟩
      · rw [ofSegment_segment] at accepted
        cases accepted
        rfl
      · rw [ofSegment_of_isSetAside aside] at accepted
        cases accepted
    · by_cases valid : Text.isLiteral text = true
      · rw [show Segment.gap text = (literal ⟨text, valid⟩).segment from rfl,
          ofSegment_segment] at accepted
        cases accepted
        rfl
      · obtain ⟨cause, refused⟩ := exists_ofSegment_gap_eq_error valid template start
        rw [refused] at accepted
        cases accepted
  · rintro rfl
    exact ofSegment_segment template start part

/-- Segments are read if the first one is read and then the later ones, further on in the text. -/
theorem ofSegments_cons_eq_ok_iff {template : Text} {start : Nat} {segment : Segment}
    {later : List Segment} {parts : List Part} :
    ofSegments template start (segment :: later) = .ok parts ↔
      ∃ part rest, ofSegment template start segment = .ok part ∧
        ofSegments template (start + segment.text.length) later = .ok rest ∧
          part :: rest = parts := by
  rw [ofSegments, bind_eq_ok_iff]
  simp only [bind_eq_ok_iff, return_eq_ok_iff, exists_and_left]

/-- Segments are read as the parts that are written as them. -/
theorem ofSegments_eq_ok_iff {template : Text} {start : Nat} {segments : List Segment}
    {parts : List Part} (separated : Segment.IsSeparated segments) :
    ofSegments template start segments = .ok parts ↔ segments = parts.map segment := by
  induction separated generalizing start parts with
  | nil => cases parts <;> simp [ofSegments]
  | expression written more ih =>
    rw [ofSegments_cons_eq_ok_iff]
    simp only [ih, ofSegment_eq_ok_iff (.inl written)]
    cases parts <;> simp
  | gap nonempty apart more ih =>
    rw [ofSegments_cons_eq_ok_iff]
    simp only [ih, ofSegment_eq_ok_iff (.inr ⟨_, rfl⟩)]
    cases parts <;> simp

end Part

namespace Template

/-- Templates in which literal text is not broken up: no literal part is empty, and one of two
adjacent parts is an expression. -/
structure IsNormal (template : Template) : Prop where
  /-- No literal part is empty. -/
  nonempty : ∀ literal, Part.literal literal ∈ template.parts → literal.text ≠ []
  /-- No two literal parts are adjacent. -/
  apart : template.parts.IsChain fun first second =>
    first.expression?.isSome ∨ second.expression?.isSome

/-- Literal parts are kept apart where the gaps that they are written as are. -/
theorem isSeparated_map_segment {parts : List Part} :
    Segment.IsSeparated (parts.map Part.segment) ↔ IsNormal ⟨parts⟩ := by
  induction parts with
  | nil => exact ⟨fun _ => ⟨nofun, .nil⟩, fun _ => .nil⟩
  | cons part parts ih =>
    cases part with
    | expression part =>
      constructor
      · intro separated
        cases separated with
        | expression _ more =>
          obtain ⟨nonempty, apart⟩ := ih.mp more
          refine ⟨by simpa using nonempty, List.isChain_cons.mpr ⟨fun _ _ => .inl rfl, apart⟩⟩
      · rintro ⟨nonempty, apart⟩
        exact .expression (Part.isExpression_segment part) (ih.mpr
          ⟨fun literal member => nonempty literal (List.mem_cons_of_mem _ member),
            (List.isChain_cons.mp apart).2⟩)
    | literal part =>
      have starts : Segment.startsGap (parts.map Part.segment) = false ↔
          ∀ second ∈ parts.head?, second.expression?.isSome := by
        cases parts with
        | nil => simp [Segment.startsGap]
        | cons second later =>
          cases second <;> simp [Segment.startsGap, Part.segment, Part.expression?]
      constructor
      · intro separated
        cases separated with
        | expression written _ => cases written
        | gap nonempty apart more =>
          obtain ⟨others, chain⟩ := ih.mp more
          refine ⟨fun literal member => ?_, List.isChain_cons.mpr
            ⟨fun second next => .inr (starts.mp apart second next), chain⟩⟩
          rcases List.mem_cons.mp member with same | member
          · cases same
            exact nonempty
          · exact others literal member
      · rintro ⟨nonempty, apart⟩
        obtain ⟨first, chain⟩ := List.isChain_cons.mp apart
        refine .gap (nonempty part List.mem_cons_self) (starts.mpr fun second next => ?_)
          (ih.mpr ⟨fun literal member => nonempty literal (List.mem_cons_of_mem _ member), chain⟩)
        simpa [Part.expression?] using first second next

/-- The text of a template is that of the segments of its parts. -/
theorem text_eq_flatMap_segment (template : Template) :
    template.text = (template.parts.map Part.segment).flatMap Segment.text := by
  simp [text, List.flatMap_map]

/-- A text is read as the template whose parts are written as its segments. -/
theorem parse_eq_ok_iff_scan {text : Text} {template : Template} :
    parse text = .ok template ↔ Segment.scan text = template.parts.map Part.segment := by
  rw [← Part.ofSegments_eq_ok_iff (Segment.isSeparated_scan text), parse]
  cases Part.ofSegments text 0 (Segment.scan text) with
  | error error => exact iff_of_false nofun nofun
  | ok parts =>
    cases template
    simp [Except.map]

/-- A template that is read from a text is written as it. -/
theorem text_of_parse {text : Text} {template : Template} (read : parse text = .ok template) :
    template.text = text := by
  rw [text_eq_flatMap_segment, ← parse_eq_ok_iff_scan.mp read, Segment.text_scan]

/-- **Reading and printing are mutually inverse.** A text is read as the template that is written
that way without empty or adjacent literal parts. -/
theorem parse_eq_ok_iff (text : Text) (template : Template) :
    parse text = .ok template ↔ template.text = text ∧ template.IsNormal := by
  constructor
  · intro read
    have scanned := parse_eq_ok_iff_scan.mp read
    exact ⟨text_of_parse read,
      isSeparated_map_segment.mp (scanned ▸ Segment.isSeparated_scan text)⟩
  · rintro ⟨rfl, normal⟩
    rw [parse_eq_ok_iff_scan, text_eq_flatMap_segment]
    refine Segment.scan_flatMap_text (isSeparated_map_segment.mpr normal) fun gap member => ?_
    obtain ⟨part, -, same⟩ := List.mem_map.mp member
    cases part with
    | literal part =>
      cases same
      exact Text.notMem_of_isLiteral part.valid
    | expression part => cases same

end Template

end UriTemplates
