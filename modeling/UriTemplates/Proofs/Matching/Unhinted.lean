import UriTemplates.Proofs.Expansion.Content
import UriTemplates.Proofs.Matching.Refusal
import UriTemplates.Proofs.Template.Items

/-!
# What hints leave of a pattern

Hints take forms away from a field, and they may take away the choice to leave it out. A field
without hints may have every content that it may have with them (`Field.Admits.unhinted`), so an
expression without hints reads everything that it reads with them, and captures the same
(`Expression.derives_unhinted`). Parts are read one after the other, so this holds of a template,
too: hints only narrow its pattern (`Template.pattern_unhinted`).
-/

namespace UriTemplates

open Readings (Derives)

namespace Field

/-- A field as it is without hints. -/
def unhinted (field : Field) : Field :=
  { field with forms := ({} : Hints).forms field.occurrence, isRequired := false }

/-- Without hints a field may have every content that it may have with them. -/
theorem Admits.unhinted {field : Field} {content : Content} (admitted : field.Admits content) :
    field.unhinted.Admits content := by
  cases content with
  | entries entries =>
    obtain ⟨nonempty, written, -, untruncated⟩ := admitted
    exact ⟨nonempty, written, rfl, untruncated⟩
  | texts texts =>
    obtain ⟨nonempty, written, admitted⟩ := admitted
    refine ⟨nonempty, written, ?_⟩
    have modifier_eq : field.unhinted.occurrence.modifier = field.occurrence.modifier := rfl
    cases modifier : field.occurrence.modifier with
    | truncated length =>
      simp only [AdmitsTexts, modifier] at admitted
      simp only [AdmitsTexts, modifier_eq, modifier]
      exact admitted
    | plain =>
      simp only [AdmitsTexts, modifier_eq, modifier]
      exact .inl rfl
    | exploded =>
      simp only [AdmitsTexts, modifier_eq, modifier]
      exact .inl rfl

end Field

namespace Selection

variable {selection : Selection} {fields : List Field}

/-- A selection of the same contents for the fields as they are without hints. -/
def unhinted (selection : Selection) : Selection :=
  selection.map fun chosen => (chosen.1.unhinted, chosen.2)

/-- A selection is one of the same fields without hints. -/
theorem IsOf.unhinted (isOf : selection.IsOf fields) :
    selection.unhinted.IsOf (fields.map Field.unhinted) where
  fields_eq := by
    rw [← isOf.fields_eq, Selection.unhinted, List.map_map, List.map_map]
    rfl
  admits chosen member content known := by
    obtain ⟨original, found, rfl⟩ := List.mem_map.mp member
    exact (isOf.admits original found content known).unhinted

/-- What fields write does not depend on hints. -/
theorem contributions_unhinted (selection : Selection) :
    selection.unhinted.contributions = selection.contributions :=
  List.filterMap_map

/-- What fields record does not depend on hints. -/
theorem marks_unhinted (selection : Selection) : selection.unhinted.marks = selection.marks := by
  rw [marks, Selection.unhinted, List.flatMap_map]
  rfl

end Selection

namespace Expression

variable {expression : Expression} {part : Nat} {hints : Hints} {text : Text}
  {marks : List (Site × Option Text)}

/-- Without hints, an expression has the same fields but for what hints say of them. -/
theorem fields_unhinted (expression : Expression) (part : Nat) (hints : Hints) :
    expression.fields part {} = (expression.fields part hints).map Field.unhinted := by
  rw [fields_eq_map, fields_eq_map, List.map_map]
  rfl

/-- **An expression without hints reads all that it reads with them**, and captures the same. -/
theorem derives_unhinted (read : Derives
      (patternOf expression.operator (expression.fields part hints)).readings text marks) :
    Derives (patternOf expression.operator (expression.fields part {})).readings text marks := by
  have each := expression.isOf_fields part hints
  have eachUnhinted := expression.isOf_fields part {}
  have nonempty := expression.fields_ne_nil part hints
  cases named : expression.operator.isNamed with
  | false =>
    obtain ⟨selection, isOf, rfl, rfl⟩ := exists_selection_of_derives named each nonempty read
    rw [← selection.contributions_unhinted, ← selection.marks_unhinted]
    refine derives_of_selection named eachUnhinted ?_ fun chosen member required => ?_
    · rw [fields_unhinted expression part hints]
      exact isOf.unhinted
    · obtain ⟨original, -, rfl⟩ := List.mem_map.mp member
      cases required
  | true =>
    rw [derives_patternOf_named named each] at read
    obtain ⟨steps, known, rfl, rfl⟩ := read
    rw [derives_patternOf_named named eachUnhinted]
    refine ⟨steps.map fun step => (step.1.unhinted, step.2), ?_, ?_, ?_⟩
    · intro step member
      obtain ⟨original, found, rfl⟩ := List.mem_map.mp member
      obtain ⟨among, admitted, single⟩ := known original found
      rw [fields_unhinted expression part hints]
      exact ⟨List.mem_map_of_mem among, admitted.unhinted, single⟩
    · rw [List.map_map]
      rfl
    · rw [List.flatMap_map]
      rfl

end Expression

/-- Parts without hints are read where they are read with them, and the same is captured. -/
theorem Part.exists_patterns_unhinted {hints : Hints} {parts : List Part} {index : Nat}
    {patterns : List (Pattern Site)} (built : Part.patterns index hints parts = .ok patterns) :
    ∃ wide, Part.patterns index {} parts = .ok wide ∧ ∀ text marks,
      Derives (Pattern.seq patterns).readings text marks →
        Derives (Pattern.seq wide).readings text marks := by
  induction parts generalizing index patterns with
  | nil => exact ⟨patterns, built, fun _ _ => id⟩
  | cons part parts ih =>
    obtain ⟨first, rest, rfl, here, later⟩ := Part.patterns_cons.mp built
    obtain ⟨wideRest, builtRest, readsRest⟩ := ih later
    obtain ⟨wideFirst, builtFirst, readsFirst⟩ : ∃ wide, part.pattern index {} = .ok wide ∧
        ∀ text marks, Derives first.readings text marks → Derives wide.readings text marks := by
      cases part with
      | literal part => exact ⟨first, here, fun _ _ => id⟩
      | expression part =>
        obtain ⟨-, rfl⟩ := Expression.pattern_eq_ok_iff.mp here
        refine ⟨_, Expression.pattern_eq_ok_iff.mpr ⟨fun v _ => ?_, rfl⟩,
          fun _ _ => Expression.derives_unhinted⟩
        simp [Expression.contradiction?]
    refine ⟨wideFirst :: wideRest,
      Part.patterns_cons.mpr ⟨_, _, rfl, builtFirst, builtRest⟩, fun text marks read => ?_⟩
    obtain ⟨front, back, before, after, rfl, rfl, readFront, readBack⟩ :=
      Pattern.derives_seq_cons.mp read
    exact Pattern.derives_seq_cons.mpr ⟨front, back, before, after, rfl, rfl,
      readsFirst _ _ readFront, readsRest _ _ readBack⟩

namespace Template

variable {template : Template} {hints : Hints}

/-- A template without hints reads all that it reads with them, and captures the same. -/
theorem exists_pattern_unhinted {narrow : Pattern Site}
    (built : template.pattern hints = .ok narrow) :
    ∃ wide, template.pattern {} = .ok wide ∧ ∀ text marks,
      Derives narrow.readings text marks → Derives wide.readings text marks := by
  obtain ⟨patterns, each, rfl⟩ := pattern_eq_ok_iff.mp built
  obtain ⟨widePatterns, eachWide, reads⟩ := Part.exists_patterns_unhinted each
  exact ⟨_, pattern_eq_ok_iff.mpr ⟨widePatterns, eachWide, rfl⟩, reads⟩

/-- A template has a pattern unless hints contradict a truncation. -/
theorem exists_pattern (untruncated : ∀ v ∈ template.occurrences, v.length?.isSome = true →
      v.name ∉ hints.lists ∧ v.name ∉ hints.maps) :
    ∃ pattern, template.pattern hints = .ok pattern := by
  have consistent : template.occurrences.find? hints.contradicts = none := by
    rw [List.find?_eq_none]
    intro v member contradicted
    simp only [Hints.contradicts, Bool.and_eq_true, Bool.or_eq_true, List.contains_iff_mem]
      at contradicted
    obtain ⟨noList, noMap⟩ := untruncated v member contradicted.1
    exact contradicted.2.elim noList noMap
  have built := Part.patterns_eq template.parts 0 hints
  rw [occurrences] at consistent
  rw [consistent] at built
  obtain ⟨patterns, each⟩ := built
  exact ⟨_, pattern_eq_ok_iff.mpr ⟨patterns, each, rfl⟩⟩

/-- To match the pattern of a template is to capture something of the text. -/
theorem isMatch_pattern_iff {pattern : Pattern Site} (built : template.pattern hints = .ok pattern)
    (text : Text) :
    pattern.regex.isMatch text = true ↔
      ∃ captures, pattern.captures? text = .ok (some captures) := by
  obtain ⟨patterns, each, rfl⟩ := pattern_eq_ok_iff.mp built
  rw [captures?_pattern built, Pattern.isMatch_iff_whole?
    (Pattern.isFaithful_seq.mpr (Part.isFaithful_patterns each)), Option.isSome_iff_exists]
  simp only [Except.ok.injEq]

/-- **Hints only narrow the pattern of a template.** Unless they declare a truncated variable to be
a list or a map, a template has a pattern with the hints and one without them, and every text that
the first one matches is matched by the second one, too. What is captured with the hints is one of
the ways to read the text without them. -/
theorem pattern_unhinted (hints : Hints)
    (untruncated : ∀ v ∈ template.occurrences, v.length?.isSome = true →
      v.name ∉ hints.lists ∧ v.name ∉ hints.maps) :
    ∃ narrow wide, template.pattern hints = .ok narrow ∧ template.pattern {} = .ok wide ∧
      ∀ text, (narrow.regex.isMatch text = true → wide.regex.isMatch text = true) ∧
        ∀ captures, narrow.captures? text = .ok (some captures) →
          Derives wide.readings text captures ∧
            ∃ first, wide.captures? text = .ok (some first) := by
  obtain ⟨narrow, built⟩ := exists_pattern untruncated
  obtain ⟨wide, builtWide, reads⟩ := exists_pattern_unhinted built
  have widened : ∀ text captures, narrow.captures? text = .ok (some captures) →
      Derives wide.readings text captures ∧
        ∃ first, wide.captures? text = .ok (some first) := by
    intro text captures captured
    rw [captures?_pattern built, Except.ok.injEq] at captured
    have read := reads text _ (Readings.derives_of_whole? captured)
    obtain ⟨first, found⟩ := Readings.exists_whole?_of_derives read
    exact ⟨read, first, by rw [captures?_pattern builtWide, found]⟩
  refine ⟨narrow, wide, built, builtWide, fun text => ⟨fun matched => ?_, widened text⟩⟩
  obtain ⟨captures, captured⟩ := (isMatch_pattern_iff built text).mp matched
  exact (isMatch_pattern_iff builtWide text).mpr (widened text captures captured).2

/-- A required segment takes the text that the segment before it takes without hints. -/
theorem pattern_unhinted_required :
    Template.capture ⟨[.expression ⟨.path, [⟨['a'], .plain, rfl, rfl⟩,
        ⟨['b'], .truncated 3, rfl, rfl⟩], by simp⟩]⟩ { required := [['b']], lists := [['a']] }
      ['/', 'x'] = .ok (some [(⟨0, 1, .value⟩, some ['x'])]) ∧
    ∃ first, Template.capture ⟨[.expression ⟨.path, [⟨['a'], .plain, rfl, rfl⟩,
        ⟨['b'], .truncated 3, rfl, rfl⟩], by simp⟩]⟩ {} ['/', 'x'] = .ok (some first) := by
  let template : Template := ⟨[.expression ⟨.path, [⟨['a'], .plain, rfl, rfl⟩,
    ⟨['b'], .truncated 3, rfl, rfl⟩], by simp⟩]⟩
  let hints : Hints := { required := [['b']], lists := [['a']] }
  have untruncated : ∀ v ∈ template.occurrences, v.length?.isSome = true →
      v.name ∉ hints.lists ∧ v.name ∉ hints.maps := by decide
  have captured : template.capture hints ['/', 'x'] =
      .ok (some [(⟨0, 1, .value⟩, some ['x'])]) := by decide +kernel
  obtain ⟨narrow, wide, built, builtWide, each⟩ := pattern_unhinted hints untruncated
  refine ⟨captured, ?_⟩
  rw [capture, built] at captured
  obtain ⟨-, first, found⟩ := (each ['/', 'x']).2 _ captured
  refine ⟨first, ?_⟩
  show template.capture {} ['/', 'x'] = _
  rw [capture, builtWide]
  exact found

end Template

end UriTemplates
