import UriTemplates.Proofs.Expansion.Content
import UriTemplates.Proofs.Pattern.Recapture

/-!
# The pattern of a template

Every separator in the pattern of a template is a single character, and every choice has an
option, since hints leave every variable the form of a list or of a map. So the pattern is
written faithfully (`Part.isFaithful_patterns`), and matching gives the captures of the first
reading (`Template.captures?_pattern`).
-/

namespace UriTemplates

namespace Pattern

/-- Elements with a character between them are written faithfully if the element is. -/
theorem isFaithful_elements {κ : Type} (element : Pattern κ) (separator : Char)
    (isLazy requiresMore : Bool) :
    (elements element separator isLazy requiresMore).isFaithful = element.isFaithful := by
  have nonempty : (Regex.ofText [separator]).isMatch [] = false := by
    rw [← Bool.not_eq_true, Regex.isMatch_ofText]
    simp
  simp [elements, isFaithful, Regex.isUndivided_ofText, nonempty]

/-- One of some options is written faithfully if there are any and they are. -/
theorem isFaithful_amongst {κ : Type} {options : List (Pattern κ)}
    (nonempty : options ≠ []) (each : ∀ option ∈ options, option.isFaithful = true) :
    (amongst options).isFaithful = true := by
  unfold amongst
  split
  · simpa using each
  · exact isFaithful_choice.mpr ⟨nonempty, each⟩

end Pattern

namespace Field

open Pattern (isFaithful isFaithful_elements isFaithful_seq isFaithful_choice)

section Forms

variable {field : Field} (formed : field.forms.list = true ∨ field.forms.map = true)

include formed

/-- The options of a field are written faithfully if each of its forms is. -/
theorem isFaithful_options {asText asList asMap : Pattern Site}
    (text : asText.isFaithful = true) (list : asList.isFaithful = true)
    (map : asMap.isFaithful = true) :
    (field.options asText asList asMap).isFaithful = true := by
  apply Pattern.isFaithful_amongst
  · rcases formed with listed | mapped
    · simp [listed]
    · simp [mapped]
  · intro option member
    simp only [List.mem_append, List.mem_ite_nil_right, List.mem_singleton] at member
    rcases member with (⟨-, rfl⟩ | ⟨-, rfl⟩) | ⟨-, rfl⟩
    · exact text
    · exact list
    · exact map

theorem isFaithful_unnamed : field.unnamed.isFaithful = true := by
  unfold unnamed
  split
  · rfl
  · refine isFaithful_options formed rfl ?_ ?_
    · exact isFaithful_elements ..
    · exact isFaithful_elements ..
  · refine isFaithful_options formed rfl ?_ ?_
    · exact isFaithful_elements ..
    · exact isFaithful_elements ..

omit formed in
theorem isFaithful_flatEntries : field.flatEntries.isFaithful = true :=
  isFaithful_elements ..

theorem isFaithful_queryItem : field.queryItem.isFaithful = true := by
  unfold queryItem
  split
  · rfl
  · exact isFaithful_options formed rfl rfl rfl
  · refine isFaithful_options formed rfl ?_ ?_
    · rw [isFaithful_seq]
      simp only [List.forall_mem_cons, isFaithful_elements]
      exact ⟨rfl, rfl, rfl, by simp⟩
    · rw [isFaithful_seq]
      simp only [List.forall_mem_cons, isFaithful_flatEntries]
      exact ⟨rfl, rfl, trivial, by simp⟩

theorem isFaithful_parameterItem : field.parameterItem.isFaithful = true := by
  unfold parameterItem
  split
  · rfl
  · exact isFaithful_options formed rfl rfl rfl
  · refine isFaithful_options formed rfl ?_ ?_
    · simp only [isFaithful_seq, isFaithful_choice, List.forall_mem_cons, isFaithful_elements]
      exact ⟨rfl, ⟨by simp, rfl, ⟨rfl, rfl, by simp⟩, rfl, by simp⟩, by simp⟩
    · simp only [isFaithful_seq, isFaithful_choice, List.forall_mem_cons, isFaithful_flatEntries]
      exact ⟨rfl, ⟨by simp, ⟨rfl, trivial, by simp⟩, rfl, by simp⟩, by simp⟩

theorem isFaithful_named : field.named.isFaithful = true := by
  unfold named
  split
  · exact isFaithful_parameterItem formed
  · exact isFaithful_queryItem formed

theorem isFaithful_segment : field.segment.isFaithful = true := by
  have written : (Pattern.seq [.literal field.operator.symbol,
      field.unnamed]).isFaithful = true := by
    simp only [isFaithful_seq, List.forall_mem_cons]
    exact ⟨rfl, isFaithful_unnamed formed, by simp⟩
  unfold segment
  split
  · exact written
  · exact written

end Forms

variable {operator : Operator}

/-- Fields with commas between them are written faithfully. -/
theorem isFaithful_someOf : (fields : List Field) → (∀ field ∈ fields, field.IsOf operator) →
    (someOf fields).isFaithful = true
  | [], _ => rfl
  | [_], each => isFaithful_unnamed (each _ List.mem_cons_self).formed
  | field :: next :: rest, each => by
    obtain ⟨isOf, isOfOthers⟩ := List.forall_mem_cons.mp each
    have others := isFaithful_someOf (next :: rest) isOfOthers
    have first := isFaithful_unnamed isOf.formed
    rw [someOf]
    · split
      · simp only [isFaithful_seq, List.forall_mem_cons]
        refine ⟨first, ?_, by simp⟩
        exact isFaithful_seq.mpr (by simp [others, Pattern.literal, isFaithful])
      · rw [isFaithful_choice]
        simp only [List.forall_mem_cons, isFaithful_seq]
        exact ⟨by simp, ⟨first, rfl, others, by simp⟩, first, others, by simp⟩
    · simp

end Field

/-- The pattern of an expression is written faithfully, as it has a field and every field has a
form. -/
theorem Expression.isFaithful_patternOf {operator : Operator} {fields : List Field}
    (nonempty : fields ≠ []) (each : ∀ field ∈ fields, field.IsOf operator) :
    (patternOf operator fields).isFaithful = true := by
  have some := Field.isFaithful_someOf fields each
  have segments : (Pattern.seq (fields.map Field.segment)).isFaithful = true := by
    rw [Pattern.isFaithful_seq]
    intro node member
    obtain ⟨field, among, rfl⟩ := List.mem_map.mp member
    exact Field.isFaithful_segment (each field among).formed
  have items : (Pattern.seq [.literal operator.first, .elements
      (.amongst (fields.map Field.named)) operator.separator false false]).isFaithful = true := by
    simp only [Pattern.isFaithful_seq, List.forall_mem_cons, Pattern.isFaithful_elements]
    refine ⟨rfl, Pattern.isFaithful_amongst (by simpa using nonempty) fun node member => ?_,
      by simp⟩
    obtain ⟨field, among, rfl⟩ := List.mem_map.mp member
    exact Field.isFaithful_named (each field among).formed
  cases operator with
  | simple => exact some
  | reserved => exact some
  | fragment =>
    exact Pattern.isFaithful_seq.mpr (by simp [some, Pattern.literal, Pattern.isFaithful])
  | label => exact segments
  | path => exact segments
  | parameter => exact items
  | query => exact items
  | continuation => exact items

/-- An expression has a pattern unless hints contradict a truncation. -/
theorem Expression.pattern_eq_ok_iff {expression : Expression} {part : Nat} {hints : Hints}
    {pattern : Pattern Site} :
    expression.pattern part hints = .ok pattern ↔
      (∀ v ∈ expression.occurrences, contradiction? hints v = none) ∧
        pattern = patternOf expression.operator (expression.fields part hints) := by
  unfold Expression.pattern
  cases found : expression.occurrences.findSome? (contradiction? hints) with
  | some error =>
    have contradicted : ¬ ∀ v ∈ expression.occurrences, contradiction? hints v = none := by
      rw [← List.findSome?_eq_none_iff, found]
      exact Option.some_ne_none error
    simp [contradicted]
  | none =>
    rw [List.findSome?_eq_none_iff] at found
    rw [and_iff_right found, Except.ok.injEq, eq_comm]

/-- Parts have patterns if the first one has and the later ones have. -/
theorem Part.patterns_cons {index : Nat} {hints : Hints} {part : Part} {parts : List Part}
    {patterns : List (Pattern Site)} :
    Part.patterns index hints (part :: parts) = .ok patterns ↔ ∃ first rest,
      patterns = first :: rest ∧ part.pattern index hints = .ok first ∧
        Part.patterns (index + 1) hints parts = .ok rest := by
  simp only [Part.patterns, bind_eq_ok_iff, return_eq_ok_iff]
  constructor
  · rintro ⟨first, here, rest, later, rfl⟩
    exact ⟨first, rest, rfl, here, later⟩
  · rintro ⟨first, rest, rfl, here, later⟩
    exact ⟨first, here, rest, later, rfl⟩

/-- The pattern of a part is written faithfully. -/
theorem Part.isFaithful_pattern {part : Part} {index : Nat} {hints : Hints}
    {pattern : Pattern Site} (built : part.pattern index hints = .ok pattern) :
    pattern.isFaithful = true := by
  cases part with
  | literal part =>
    cases built
    rfl
  | expression part =>
    rw [(Expression.pattern_eq_ok_iff.mp built).2]
    exact Expression.isFaithful_patternOf (part.fields_ne_nil index hints)
      (part.isOf_fields index hints)

/-- The patterns of all parts are written faithfully. -/
theorem Part.isFaithful_patterns {index : Nat} {hints : Hints} {parts : List Part}
    {patterns : List (Pattern Site)} (built : Part.patterns index hints parts = .ok patterns) :
    ∀ pattern ∈ patterns, pattern.isFaithful = true := by
  induction parts generalizing index patterns with
  | nil =>
    cases built
    simp
  | cons part parts ih =>
    obtain ⟨first, rest, rfl, here, later⟩ := Part.patterns_cons.mp built
    exact List.forall_mem_cons.mpr ⟨Part.isFaithful_pattern here, ih later⟩

/-- A template has a pattern if its parts have, and it is their sequence. -/
theorem Template.pattern_eq_ok_iff {template : Template} {hints : Hints}
    {pattern : Pattern Site} :
    template.pattern hints = .ok pattern ↔ ∃ patterns,
      Part.patterns 0 hints template.parts = .ok patterns ∧ pattern = .seq patterns := by
  unfold Template.pattern
  cases Part.patterns 0 hints template.parts with
  | error error => simp [Except.map]
  | ok patterns => simp [Except.map, eq_comm]

/-- Matching a template gives what the first reading of its pattern captures. -/
theorem Template.captures?_pattern {template : Template} {hints : Hints}
    {pattern : Pattern Site} (built : template.pattern hints = .ok pattern) (uri : Text) :
    pattern.captures? uri = .ok (pattern.readings.whole? uri) := by
  obtain ⟨patterns, each, rfl⟩ := Template.pattern_eq_ok_iff.mp built
  exact Pattern.captures?_of_isFaithful
    (Pattern.isFaithful_seq.mpr (Part.isFaithful_patterns each)) uri

end UriTemplates
