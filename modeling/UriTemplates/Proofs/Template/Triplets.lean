import UriTemplates.Proofs.Expansion.Content
import UriTemplates.Proofs.Regex.Triplets
import UriTemplates.Proofs.Template.Pattern
import UriTemplates.Proofs.Template.Preference

/-!
# Patterns that do not see the case of triplets

A pattern whose regular expressions do not see the case of triplets reads a text like the text with
all triplets in upper case, and captures the same spans in upper case (`Pattern.IgnoresCase`). The
pattern of a template is one of these, if no percent sign stands in its literal texts and in the
names of its variables (`Template.ignoresCase_pattern`).
-/

namespace UriTemplates

open Percent (uppercased)

theorem forall_mem_pair {α : Type} {able : α → Prop} {first second : α} :
    (∀ item ∈ [first, second], able item) ↔ able first ∧ able second := by
  rw [List.forall_mem_cons, List.forall_mem_singleton]

/-- Captures with all triplets in upper case. -/
def Captures.uppercased {κ : Type} (captures : Captures κ) : Captures κ :=
  captures.map fun mark => (mark.1, mark.2.map Percent.uppercased)

namespace Pattern

variable {κ : Type}

/-- Whether a pattern reads a text like the text with all triplets in upper case. -/
def IgnoresCase (pattern : Pattern κ) : Prop :=
  Readings.Commutes uppercased (fun mark => (mark.1, mark.2.map uppercased)) pattern.readings

/-- **The first reading in upper case** is the first reading. -/
theorem IgnoresCase.whole?_uppercased {pattern : Pattern κ} (ignores : pattern.IgnoresCase)
    (text : Text) : pattern.readings.whole? (uppercased text) =
      (pattern.readings.whole? text).map Captures.uppercased :=
  Readings.Commutes.whole?_change Percent.length_uppercased ignores text

theorem ignoresCase_plain {regex : Regex} (ignores : regex.IgnoresCase) :
    (plain regex : Pattern κ).IgnoresCase :=
  ignores _ _

theorem ignoresCase_literal {text : Text} (plain : '%' ∉ text) :
    (literal text : Pattern κ).IgnoresCase :=
  ignoresCase_plain (Regex.ignoresCase_ofText plain)

theorem ignoresCase_nothing : (nothing : Pattern κ).IgnoresCase :=
  ignoresCase_plain Regex.ignoresCase_empty

/-- A capture ignores the case of triplets if what it captures does; the span is in upper case, too.
-/
theorem ignoresCase_capture {key : κ} {inner : Pattern κ} (ignores : inner.IgnoresCase) :
    (capture key inner).IgnoresCase :=
  ignores.marked fun _ => rfl

theorem ignoresCase_seq {nodes : List (Pattern κ)}
    (each : ∀ node ∈ nodes, node.IgnoresCase) : (seq nodes).IgnoresCase := by
  induction nodes with
  | nil => exact Readings.commutes_stop rfl
  | cons node nodes ih =>
    obtain ⟨here, later⟩ := List.forall_mem_cons.mp each
    exact here.andThen (ih later)

theorem ignoresCase_choice {options : List (Pattern κ)}
    (each : ∀ option ∈ options, option.IgnoresCase) : (choice options).IgnoresCase := by
  induction options with
  | nil => exact Readings.commutes_never
  | cons option options ih =>
    obtain ⟨here, later⟩ := List.forall_mem_cons.mp each
    exact here.orElse (ih later)

theorem ignoresCase_amongst {options : List (Pattern κ)}
    (each : ∀ option ∈ options, option.IgnoresCase) : (amongst options).IgnoresCase := by
  rw [IgnoresCase, readings_amongst]
  exact ignoresCase_choice each

theorem ignoresCase_optional {inner : Pattern κ} {isLazy : Bool}
    (ignores : inner.IgnoresCase) : (optional inner isLazy).IgnoresCase :=
  ignores.loop Percent.length_uppercased .optional isLazy

/-- Elements ignore the case of triplets if one does and no percent sign separates them. -/
theorem ignoresCase_elements {element : Pattern κ} {separator : Char}
    {isLazy requiresMore : Bool} (ignores : element.IgnoresCase) (plain : separator ≠ '%') :
    (elements element separator isLazy requiresMore).IgnoresCase := by
  have separators : (Regex.ofText [separator]).IgnoresCase :=
    Regex.ignoresCase_ofText (by simpa using plain.symm)
  exact ignores.andThen (((separators _ _).andThen ignores).loop Percent.length_uppercased _ isLazy)

end Pattern

namespace Operator

/-- No separator is a percent sign. -/
theorem separator_ne_percent (operator : Operator) : operator.separator ≠ '%' := by
  cases operator <;> decide

/-- Any characters of values ignore the case of triplets. -/
theorem ignoresCase_chars (operator : Operator) : operator.chars.IgnoresCase :=
  Pattern.ignoresCase_plain ((Regex.ignoresCase_valueChar _).loop _ _)

theorem ignoresCase_someChars (operator : Operator) : operator.someChars.IgnoresCase :=
  Pattern.ignoresCase_plain ((Regex.ignoresCase_valueChar _).loop _ _)

theorem ignoresCase_codePoints (operator : Operator) (least most : Nat) :
    (operator.codePoints least most).IgnoresCase :=
  Pattern.ignoresCase_plain ((Regex.ignoresCase_codePoint _).loop _ _)

end Operator

namespace Field

variable (field : Field)

/-- The options of a field ignore the case of triplets if each of its forms does. -/
theorem ignoresCase_options {asText asList asMap : Pattern Site} (text : asText.IgnoresCase)
    (list : asList.IgnoresCase) (map : asMap.IgnoresCase) :
    (field.options asText asList asMap).IgnoresCase := by
  apply Pattern.ignoresCase_amongst
  intro option member
  simp only [List.mem_append, List.mem_ite_nil_right, List.mem_singleton] at member
  rcases member with (⟨-, rfl⟩ | ⟨-, rfl⟩) | ⟨-, rfl⟩
  · exact text
  · exact list
  · exact map

theorem ignoresCase_captureChars (facet : Facet) : (field.captureChars facet).IgnoresCase :=
  Pattern.ignoresCase_capture field.operator.ignoresCase_chars

theorem ignoresCase_captureSome (facet : Facet) : (field.captureSome facet).IgnoresCase :=
  Pattern.ignoresCase_capture field.operator.ignoresCase_someChars

theorem ignoresCase_captureEmpty (facet : Facet) : (field.captureEmpty facet).IgnoresCase :=
  Pattern.ignoresCase_capture Pattern.ignoresCase_nothing

theorem ignoresCase_captureCodePoints (least most : Nat) :
    (field.capture .value (field.operator.codePoints least most)).IgnoresCase :=
  Pattern.ignoresCase_capture (field.operator.ignoresCase_codePoints least most)

theorem ignoresCase_entry {between : Char} (plain : between ≠ '%') :
    (field.entry between).IgnoresCase := by
  have key := field.ignoresCase_captureChars .key
  have item := field.ignoresCase_captureChars .item
  have separator : (Pattern.literal [between] : Pattern Site).IgnoresCase :=
    Pattern.ignoresCase_literal (by simpa using plain.symm)
  exact Pattern.ignoresCase_capture (Pattern.ignoresCase_seq (by simp [key, separator, item]))

theorem ignoresCase_flatEntries : field.flatEntries.IgnoresCase :=
  Pattern.ignoresCase_elements (field.ignoresCase_entry (by decide)) (by decide)

/-- A value without a name is read alike in any case of triplets. -/
theorem ignoresCase_unnamed : field.unnamed.IgnoresCase := by
  have separator := field.operator.separator_ne_percent
  have value := field.ignoresCase_captureChars .value
  unfold unnamed
  split
  · exact field.ignoresCase_captureCodePoints _ _
  · refine field.ignoresCase_options value ?_ ?_
    · exact Pattern.ignoresCase_elements value separator
    · exact Pattern.ignoresCase_elements (field.ignoresCase_entry (by decide)) separator
  · refine field.ignoresCase_options value ?_ field.ignoresCase_flatEntries
    exact Pattern.ignoresCase_elements value (by decide)

/-- A value after an equals sign. -/
theorem ignoresCase_afterEquals {value : Pattern Site} (ignores : value.IgnoresCase) :
    (Pattern.seq [.literal ['='], value]).IgnoresCase := by
  have equals : (Pattern.literal ['='] : Pattern Site).IgnoresCase :=
    Pattern.ignoresCase_literal (by decide)
  exact Pattern.ignoresCase_seq (by simp [equals, ignores])

theorem ignoresCase_parameterText : field.parameterText.IgnoresCase :=
  ignoresCase_afterEquals (field.ignoresCase_captureSome .value)

theorem ignoresCase_parameterEntry : field.parameterEntry.IgnoresCase := by
  have key := field.ignoresCase_captureChars .key
  have some_ := ignoresCase_afterEquals (field.ignoresCase_captureSome .item)
  have empty := field.ignoresCase_captureEmpty .item
  have item := Pattern.ignoresCase_choice (forall_mem_pair.mpr ⟨some_, empty⟩)
  exact Pattern.ignoresCase_capture (Pattern.ignoresCase_seq (forall_mem_pair.mpr ⟨key, item⟩))

variable {field}

section Named

variable (plain : '%' ∉ field.occurrence.name)

include plain

/-- A name without percent signs ignores the case of triplets. -/
theorem ignoresCase_writtenName : field.writtenName.IgnoresCase :=
  Pattern.ignoresCase_capture (Pattern.ignoresCase_literal plain)

/-- A value after the name of a field and an equals sign. -/
theorem ignoresCase_underName {value : Pattern Site} (ignores : value.IgnoresCase) :
    (Pattern.seq [field.writtenName, .literal ['='], value]).IgnoresCase := by
  have name := ignoresCase_writtenName plain
  exact Readings.Commutes.andThen name (ignoresCase_afterEquals ignores)

/-- One of some values after the name of a field. -/
theorem ignoresCase_afterName {options : List (Pattern Site)}
    (each : ∀ option ∈ options, option.IgnoresCase) :
    (Pattern.seq [field.writtenName, .choice options]).IgnoresCase :=
  Pattern.ignoresCase_seq (forall_mem_pair.mpr
    ⟨ignoresCase_writtenName plain, Pattern.ignoresCase_choice each⟩)

/-- An item of a query ignores the case of triplets if its name has no percent sign. -/
theorem ignoresCase_queryItem : field.queryItem.IgnoresCase := by
  have value := field.ignoresCase_captureChars .value
  have text := ignoresCase_underName plain value
  unfold queryItem
  split
  · exact ignoresCase_underName plain (field.ignoresCase_captureCodePoints _ _)
  · exact field.ignoresCase_options text text (field.ignoresCase_entry (by decide))
  · refine field.ignoresCase_options text ?_ ?_
    · exact ignoresCase_underName plain (Pattern.ignoresCase_elements value (by decide))
    · exact ignoresCase_underName plain field.ignoresCase_flatEntries

/-- A path parameter ignores the case of triplets if its name has no percent sign. -/
theorem ignoresCase_parameterItem : field.parameterItem.IgnoresCase := by
  have written := field.ignoresCase_parameterText
  have empty := field.ignoresCase_captureEmpty .value
  have text := ignoresCase_afterName plain (forall_mem_pair.mpr ⟨written, empty⟩)
  unfold parameterItem
  split
  · exact ignoresCase_afterName plain (forall_mem_pair.mpr
      ⟨ignoresCase_afterEquals (field.ignoresCase_captureCodePoints _ _), empty⟩)
  · exact field.ignoresCase_options text text field.ignoresCase_parameterEntry
  · refine field.ignoresCase_options text ?_ ?_
    · have items : (Pattern.elements (field.captureChars .value) ',' true true).IgnoresCase :=
        Pattern.ignoresCase_elements (field.ignoresCase_captureChars .value) (by decide)
      exact ignoresCase_afterName plain (List.forall_mem_cons.mpr
        ⟨written, forall_mem_pair.mpr ⟨ignoresCase_afterEquals items, empty⟩⟩)
    · exact ignoresCase_afterName plain (forall_mem_pair.mpr
        ⟨ignoresCase_afterEquals field.ignoresCase_flatEntries, empty⟩)

/-- A value with its name is read alike in any case of triplets. -/
theorem ignoresCase_named : field.named.IgnoresCase := by
  unfold named
  split
  · exact ignoresCase_parameterItem plain
  · exact ignoresCase_queryItem plain

end Named

/-- Values with commas between them are read alike in any case of triplets. -/
theorem ignoresCase_someOf (fields : List Field) : (someOf fields).IgnoresCase := by
  have comma : (Pattern.literal [','] : Pattern Site).IgnoresCase :=
    Pattern.ignoresCase_literal (by decide)
  induction fields with
  | nil => exact Pattern.ignoresCase_nothing
  | cons field rest ih =>
    cases rest with
    | nil => exact field.ignoresCase_unnamed
    | cons next rest =>
      have first := field.ignoresCase_unnamed
      rw [someOf_several]
      split
      · have more := Pattern.ignoresCase_seq (forall_mem_pair.mpr ⟨comma, ih⟩)
        exact Pattern.ignoresCase_seq (forall_mem_pair.mpr
          ⟨first, Pattern.ignoresCase_optional more⟩)
      · have both := Pattern.ignoresCase_seq (List.forall_mem_cons.mpr
          ⟨first, forall_mem_pair.mpr ⟨comma, ih⟩⟩)
        exact Pattern.ignoresCase_choice (List.forall_mem_cons.mpr
          ⟨both, forall_mem_pair.mpr ⟨first, ih⟩⟩)

theorem ignoresCase_segment (field : Field) : field.segment.IgnoresCase := by
  have symbol : '%' ∉ field.operator.symbol := by
    cases field.operator <;> decide
  have written := Pattern.ignoresCase_seq (forall_mem_pair.mpr
    ⟨Pattern.ignoresCase_literal symbol, field.ignoresCase_unnamed⟩)
  unfold segment
  split
  · exact written
  · exact Pattern.ignoresCase_optional written

end Field

namespace Expression

/-- The pattern of an expression is read alike in any case of triplets, provided that no name has
triplets itself. -/
theorem ignoresCase_patternOf (operator : Operator) {fields : List Field}
    (plain : ∀ field ∈ fields, '%' ∉ field.occurrence.name) :
    (patternOf operator fields).IgnoresCase := by
  have several := Field.ignoresCase_someOf fields
  have segments : (Pattern.seq (fields.map Field.segment)).IgnoresCase :=
    Pattern.ignoresCase_seq (List.forall_mem_map.mpr fun field _ => field.ignoresCase_segment)
  have hash : (Pattern.literal ['#'] : Pattern Site).IgnoresCase :=
    Pattern.ignoresCase_literal (by decide)
  have items : ∀ first : Text, '%' ∉ first → (Pattern.optional (.seq [.literal first, .elements
      (.amongst (fields.map Field.named)) operator.separator false false]) false).IgnoresCase := by
    intro first bare
    have item : (Pattern.amongst (fields.map Field.named)).IgnoresCase :=
      Pattern.ignoresCase_amongst (List.forall_mem_map.mpr fun field member =>
        Field.ignoresCase_named (plain field member))
    exact Pattern.ignoresCase_optional (Pattern.ignoresCase_seq (forall_mem_pair.mpr
      ⟨Pattern.ignoresCase_literal bare,
        Pattern.ignoresCase_elements item operator.separator_ne_percent⟩))
  cases operator with
  | simple => exact Pattern.ignoresCase_optional several
  | reserved => exact Pattern.ignoresCase_optional several
  | fragment =>
    exact Pattern.ignoresCase_optional (Pattern.ignoresCase_seq (forall_mem_pair.mpr
      ⟨hash, several⟩))
  | label => exact segments
  | path => exact segments
  | parameter => exact items _ (by decide)
  | query => exact items _ (by decide)
  | continuation => exact items _ (by decide)

end Expression

/-- Whether no percent sign stands in a literal text or in the name of a variable. -/
def Part.IsUnencoded : Part → Prop
  | .literal part => '%' ∉ part.text
  | .expression part => ∀ v ∈ part.occurrences, '%' ∉ v.name

/-- The patterns of parts without percent signs ignore the case of triplets. -/
theorem Part.ignoresCase_patterns {parts : List Part} {index : Nat} {hints : Hints}
    {patterns : List (Pattern Site)} (plain : ∀ part ∈ parts, part.IsUnencoded)
    (built : Part.patterns index hints parts = .ok patterns) :
    ∀ pattern ∈ patterns, pattern.IgnoresCase := by
  induction parts generalizing index patterns with
  | nil =>
    cases built
    exact List.forall_mem_nil _
  | cons part parts ih =>
    obtain ⟨here, later⟩ := List.forall_mem_cons.mp plain
    obtain ⟨first, rest, rfl, builtHere, builtLater⟩ := Part.patterns_cons.mp built
    refine List.forall_mem_cons.mpr ⟨?_, ih later builtLater⟩
    cases part with
    | literal part =>
      cases builtHere
      exact Pattern.ignoresCase_literal here
    | expression part =>
      obtain ⟨-, rfl⟩ := Expression.pattern_eq_ok_iff.mp builtHere
      refine Expression.ignoresCase_patternOf _ fun field member => ?_
      obtain ⟨v, occurs, position, rfl⟩ := Expression.exists_of_mem_fields member
      exact here v occurs

/-- **The pattern of a template** is read alike in any case of triplets. -/
theorem Template.ignoresCase_pattern {template : Template} {hints : Hints}
    {pattern : Pattern Site} (plain : ∀ part ∈ template.parts, part.IsUnencoded)
    (built : template.pattern hints = .ok pattern) : pattern.IgnoresCase := by
  obtain ⟨patterns, each, rfl⟩ := Template.pattern_eq_ok_iff.mp built
  exact Pattern.ignoresCase_seq (Part.ignoresCase_patterns plain each)

end UriTemplates
