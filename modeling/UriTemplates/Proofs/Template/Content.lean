import UriTemplates.Expansion
import UriTemplates.Proofs.Pattern.Derivation
import UriTemplates.Proofs.Template.Characters

/-!
# Contents of fields

What a field of an expression may have as its value, as it is written there: texts or entries
(`Content`). The pattern of a field reads just what its contents are written as, and it
captures the parts of the content. Where no names are written, the field reads all of its
content at once (`Field.derives_unnamed`).
-/

namespace UriTemplates

/-- The value of a variable as it is written in an expression. -/
inductive Content where
  /-- A text, or the items of a list. -/
  | texts (written : List Text)
  /-- The keys and the items of a map. -/
  | entries (written : List (Text × Text))

/-- Whether a content is a single text or a single entry. -/
def Content.isSingle : Content → Prop
  | texts written => written.length = 1
  | entries written => written.length = 1

namespace Field

/-- A captured text that shows a facet of a field. -/
def mark (field : Field) (facet : Facet) (text : Text) : Site × Option Text :=
  (⟨field.part, field.index, facet⟩, some text)

/-- The characters that a value of a field is written with. -/
def IsWritten (field : Field) (text : Text) : Prop :=
  Percent.Written field.operator.allowsReserved text

/-- An entry of a field as it is written. -/
def entryText (field : Field) (entry : Text × Text) : Text :=
  if field.occurrence.isExploded then field.operator.entryContribution entry.1 entry.2
  else entry.1 ++ ',' :: entry.2

/-- The texts that show the value of a field with a content. -/
def units (field : Field) : Content → List Text
  | .texts written => written
  | .entries written => written.map field.entryText

/-- What a field with a content writes in its expression, item by item. -/
def items (field : Field) (content : Content) : List Text :=
  if field.occurrence.isExploded then
    match content with
    | .texts written => written.map (field.operator.withName field.occurrence.name)
    | .entries written => written.map field.entryText
  else
    [field.operator.withName field.occurrence.name (Text.joined ',' (field.units content))]

/-- What a field with a content writes in its expression. -/
def written (field : Field) (content : Content) : Text :=
  Text.joined field.operator.separator (field.items content)

/-- What is captured where the name of a field is written. -/
def nameMarks (field : Field) : List (Site × Option Text) :=
  if field.operator.isNamed then [field.mark .name field.occurrence.name] else []

/-- What is captured of an entry. -/
def entryMarks (field : Field) (entry : Text × Text) : List (Site × Option Text) :=
  [field.mark .value (field.entryText entry), field.mark .key entry.1, field.mark .item entry.2]

/-- What is captured of the value of a field with a content. -/
def valueMarks (field : Field) : Content → List (Site × Option Text)
  | .texts written => written.map (field.mark .value)
  | .entries written => written.flatMap field.entryMarks

/-- What is captured of a field with a content. -/
def marks (field : Field) (content : Content) : List (Site × Option Text) :=
  if field.occurrence.isExploded then
    match content with
    | .texts written => written.flatMap fun text => field.nameMarks ++ [field.mark .value text]
    | .entries written => written.flatMap field.entryMarks
  else
    field.nameMarks ++ field.valueMarks content

/-- Whether a field may have texts for its content. The bare name of a path parameter stands
for an empty text, whatever form hints leave to the field. -/
def AdmitsTexts (field : Field) (texts : List Text) : Prop :=
  match field.occurrence.modifier with
  | .truncated length => ∃ text, texts = [text] ∧
      ∃ count ≤ length, Percent.InCodePoints field.operator.allowsReserved count text
  | .exploded => field.forms.list = true ∨ field.forms.text = true ∧ texts.length = 1
  | .plain => field.forms.list = true ∨ field.forms.text = true ∧ texts.length = 1 ∨
      field.operator = .parameter ∧ texts = [[]]

/-- Whether a field may have a content. -/
def Admits (field : Field) : Content → Prop
  | .texts texts => texts ≠ [] ∧ (∀ text ∈ texts, field.IsWritten text) ∧
      field.AdmitsTexts texts
  | .entries entries => entries ≠ [] ∧
      (∀ entry ∈ entries, field.IsWritten entry.1 ∧ field.IsWritten entry.2) ∧
      field.forms.map = true ∧ field.occurrence.length? = none

/-- Whether a field may read a content as one item where names are written. -/
def AdmitsItem (field : Field) (content : Content) : Prop :=
  field.Admits content ∧ (field.occurrence.isExploded = true → content.isSingle)

open Readings (Derives)

variable {field : Field} {text : Text} {marks : List (Site × Option Text)}

/-- Captured characters are any written text. -/
theorem derives_captureChars {facet : Facet} :
    Derives (field.captureChars facet).readings text marks ↔
      field.IsWritten text ∧ marks = [field.mark facet text] := by
  rw [captureChars, capture, Pattern.derives_capture]
  simp only [Operator.derives_chars]
  constructor
  · rintro ⟨_, ⟨rfl, written⟩, rfl⟩
    exact ⟨written, rfl⟩
  · rintro ⟨written, rfl⟩
    exact ⟨[], ⟨rfl, written⟩, rfl⟩

/-- At least one captured character is any written text that is not empty. -/
theorem derives_captureSome {facet : Facet} :
    Derives (field.captureSome facet).readings text marks ↔
      field.IsWritten text ∧ text ≠ [] ∧ marks = [field.mark facet text] := by
  rw [captureSome, capture, Pattern.derives_capture]
  simp only [Operator.derives_someChars]
  constructor
  · rintro ⟨_, ⟨rfl, written, nonempty⟩, rfl⟩
    exact ⟨written, nonempty, rfl⟩
  · rintro ⟨written, nonempty, rfl⟩
    exact ⟨[], ⟨rfl, written, nonempty⟩, rfl⟩

/-- Where nothing is left to capture, the empty text is. -/
theorem derives_captureEmpty {facet : Facet} :
    Derives (field.captureEmpty facet).readings text marks ↔
      text = [] ∧ marks = [field.mark facet []] := by
  rw [captureEmpty, capture, Pattern.derives_capture]
  simp only [Pattern.derives_nothing]
  constructor
  · rintro ⟨_, ⟨rfl, rfl⟩, rfl⟩
    exact ⟨rfl, rfl⟩
  · rintro ⟨rfl, rfl⟩
    exact ⟨[], ⟨rfl, rfl⟩, rfl⟩

/-- Captured code points are as many as the bounds allow. -/
theorem derives_captureCodePoints {least most : Nat} (ordered : least ≤ most) :
    Derives (field.capture .value (field.operator.codePoints least most)).readings text marks ↔
      (∃ count, least ≤ count ∧ count ≤ most ∧
        Percent.InCodePoints field.operator.allowsReserved count text) ∧
      marks = [field.mark .value text] := by
  rw [capture, Pattern.derives_capture]
  simp only [Operator.derives_codePoints ordered]
  constructor
  · rintro ⟨_, ⟨rfl, points⟩, rfl⟩
    exact ⟨points, rfl⟩
  · rintro ⟨points, rfl⟩
    exact ⟨[], ⟨rfl, points⟩, rfl⟩

/-- An entry that is written with a character between its key and its item. -/
theorem derives_entry {between : Char}
    (same : ∀ entry : Text × Text, field.entryText entry = entry.1 ++ between :: entry.2) :
    Derives (field.entry between).readings text marks ↔ ∃ entry : Text × Text,
      (field.IsWritten entry.1 ∧ field.IsWritten entry.2) ∧ text = field.entryText entry ∧
        marks = field.entryMarks entry := by
  rw [entry, capture, Pattern.derives_capture]
  simp only [@Pattern.derives_seq_cons _ _ _ (field.captureChars .key),
    Pattern.derives_seq_literal, Pattern.derives_seq_single, derives_captureChars, entryMarks,
    same]
  constructor
  · rintro ⟨_, ⟨key, _, _, _, rfl, rfl, ⟨written, rfl⟩, item, rfl, writtenNext, rfl⟩, rfl⟩
    exact ⟨(key, item), ⟨written, writtenNext⟩, rfl, rfl⟩
  · rintro ⟨⟨key, item⟩, ⟨written, writtenNext⟩, rfl, rfl⟩
    exact ⟨_, ⟨key, _, _, _, rfl, rfl, ⟨written, rfl⟩, item, rfl, writtenNext, rfl⟩, rfl⟩

/-- The forms that a field may have, of which there is one besides a text. -/
theorem derives_options {asText asList asMap : Pattern Site} :
    Derives (field.options asText asList asMap).readings text marks ↔
      field.forms.text = true ∧ Derives asText.readings text marks ∨
      field.forms.list = true ∧ Derives asList.readings text marks ∨
      field.forms.map = true ∧ Derives asMap.readings text marks := by
  rw [options, Pattern.derives_amongst]
  cases field.forms.text <;> cases field.forms.list <;> cases field.forms.map <;> simp

/-- The items of a list, joined with a character. -/
theorem derives_list {separator : Char} {requiresMore : Bool} :
    Derives (Pattern.elements (field.captureChars .value) separator true
        requiresMore).readings text marks ↔
      ∃ texts : List Text, texts ≠ [] ∧ (requiresMore = true → 2 ≤ texts.length) ∧
        (∀ item ∈ texts, field.IsWritten item) ∧ text = Text.joined separator texts ∧
        marks = texts.map (field.mark .value) := by
  rw [Pattern.derives_elements_of field.IsWritten id fun item => [field.mark .value item]]
  · simp only [List.map_id, List.map_eq_flatMap (f := field.mark .value)]
  · intro text marks
    simp [derives_captureChars]

/-- The entries of a map, joined with a character. -/
theorem derives_map {between separator : Char}
    (same : ∀ entry : Text × Text, field.entryText entry = entry.1 ++ between :: entry.2) :
    Derives (Pattern.elements (field.entry between) separator true false).readings text marks ↔
      ∃ entries : List (Text × Text), entries ≠ [] ∧
        (∀ entry ∈ entries, field.IsWritten entry.1 ∧ field.IsWritten entry.2) ∧
        text = Text.joined separator (entries.map field.entryText) ∧
        marks = entries.flatMap field.entryMarks := by
  rw [Pattern.derives_elements_of
    (fun entry : Text × Text => field.IsWritten entry.1 ∧ field.IsWritten entry.2)
    field.entryText field.entryMarks fun _ _ => derives_entry same]
  simp

/-- A field that is not exploded is written as one item after its name. -/
theorem items_of_whole (whole : field.occurrence.isExploded = false) (content : Content) :
    field.items content = [field.operator.withName field.occurrence.name
      (Text.joined ',' (field.units content))] := by
  simp [items, whole]

/-- A field that is not exploded writes its values after its name, with commas between them. -/
theorem written_of_whole (whole : field.occurrence.isExploded = false) (content : Content) :
    field.written content = field.operator.withName field.occurrence.name
      (Text.joined ',' (field.units content)) := by
  rw [written, items_of_whole whole, Text.joined_singleton]

theorem marks_of_whole (whole : field.occurrence.isExploded = false) (content : Content) :
    field.marks content = field.nameMarks ++ field.valueMarks content := by
  simp [Field.marks, whole]

theorem entryText_of_whole (whole : field.occurrence.isExploded = false)
    (entry : Text × Text) : field.entryText entry = entry.1 ++ ',' :: entry.2 := by
  simp [entryText, whole]

theorem isWritten_nil : field.IsWritten [] :=
  .nil

theorem isWritten_of_points {count : Nat}
    (points : Percent.InCodePoints field.operator.allowsReserved count text) :
    field.IsWritten text :=
  points.written

/-- The content of a truncated field is a text of no more than a number of code points. -/
theorem exists_truncated_iff {length : Nat}
    (modifier : field.occurrence.modifier = .truncated length) {able : Content → Prop} :
    (∃ content, field.Admits content ∧ able content) ↔ ∃ text, able (.texts [text]) ∧
      ∃ count ≤ length, Percent.InCodePoints field.operator.allowsReserved count text := by
  constructor
  · rintro ⟨texts | entries, admitted, known⟩
    · obtain ⟨-, -, admitted⟩ := admitted
      simp only [AdmitsTexts, modifier] at admitted
      obtain ⟨text, rfl, points⟩ := admitted
      exact ⟨text, known, points⟩
    · have untruncated := admitted.2.2.2
      simp [Variable.length?, modifier] at untruncated
  · rintro ⟨text, known, count, bound, points⟩
    refine ⟨.texts [text], ⟨by simp, by simpa using isWritten_of_points points, ?_⟩, known⟩
    simp only [AdmitsTexts, modifier]
    exact ⟨text, rfl, count, bound, points⟩

/-- The content of a field that is neither truncated nor exploded is a single text, the
items of a list, or entries. -/
theorem exists_plain_iff (modifier : field.occurrence.modifier = .plain)
    (other : field.operator ≠ .parameter) :
    (∃ content, field.Admits content ∧ text = Text.joined ',' (field.units content) ∧
        marks = field.valueMarks content) ↔
      field.forms.text = true ∧ field.IsWritten text ∧ marks = [field.mark .value text] ∨
      field.forms.list = true ∧ (∃ texts : List Text, texts ≠ [] ∧
        (∀ item ∈ texts, field.IsWritten item) ∧ text = Text.joined ',' texts ∧
        marks = texts.map (field.mark .value)) ∨
      field.forms.map = true ∧ ∃ entries : List (Text × Text), entries ≠ [] ∧
        (∀ entry ∈ entries, field.IsWritten entry.1 ∧ field.IsWritten entry.2) ∧
        text = Text.joined ',' (entries.map field.entryText) ∧
        marks = entries.flatMap field.entryMarks := by
  constructor
  · rintro ⟨texts | entries, admitted, rfl, rfl⟩
    · obtain ⟨nonempty, written, admitted⟩ := admitted
      simp only [AdmitsTexts, modifier] at admitted
      rcases admitted with listed | ⟨isText, single⟩ | ⟨parameter, -⟩
      · exact .inr (.inl ⟨listed, texts, nonempty, written, rfl, rfl⟩)
      · obtain ⟨only, rfl⟩ := List.length_eq_one_iff.mp single
        exact .inl ⟨isText, by simpa [units] using written, by simp [valueMarks, units]⟩
      · exact (other parameter).elim
    · obtain ⟨nonempty, written, mapped, -⟩ := admitted
      exact .inr (.inr ⟨mapped, entries, nonempty, written, rfl, rfl⟩)
  · rintro (⟨isText, written, rfl⟩ | ⟨listed, texts, nonempty, written, rfl, rfl⟩ |
      ⟨mapped, entries, nonempty, written, rfl, rfl⟩)
    · refine ⟨.texts [text], ⟨by simp, by simpa using written, ?_⟩, by simp [units], rfl⟩
      simp only [AdmitsTexts, modifier]
      exact .inr (.inl ⟨isText, rfl⟩)
    · refine ⟨.texts texts, ⟨nonempty, written, ?_⟩, rfl, rfl⟩
      simp only [AdmitsTexts, modifier]
      exact .inl listed
    · exact ⟨.entries entries, ⟨nonempty, written, mapped, by simp [Variable.length?, modifier]⟩,
        rfl, rfl⟩

theorem isExploded_of (modifier : field.occurrence.modifier = .exploded) :
    field.occurrence.isExploded = true := by
  simp [Variable.isExploded, modifier]

theorem isExploded_of_plain (modifier : field.occurrence.modifier = .plain) :
    field.occurrence.isExploded = false := by
  simp [Variable.isExploded, modifier]

theorem isExploded_of_truncated {length : Nat}
    (modifier : field.occurrence.modifier = .truncated length) :
    field.occurrence.isExploded = false := by
  simp [Variable.isExploded, modifier]

/-- The content of an exploded field is the items of a list or entries. -/
theorem exists_exploded_iff (modifier : field.occurrence.modifier = .exploded)
    {able : Content → Prop} :
    (∃ content, field.Admits content ∧ able content) ↔
      (∃ texts : List Text, texts ≠ [] ∧ (∀ item ∈ texts, field.IsWritten item) ∧
        (field.forms.list = true ∨ field.forms.text = true ∧ texts.length = 1) ∧
        able (.texts texts)) ∨
      field.forms.map = true ∧ ∃ entries : List (Text × Text), entries ≠ [] ∧
        (∀ entry ∈ entries, field.IsWritten entry.1 ∧ field.IsWritten entry.2) ∧
        able (.entries entries) := by
  constructor
  · rintro ⟨texts | entries, admitted, known⟩
    · obtain ⟨nonempty, written, admitted⟩ := admitted
      simp only [AdmitsTexts, modifier] at admitted
      exact .inl ⟨texts, nonempty, written, admitted, known⟩
    · obtain ⟨nonempty, written, mapped, -⟩ := admitted
      exact .inr ⟨mapped, entries, nonempty, written, known⟩
  · rintro (⟨texts, nonempty, written, form, known⟩ | ⟨mapped, entries, nonempty, written, known⟩)
    · refine ⟨.texts texts, ⟨nonempty, written, ?_⟩, known⟩
      simpa only [AdmitsTexts, modifier] using form
    · exact ⟨.entries entries, ⟨nonempty, written, mapped, by simp [Variable.length?, modifier]⟩,
        known⟩

/-- Without names, a text is written alone. -/
theorem withName_of_unnamed (unnamed : field.operator.isNamed = false) (name : Text) :
    field.operator.withName name = id := by
  funext text
  simp [Operator.withName, unnamed]

theorem nameMarks_of_unnamed (unnamed : field.operator.isNamed = false) :
    field.nameMarks = [] := by
  simp [nameMarks, unnamed]

/-- **What a field reads where no names are written**: just what its contents are written
as. -/
theorem derives_unnamed (unnamed : field.operator.isNamed = false) :
    Derives field.unnamed.readings text marks ↔
      ∃ content, field.Admits content ∧ text = field.written content ∧
        marks = field.marks content := by
  have bare := withName_of_unnamed unnamed
  have noName := nameMarks_of_unnamed unnamed
  cases modifier : field.occurrence.modifier with
  | truncated length =>
    have whole := isExploded_of_truncated modifier
    simp only [Field.unnamed, modifier, derives_captureCodePoints (Nat.zero_le _),
      exists_truncated_iff modifier, written_of_whole whole, marks_of_whole whole, bare, noName,
      id_eq, units, valueMarks, Text.joined_singleton, List.map_cons, List.map_nil,
      List.nil_append]
    constructor
    · rintro ⟨⟨count, -, bound, points⟩, rfl⟩
      exact ⟨text, ⟨rfl, rfl⟩, count, bound, points⟩
    · rintro ⟨_, ⟨rfl, rfl⟩, count, bound, points⟩
      exact ⟨⟨count, Nat.zero_le _, bound, points⟩, rfl⟩
  | exploded =>
    have apart := isExploded_of modifier
    have entryText_eq : ∀ entry : Text × Text,
        field.entryText entry = entry.1 ++ '=' :: entry.2 := by
      simp [entryText, apart, Operator.entryContribution, unnamed]
    simp only [Field.unnamed, modifier, derives_options, derives_captureChars,
      derives_list, derives_map entryText_eq, exists_exploded_iff modifier]
    simp only [written, items, Field.marks, apart, ↓reduceIte, bare, noName, List.map_id,
      List.nil_append]
    constructor
    · rintro (⟨isText, known, rfl⟩ | ⟨listed, texts, nonempty, -, known, rfl, rfl⟩ | mapped)
      · exact .inl ⟨[text], by simp, by simpa using known, .inr ⟨isText, rfl⟩, by simp, rfl⟩
      · exact .inl ⟨texts, nonempty, known, .inl listed, rfl, List.map_eq_flatMap⟩
      · exact .inr mapped
    · rintro (⟨texts, nonempty, known, listed | ⟨isText, single⟩, rfl, rfl⟩ | mapped)
      · exact .inr (.inl ⟨listed, texts, nonempty, by simp, known, rfl, List.map_eq_flatMap.symm⟩)
      · obtain ⟨only, rfl⟩ := List.length_eq_one_iff.mp single
        exact .inl ⟨isText, by simpa using known, by simp⟩
      · exact .inr (.inr mapped)
  | plain =>
    have whole := isExploded_of_plain modifier
    have other : field.operator ≠ .parameter := by
      intro parameter
      rw [parameter] at unnamed
      cases unnamed
    simp only [Field.unnamed, modifier, derives_options, derives_captureChars,
      derives_list, flatEntries, derives_map (entryText_of_whole whole), written_of_whole whole,
      marks_of_whole whole, bare, noName, id_eq, List.nil_append,
      exists_plain_iff modifier other]
    simp

end Field

end UriTemplates
