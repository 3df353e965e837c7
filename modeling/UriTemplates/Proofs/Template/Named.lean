import UriTemplates.Proofs.Template.Content

/-!
# Contents under names

Where names are written, a field reads its content item by item, each under the name of the
field or of an entry (`Field.derives_named`). An equals sign always follows a name in a query,
and in a path parameter only where a text follows that is not empty.
-/

namespace UriTemplates

open Readings (Derives)

/-- A truncated variable keeps at least one code point. -/
theorem Variable.one_le_of_truncated {v : Variable} {length : Nat}
    (modifier : v.modifier = .truncated length) : 1 ≤ length := by
  have valid := v.modifier_valid
  rw [modifier] at valid
  simp only [Modifier.isValid, Bool.and_eq_true, decide_eq_true_eq] at valid
  exact valid.1

namespace Field

variable {field : Field} {text : Text} {marks : List (Site × Option Text)}

/-- What follows the name of a field. -/
theorem derives_afterName {nodes : List (Pattern Site)} :
    Derives (Pattern.seq (field.writtenName :: nodes)).readings text marks ↔
      ∃ back inside, text = field.occurrence.name ++ back ∧
        marks = field.mark .name field.occurrence.name :: inside ∧
        Derives (Pattern.seq nodes).readings back inside := by
  simp only [Pattern.derives_seq_cons, writtenName, capture, Pattern.derives_capture,
    Pattern.derives_literal]
  constructor
  · rintro ⟨_, back, _, inside, rfl, rfl, ⟨_, ⟨rfl, rfl⟩, rfl⟩, derived⟩
    exact ⟨back, inside, rfl, rfl, derived⟩
  · rintro ⟨back, inside, rfl, rfl, derived⟩
    exact ⟨_, back, _, inside, rfl, rfl, ⟨_, ⟨rfl, rfl⟩, rfl⟩, derived⟩

/-- What follows the name of a field and an equals sign. -/
theorem derives_afterEquals {value : Pattern Site} :
    Derives (Pattern.seq [field.writtenName, .literal ['='], value]).readings text marks ↔
      ∃ back inside, text = field.occurrence.name ++ '=' :: back ∧
        marks = field.mark .name field.occurrence.name :: inside ∧
        Derives value.readings back inside := by
  simp only [derives_afterName, Pattern.derives_seq_literal, Pattern.derives_seq_single]
  constructor
  · rintro ⟨_, inside, rfl, rfl, back, rfl, derived⟩
    exact ⟨back, inside, rfl, rfl, derived⟩
  · rintro ⟨back, inside, rfl, rfl, derived⟩
    exact ⟨_, inside, rfl, rfl, back, rfl, derived⟩

theorem nameMarks_of_named (named : field.operator.isNamed = true) :
    field.nameMarks = [field.mark .name field.occurrence.name] := by
  simp [nameMarks, named]

/-- Where names are written, an item of an exploded field is a text under the name of the
field or an entry. -/
theorem exists_single_iff (modifier : field.occurrence.modifier = .exploded) :
    (∃ content, field.Admits content ∧ (field.occurrence.isExploded = true → content.isSingle) ∧
        text = field.written content ∧ marks = field.marks content) ↔
      (field.forms.text = true ∨ field.forms.list = true) ∧ (∃ item, field.IsWritten item ∧
        text = field.operator.withName field.occurrence.name item ∧
        marks = field.nameMarks ++ [field.mark .value item]) ∨
      field.forms.map = true ∧ ∃ entry : Text × Text,
        (field.IsWritten entry.1 ∧ field.IsWritten entry.2) ∧ text = field.entryText entry ∧
        marks = field.entryMarks entry := by
  have apart := isExploded_of modifier
  rw [exists_exploded_iff modifier]
  simp only [written, items, Field.marks, apart, ↓reduceIte, Content.isSingle, forall_const]
  constructor
  · rintro (⟨texts, -, known, form, single, rfl, rfl⟩ |
      ⟨mapped, entries, -, known, single, rfl, rfl⟩)
    · obtain ⟨item, rfl⟩ := List.length_eq_one_iff.mp single
      exact .inl ⟨form.elim .inr fun form => .inl form.1, item, by simpa using known, by simp,
        by simp⟩
    · obtain ⟨entry, rfl⟩ := List.length_eq_one_iff.mp single
      exact .inr ⟨mapped, entry, by simpa using known, by simp, by simp⟩
  · rintro (⟨form, item, known, rfl, rfl⟩ | ⟨mapped, entry, known, rfl, rfl⟩)
    · exact .inl ⟨[item], by simp, by simpa using known, form.elim (fun form => .inr ⟨form, rfl⟩)
        .inl, rfl, by simp, by simp⟩
    · exact .inr ⟨mapped, [entry], by simp, by simpa using known, rfl, by simp, by simp⟩

/-- In a query an equals sign always follows a name. -/
theorem withName_of_query {operator : Operator} (named : operator.isNamed = true)
    (other : operator ≠ .parameter) (name text : Text) :
    operator.withName name text = name ++ '=' :: text := by
  cases operator <;> simp_all [Operator.withName, Operator.isNamed, Operator.emptySuffix]

/-- An item of a query is read as what its field writes for some content: the whole content, or one
text or entry of it if the field is exploded. -/
theorem derives_queryItem (named : field.operator.isNamed = true)
    (other : field.operator ≠ .parameter) :
    Derives field.queryItem.readings text marks ↔
      ∃ content, field.Admits content ∧ (field.occurrence.isExploded = true → content.isSingle) ∧
        text = field.written content ∧ marks = field.marks content := by
  have named_eq := withName_of_query named other
  have nameMarks_eq := nameMarks_of_named named
  cases modifier : field.occurrence.modifier with
  | truncated length =>
    have whole := isExploded_of_truncated modifier
    simp only [queryItem, modifier, derives_afterEquals,
      derives_captureCodePoints (Nat.zero_le _), exists_truncated_iff modifier,
      written_of_whole whole, marks_of_whole whole, whole, named_eq, nameMarks_eq, units,
      valueMarks, Text.joined_singleton, List.map_cons, List.map_nil, List.singleton_append]
    constructor
    · rintro ⟨back, _, rfl, rfl, ⟨count, -, bound, points⟩, rfl⟩
      exact ⟨back, ⟨by simp, rfl, rfl⟩, count, bound, points⟩
    · rintro ⟨back, ⟨-, rfl, rfl⟩, count, bound, points⟩
      exact ⟨back, _, rfl, rfl, ⟨count, Nat.zero_le _, bound, points⟩, rfl⟩
  | exploded =>
    have apart := isExploded_of modifier
    have entryText_eq : ∀ entry : Text × Text,
        field.entryText entry = entry.1 ++ '=' :: entry.2 := by
      simp [entryText, apart, Operator.entryContribution, named, named_eq]
    have asText : Derives (Pattern.seq [field.writtenName, .literal ['='],
        field.captureChars .value]).readings text marks ↔ ∃ item, field.IsWritten item ∧
          text = field.operator.withName field.occurrence.name item ∧
          marks = field.nameMarks ++ [field.mark .value item] := by
      simp only [derives_afterEquals, derives_captureChars, named_eq, nameMarks_eq]
      constructor
      · rintro ⟨item, _, rfl, rfl, known, rfl⟩
        exact ⟨item, known, rfl, rfl⟩
      · rintro ⟨item, known, rfl, rfl⟩
        exact ⟨item, _, rfl, rfl, known, rfl⟩
    simp only [queryItem, modifier, derives_options, asText, derives_entry entryText_eq,
      exists_single_iff modifier, or_and_right, or_assoc]
  | plain =>
    have whole := isExploded_of_plain modifier
    simp only [queryItem, modifier, derives_options, derives_afterEquals,
      derives_captureChars, derives_list, flatEntries, derives_map (entryText_of_whole whole),
      written_of_whole whole, marks_of_whole whole, whole, named_eq, nameMarks_eq,
      List.singleton_append]
    constructor
    · intro derived
      obtain ⟨back, inside, rfl, rfl, read⟩ : ∃ back inside,
          text = field.occurrence.name ++ '=' :: back ∧
          marks = field.mark .name field.occurrence.name :: inside ∧
          ∃ content, field.Admits content ∧ back = Text.joined ',' (field.units content) ∧
            inside = field.valueMarks content := by
        simp only [exists_plain_iff modifier other]
        rcases derived with ⟨isText, back, inside, rfl, rfl, read⟩ |
          ⟨listed, back, inside, rfl, rfl, read⟩ | ⟨mapped, back, inside, rfl, rfl, read⟩
        · exact ⟨back, inside, rfl, rfl, .inl ⟨isText, read⟩⟩
        · exact ⟨back, inside, rfl, rfl, .inr (.inl ⟨listed, by simpa using read⟩)⟩
        · exact ⟨back, inside, rfl, rfl, .inr (.inr ⟨mapped, read⟩)⟩
      obtain ⟨content, admitted, rfl, rfl⟩ := read
      exact ⟨content, admitted, by simp, rfl, rfl⟩
    · rintro ⟨content, admitted, -, rfl, rfl⟩
      rcases (exists_plain_iff modifier other).mp ⟨content, admitted, rfl, rfl⟩ with
        ⟨isText, read⟩ | ⟨listed, read⟩ | ⟨mapped, read⟩
      · exact .inl ⟨isText, _, _, rfl, rfl, read⟩
      · exact .inr (.inl ⟨listed, _, _, rfl, rfl, by simpa using read⟩)
      · exact .inr (.inr ⟨mapped, _, _, rfl, rfl, read⟩)

/-- What follows the name of a path parameter: an equals sign is only written before a text
that is not empty. -/
def parameterSuffix (text : Text) : Text :=
  if text = [] then [] else '=' :: text

/-- The name of a path parameter comes before an equals sign only if there is a text. -/
theorem withName_of_parameter {operator : Operator} (parameter : operator = .parameter)
    (name text : Text) : operator.withName name text = name ++ parameterSuffix text := by
  subst parameter
  cases text <;> rfl

/-- The choice between an equals sign with a text that is not empty and nothing. -/
theorem derives_parameterValue {facet : Facet} {some_ : Pattern Site} {able : Text → Prop}
    (reads : ∀ text marks, Derives some_.readings text marks ↔
      able text ∧ text ≠ [] ∧ marks = [field.mark facet text]) (ableNil : able []) :
    Derives (Pattern.choice [.seq [.literal ['='], some_], field.captureEmpty facet]).readings
        text marks ↔
      ∃ item, able item ∧ text = parameterSuffix item ∧ marks = [field.mark facet item] := by
  rw [Pattern.derives_choice]
  simp only [List.mem_cons, List.not_mem_nil, or_false, exists_eq_or_imp, exists_eq_left,
    Pattern.derives_seq_literal, Pattern.derives_seq_single, reads, derives_captureEmpty]
  constructor
  · rintro (⟨item, rfl, known, nonempty, rfl⟩ | ⟨rfl, rfl⟩)
    · exact ⟨item, known, by simp [parameterSuffix, nonempty], rfl⟩
    · exact ⟨[], ableNil, rfl, rfl⟩
  · rintro ⟨item, known, rfl, rfl⟩
    by_cases nonempty : item = []
    · subst nonempty
      exact .inr ⟨rfl, rfl⟩
    · exact .inl ⟨item, by simp [parameterSuffix, nonempty], known, nonempty, rfl⟩

/-- A text under the name of a path parameter. -/
theorem derives_parameterText (parameter : field.operator = .parameter) :
    Derives (Pattern.seq [field.writtenName,
        .choice [field.parameterText, field.captureEmpty .value]]).readings text marks ↔
      ∃ item, field.IsWritten item ∧
        text = field.operator.withName field.occurrence.name item ∧
        marks = field.nameMarks ++ [field.mark .value item] := by
  have named : field.operator.isNamed = true := by rw [parameter]; rfl
  simp only [derives_afterName, Pattern.derives_seq_single, Field.parameterText,
    derives_parameterValue (fun _ _ => derives_captureSome) Percent.Written.nil,
    withName_of_parameter parameter, nameMarks_of_named named]
  constructor
  · rintro ⟨_, _, rfl, rfl, item, known, rfl, rfl⟩
    exact ⟨item, known, rfl, rfl⟩
  · rintro ⟨item, known, rfl, rfl⟩
    exact ⟨_, _, rfl, rfl, item, known, rfl, rfl⟩

/-- An entry that is a path parameter of its own. -/
theorem derives_parameterEntry (parameter : field.operator = .parameter)
    (apart : field.occurrence.isExploded = true) :
    Derives field.parameterEntry.readings text marks ↔ ∃ entry : Text × Text,
      (field.IsWritten entry.1 ∧ field.IsWritten entry.2) ∧ text = field.entryText entry ∧
        marks = field.entryMarks entry := by
  have same : ∀ entry : Text × Text,
      field.entryText entry = entry.1 ++ parameterSuffix entry.2 := by
    intro entry
    have named : field.operator.isNamed = true := by rw [parameter]; rfl
    simp [entryText, apart, Operator.entryContribution, named, withName_of_parameter parameter]
  rw [parameterEntry, capture, Pattern.derives_capture]
  simp only [@Pattern.derives_seq_cons _ _ _ (field.captureChars .key),
    Pattern.derives_seq_single, derives_captureChars,
    derives_parameterValue (fun _ _ => derives_captureSome) Percent.Written.nil, entryMarks, same]
  constructor
  · rintro ⟨_, ⟨key, _, _, _, rfl, rfl, ⟨written, rfl⟩, item, writtenNext, rfl, rfl⟩, rfl⟩
    exact ⟨(key, item), ⟨written, writtenNext⟩, rfl, rfl⟩
  · rintro ⟨⟨key, item⟩, ⟨written, writtenNext⟩, rfl, rfl⟩
    exact ⟨_, ⟨key, _, _, _, rfl, rfl, ⟨written, rfl⟩, item, writtenNext, rfl, rfl⟩, rfl⟩

/-- At least one code point of a truncated text. -/
theorem derives_someCodePoints (field : Field) {most : Nat} (positive : 1 ≤ most) (text : Text)
    (marks : List (Site × Option Text)) :
    Derives (field.capture .value (field.operator.codePoints 1 most)).readings text marks ↔
      (∃ count ≤ most, Percent.InCodePoints field.operator.allowsReserved count text) ∧
        text ≠ [] ∧ marks = [field.mark .value text] := by
  rw [derives_captureCodePoints positive]
  constructor
  · rintro ⟨⟨count, some_, bound, points⟩, rfl⟩
    exact ⟨⟨count, bound, points⟩, points.pos_iff.mp some_, rfl⟩
  · rintro ⟨⟨count, bound, points⟩, nonempty, rfl⟩
    exact ⟨⟨count, points.pos_iff.mpr nonempty, bound, points⟩, rfl⟩

/-- The items of a list under the name of a path parameter: a single one is written like a
text. -/
theorem derives_parameterList :
    Derives (Pattern.choice [field.parameterText,
        .seq [.literal ['='], .elements (field.captureChars .value) ',' true true],
        field.captureEmpty .value]).readings text marks ↔
      ∃ texts : List Text, texts ≠ [] ∧ (∀ item ∈ texts, field.IsWritten item) ∧
        text = parameterSuffix (Text.joined ',' texts) ∧
        marks = texts.map (field.mark .value) := by
  rw [Pattern.derives_choice]
  simp only [List.mem_cons, List.not_mem_nil, or_false, exists_eq_or_imp, exists_eq_left,
    Field.parameterText, Pattern.derives_seq_literal, Pattern.derives_seq_single,
    derives_captureSome, derives_list, derives_captureEmpty]
  constructor
  · rintro (⟨item, rfl, known, nonempty, rfl⟩ |
      ⟨_, rfl, texts, nonempty, several, known, rfl, rfl⟩ | ⟨rfl, rfl⟩)
    · exact ⟨[item], by simp, by simpa using known, by simp [parameterSuffix, nonempty], rfl⟩
    · have long : Text.joined ',' texts ≠ [] := by
        rw [Ne, Text.joined_eq_nil_iff nonempty]
        rintro rfl
        simp at several
      exact ⟨texts, nonempty, known, by simp [parameterSuffix, long], rfl⟩
    · exact ⟨[[]], by simp, by simpa using isWritten_nil, rfl, rfl⟩
  · rintro ⟨texts, nonempty, known, rfl, rfl⟩
    by_cases short : Text.joined ',' texts = []
    · rw [Text.joined_eq_nil_iff nonempty] at short
      subst short
      exact .inr (.inr ⟨rfl, rfl⟩)
    · rw [parameterSuffix, if_neg short]
      by_cases single : texts.length = 1
      · obtain ⟨item, rfl⟩ := List.length_eq_one_iff.mp single
        exact .inl ⟨item, by simp, by simpa using known, by simpa using short, rfl⟩
      · have := List.length_pos_iff.mpr nonempty
        exact .inr (.inl ⟨_, rfl, texts, nonempty, fun _ => by omega, known, rfl, rfl⟩)

/-- The entries of a map under the name of a path parameter. A bare name is read, too. -/
theorem derives_parameterMap (whole : field.occurrence.isExploded = false) :
    Derives (Pattern.choice [.seq [.literal ['='], field.flatEntries],
        field.captureEmpty .value]).readings text marks ↔
      (∃ entries : List (Text × Text), entries ≠ [] ∧
        (∀ entry ∈ entries, field.IsWritten entry.1 ∧ field.IsWritten entry.2) ∧
        text = parameterSuffix (Text.joined ',' (entries.map field.entryText)) ∧
        marks = entries.flatMap field.entryMarks) ∨
      text = [] ∧ marks = [field.mark .value []] := by
  have long : ∀ entries : List (Text × Text), entries ≠ [] →
      parameterSuffix (Text.joined ',' (entries.map field.entryText)) =
        '=' :: Text.joined ',' (entries.map field.entryText) := by
    intro entries nonempty
    rw [parameterSuffix, if_neg]
    rw [Text.joined_eq_nil_iff (by simpa using nonempty)]
    intro nothing
    obtain ⟨entry, rfl, empty⟩ := List.map_eq_singleton_iff.mp nothing
    rw [entryText_of_whole whole] at empty
    simp at empty
  rw [Pattern.derives_choice]
  simp only [List.mem_cons, List.not_mem_nil, or_false, exists_eq_or_imp, exists_eq_left,
    Pattern.derives_seq_literal, Pattern.derives_seq_single, flatEntries,
    derives_map (entryText_of_whole whole), derives_captureEmpty]
  apply or_congr_left
  constructor
  · rintro ⟨_, rfl, entries, nonempty, known, rfl, rfl⟩
    exact ⟨entries, nonempty, known, (long entries nonempty).symm, rfl⟩
  · rintro ⟨entries, nonempty, known, rfl, rfl⟩
    exact ⟨_, long entries nonempty, entries, nonempty, known, rfl, rfl⟩

/-- A path parameter is read as what its field writes for some content: the whole content, or one
text or entry of it if the field is exploded. The bare name is read as the empty text. -/
theorem derives_parameterItem (parameter : field.operator = .parameter)
    (formed : field.forms.list = true ∨ field.forms.map = true) :
    Derives field.parameterItem.readings text marks ↔
      ∃ content, field.Admits content ∧ (field.occurrence.isExploded = true → content.isSingle) ∧
        text = field.written content ∧ marks = field.marks content := by
  have named : field.operator.isNamed = true := by rw [parameter]; rfl
  have named_eq := withName_of_parameter parameter
  have nameMarks_eq := nameMarks_of_named named
  cases modifier : field.occurrence.modifier with
  | truncated length =>
    have whole := isExploded_of_truncated modifier
    have reads := field.derives_someCodePoints (Variable.one_le_of_truncated modifier)
    simp only [Field.parameterItem, modifier, derives_afterName, Pattern.derives_seq_single,
      derives_parameterValue reads ⟨0, Nat.zero_le _, .nil⟩, exists_truncated_iff modifier,
      written_of_whole whole, marks_of_whole whole, whole, named_eq, nameMarks_eq, units,
      valueMarks, Text.joined_singleton, List.map_cons, List.map_nil, List.singleton_append]
    constructor
    · rintro ⟨_, _, rfl, rfl, item, points, rfl, rfl⟩
      exact ⟨item, ⟨by simp, rfl, rfl⟩, points⟩
    · rintro ⟨item, ⟨-, rfl, rfl⟩, points⟩
      exact ⟨_, _, rfl, rfl, item, points, rfl, rfl⟩
  | exploded =>
    have apart := isExploded_of modifier
    simp only [Field.parameterItem, modifier, derives_options,
      derives_parameterText parameter, derives_parameterEntry parameter apart,
      exists_single_iff modifier, or_and_right, or_assoc]
  | plain =>
    have whole := isExploded_of_plain modifier
    have bare : field.parameterItem = field.options
        (.seq [field.writtenName, .choice [field.parameterText, field.captureEmpty .value]])
        (.seq [field.writtenName, .choice [field.parameterText,
          .seq [.literal ['='], .elements (field.captureChars .value) ',' true true],
          field.captureEmpty .value]])
        (.seq [field.writtenName,
          .choice [.seq [.literal ['='], field.flatEntries], field.captureEmpty .value]]) := by
      simp only [Field.parameterItem, modifier]
    rw [bare, derives_options, derives_parameterText parameter]
    simp only [derives_afterName, Pattern.derives_seq_single, derives_parameterList,
      derives_parameterMap whole, written_of_whole whole, marks_of_whole whole, whole, named_eq,
      nameMarks_eq, List.singleton_append]
    constructor
    · rintro (⟨isText, item, known, rfl, rfl⟩ |
        ⟨listed, _, _, rfl, rfl, texts, nonempty, known, rfl, rfl⟩ |
        ⟨mapped, _, _, rfl, rfl, ⟨entries, nonempty, known, rfl, rfl⟩ | ⟨rfl, rfl⟩⟩)
      · refine ⟨.texts [item], ⟨by simp, by simpa using known, ?_⟩, by simp, by simp [units], rfl⟩
        simp only [AdmitsTexts, modifier]
        exact .inr (.inl ⟨isText, rfl⟩)
      · refine ⟨.texts texts, ⟨nonempty, known, ?_⟩, by simp, rfl, rfl⟩
        simp only [AdmitsTexts, modifier]
        exact .inl listed
      · exact ⟨.entries entries, ⟨nonempty, known, mapped, by simp [Variable.length?, modifier]⟩,
          by simp, rfl, rfl⟩
      · exact ⟨.texts [[]], ⟨by simp, by simpa using isWritten_nil, by simp [AdmitsTexts, modifier,
          parameter]⟩, by simp, rfl, rfl⟩
    · rintro ⟨texts | entries, admitted, -, rfl, rfl⟩
      · obtain ⟨nonempty, known, admitted⟩ := admitted
        simp only [AdmitsTexts, modifier] at admitted
        rcases admitted with listed | ⟨isText, single⟩ | ⟨-, rfl⟩
        · exact .inr (.inl ⟨listed, _, _, rfl, rfl, texts, nonempty, known, rfl, rfl⟩)
        · obtain ⟨item, rfl⟩ := List.length_eq_one_iff.mp single
          exact .inl ⟨isText, item, by simpa using known, by simp [units], rfl⟩
        · rcases formed with listed | mapped
          · exact .inr (.inl ⟨listed, _, _, rfl, rfl, [[]], nonempty, known, rfl, rfl⟩)
          · exact .inr (.inr ⟨mapped, _, _, rfl, rfl, .inr ⟨rfl, rfl⟩⟩)
      · obtain ⟨nonempty, known, mapped, -⟩ := admitted
        exact .inr (.inr ⟨mapped, _, _, rfl, rfl, .inl ⟨entries, nonempty, known, rfl, rfl⟩⟩)

/-- **What a field reads where names are written**: what its contents are written as, and of
an exploded content a single item. -/
theorem derives_named (named : field.operator.isNamed = true)
    (formed : field.forms.list = true ∨ field.forms.map = true) :
    Derives field.named.readings text marks ↔
      ∃ content, field.AdmitsItem content ∧ text = field.written content ∧
        marks = field.marks content := by
  simp only [AdmitsItem, and_assoc]
  unfold Field.named
  split
  · rename_i parameter
    exact derives_parameterItem parameter formed
  · rename_i other
    exact derives_queryItem named other

end Field

end UriTemplates
