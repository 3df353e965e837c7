import UriTemplates.Proofs.Template.Preference
import UriTemplates.Proofs.Template.Runs

/-!
# Every field of a first reading is read first

What stands around a field decides which span of the text is left to it, but the span is then read
as the field reads it first by itself: along the first reading of an expression without names, every
field is read as it is read alone (`Expression.exists_isAble_of_whole?`). So the shape of a
variable is the first one that fits its span (`Field.IsForemost`): a text before a list where
reserved characters are left as they are, and no map that could be texts.
-/

namespace UriTemplates

open Readings (Derives)

namespace Pattern

variable {κ : Type} {text : Text} {marks : List (κ × Option Text)}

/-- What is read after a literal text is read as it is alone. -/
theorem exists_of_whole?_seq_literal {written : Text} {nodes : List (Pattern κ)}
    (read : (seq (literal written :: nodes)).readings.whole? text = some marks) :
    ∃ back, text = written ++ back ∧ (seq nodes).readings.whole? back = some marks := by
  obtain ⟨back, rfl⟩ := exists_of_isSome_whole? (Option.isSome_of_eq_some read)
  rw [whole?_seq_literal] at read
  exact ⟨back, rfl, read⟩

/-- What an optional pattern reads is read as it is alone, or is nothing. -/
theorem of_whole?_optional {inner : Pattern κ}
    (read : (optional inner false).readings.whole? text = some marks) :
    inner.readings.whole? text = some marks ∨ text = [] ∧ marks = [] := by
  rw [whole?_optional, Option.or_eq_some_iff] at read
  rcases read with here | ⟨-, ended⟩
  · exact .inl here
  · split at ended
    · rename_i nothing
      cases ended
      exact .inr ⟨nothing, rfl⟩
    · cases ended

/-- What a choice reads is read as one of its options reads it alone. -/
theorem exists_of_whole?_choice {options : List (Pattern κ)}
    (read : (choice options).readings.whole? text = some marks) :
    ∃ option ∈ options, option.readings.whole? text = some marks := by
  rw [whole?_choice] at read
  exact List.exists_of_findSome?_eq_some read

end Pattern

namespace Field

variable {field : Field} {operator : Operator} {fields : List Field} {text : Text}
  {marks : List (Site × Option Text)} {able : Field → Content → Prop}

/-- Whether what a field without a name reads first is a content with a property. -/
def ReadsFirst (field : Field) (able : Content → Prop) : Prop :=
  ∀ span marks, field.unnamed.readings.whole? span = some marks →
    ∃ content, field.Admits content ∧ able content ∧ span = field.written content ∧
      marks = field.marks content

/-- Along the first reading of several fields, the first one is read alone, or before others, or
left out. -/
theorem of_whole?_someOf {next : Field} {rest : List Field}
    (read : (someOf (field :: next :: rest)).readings.whole? text = some marks) :
    field.unnamed.readings.whole? text = some marks ∨
      (∃ front back before after, text = front ++ ',' :: back ∧ marks = before ++ after ∧
        field.unnamed.readings.whole? front = some before ∧
        (someOf (next :: rest)).readings.whole? back = some after) ∨
      (someOf (next :: rest)).readings.whole? text = some marks := by
  rw [someOf_several] at read
  split at read
  · obtain ⟨front, later, before, after, rfl, rfl, here, continued⟩ :=
      Pattern.exists_of_whole?_seq read
    rw [Pattern.readings_seq_single] at continued
    rcases Pattern.of_whole?_optional continued with more | ⟨rfl, rfl⟩
    · obtain ⟨back, rfl, others⟩ := Pattern.exists_of_whole?_seq_literal more
      rw [Pattern.readings_seq_single] at others
      exact .inr (.inl ⟨front, back, before, after, rfl, rfl, here, others⟩)
    · rw [List.append_nil, List.append_nil]
      exact .inl here
  · obtain ⟨option, member, chosen⟩ := Pattern.exists_of_whole?_choice read
    simp only [List.mem_cons, List.not_mem_nil, or_false] at member
    rcases member with rfl | rfl | rfl
    · obtain ⟨front, later, before, after, rfl, rfl, here, continued⟩ :=
        Pattern.exists_of_whole?_seq chosen
      obtain ⟨back, rfl, others⟩ := Pattern.exists_of_whole?_seq_literal continued
      rw [Pattern.readings_seq_single] at others
      exact .inr (.inl ⟨front, back, before, after, rfl, rfl, here, others⟩)
    · exact .inl chosen
    · exact .inr (.inr chosen)

end Field

namespace Selection

variable {selection : Selection} {fields : List Field} {able : Field → Content → Prop}

/-- Whether a selection is made for some fields, with contents that have a property. -/
structure IsAble (selection : Selection) (fields : List Field)
    (able : Field → Content → Prop) : Prop where
  isOf : selection.IsOf fields
  able : ∀ chosen ∈ selection, ∀ content ∈ chosen.2, able chosen.1 content

/-- To leave out all fields is a selection of able contents. -/
theorem isAble_leavingOut (fields : List Field) (able : Field → Content → Prop) :
    (leavingOut fields).IsAble fields able where
  isOf := isOf_leavingOut fields
  able chosen member content known := by
    obtain ⟨field, -, rfl⟩ := List.mem_map.mp member
    cases known

theorem IsAble.cons_some (later : selection.IsAble fields able) {field : Field} {content : Content}
    (admitted : field.Admits content) (here : able field content) :
    IsAble ((field, some content) :: selection) (field :: fields) able where
  isOf := later.isOf.cons fun _ same => Option.some.inj same ▸ admitted
  able := List.forall_mem_cons.mpr ⟨fun _ same => Option.some.inj same ▸ here, later.able⟩

theorem IsAble.cons_none (later : selection.IsAble fields able) (field : Field) :
    IsAble ((field, none) :: selection) (field :: fields) able where
  isOf := later.isOf.cons fun _ same => nomatch same
  able := List.forall_mem_cons.mpr ⟨fun _ same => (nomatch same), later.able⟩

end Selection

namespace Field

variable {field : Field} {operator : Operator} {fields : List Field} {text : Text}
  {marks : List (Site × Option Text)} {able : Field → Content → Prop}

/-- Along the first reading of fields with commas between them, every field is read alone. The
induction is on the fields. -/
theorem exists_isAble_of_someOf (each : ∀ field ∈ fields, field.ReadsFirst (able field))
    (nonempty : fields ≠ []) (read : (someOf fields).readings.whole? text = some marks) :
    ∃ selection : Selection, selection.IsAble fields able ∧ selection.contributions ≠ [] ∧
      text = Text.joined ',' selection.contributions ∧ marks = selection.marks := by
  induction fields generalizing text marks with
  | nil => exact (nonempty rfl).elim
  | cons field rest ih =>
    obtain ⟨first, later⟩ := List.forall_mem_cons.mp each
    have only : field.unnamed.readings.whole? text = some marks →
        ∃ selection : Selection, selection.IsAble (field :: rest) able ∧
          selection.contributions ≠ [] ∧ text = Text.joined ',' selection.contributions ∧
          marks = selection.marks := by
      intro alone
      obtain ⟨content, admitted, here, rfl, rfl⟩ := first text marks alone
      exact ⟨(field, some content) :: Selection.leavingOut rest,
        (Selection.isAble_leavingOut rest able).cons_some admitted here, by simp, by simp, by simp⟩
    cases rest with
    | nil => exact only read
    | cons next rest =>
      rcases of_whole?_someOf read with
        alone | ⟨front, back, before, after, rfl, rfl, alone, more⟩ | more
      · exact only alone
      · obtain ⟨content, admitted, here, rfl, rfl⟩ := first front before alone
        obtain ⟨selection, isAble, some_, rfl, rfl⟩ := ih later (List.cons_ne_nil next rest) more
        exact ⟨(field, some content) :: selection, isAble.cons_some admitted here, by simp,
          (Text.joined_cons _ some_).symm, by simp⟩
      · obtain ⟨selection, isAble, some_, rfl, rfl⟩ := ih later (List.cons_ne_nil next rest) more
        exact ⟨(field, none) :: selection, isAble.cons_none field, by simpa using some_, rfl, rfl⟩

/-- Along its first reading a segment is left out, or its field is read alone. -/
theorem of_whole?_segment (read : field.segment.readings.whole? text = some marks) :
    (text = [] ∧ marks = []) ∨ ∃ span, text = field.operator.symbol ++ span ∧
      field.unnamed.readings.whole? span = some marks := by
  have written : (Pattern.seq [.literal field.operator.symbol,
      field.unnamed]).readings.whole? text = some marks →
        ∃ span, text = field.operator.symbol ++ span ∧
          field.unnamed.readings.whole? span = some marks := by
    intro here
    obtain ⟨span, rfl, alone⟩ := Pattern.exists_of_whole?_seq_literal here
    rw [Pattern.readings_seq_single] at alone
    exact ⟨span, rfl, alone⟩
  unfold segment at read
  split at read
  · exact .inr (written read)
  · exact (Pattern.of_whole?_optional read).symm.imp_right written

/-- Along the first reading of segments, every field is read alone. -/
theorem exists_isAble_of_segments (each : ∀ field ∈ fields, field.ReadsFirst (able field))
    (same : ∀ field ∈ fields, field.operator = operator)
    (read : (Pattern.seq (fields.map segment)).readings.whole? text = some marks) :
    ∃ selection : Selection, selection.IsAble fields able ∧
      text = selection.contributions.flatMap (operator.symbol ++ ·) ∧ marks = selection.marks := by
  induction fields generalizing text marks with
  | nil =>
    obtain ⟨rfl, rfl⟩ := Pattern.derives_seq_nil.mp (Readings.derives_of_whole? read)
    exact ⟨[], Selection.isAble_leavingOut [] able, rfl, rfl⟩
  | cons field fields ih =>
    obtain ⟨first, later⟩ := List.forall_mem_cons.mp each
    obtain ⟨own, others⟩ := List.forall_mem_cons.mp same
    obtain ⟨front, back, before, after, rfl, rfl, here, more⟩ := Pattern.exists_of_whole?_seq read
    obtain ⟨selection, isAble, rfl, rfl⟩ := ih later others more
    rcases of_whole?_segment here with ⟨rfl, rfl⟩ | ⟨span, rfl, alone⟩
    · exact ⟨(field, none) :: selection, isAble.cons_none field, rfl, rfl⟩
    · obtain ⟨content, admitted, able, rfl, rfl⟩ := first span before alone
      exact ⟨(field, some content) :: selection, isAble.cons_some admitted able, by simp [own],
        by simp⟩

end Field

/-- **Every field of a first reading is read first**: along the first reading of an expression
without names, each field that is not left out is read as it is read alone. -/
theorem Expression.exists_isAble_of_whole? {operator : Operator} {fields : List Field} {text : Text}
    {marks : List (Site × Option Text)} {able : Field → Content → Prop}
    (unnamed : operator.isNamed = false) (same : ∀ field ∈ fields, field.operator = operator)
    (nonempty : fields ≠ []) (each : ∀ field ∈ fields, field.ReadsFirst (able field))
    (read : (patternOf operator fields).readings.whole? text = some marks) :
    ∃ selection : Selection, selection.IsAble fields able ∧
      text = operator.assemble selection.contributions ∧ marks = selection.marks := by
  have nothing : ∃ selection : Selection, selection.IsAble fields able ∧
      ([] : Text) = operator.assemble selection.contributions ∧ [] = selection.marks :=
    ⟨_, Selection.isAble_leavingOut fields able, by simp [Operator.assemble], by simp⟩
  have several : ∀ {back after}, operator.separator = ',' →
      (Field.someOf fields).readings.whole? back = some after →
      ∃ selection : Selection, selection.IsAble fields able ∧
        operator.first ++ back = operator.assemble selection.contributions ∧
        after = selection.marks := by
    intro back after comma some_
    obtain ⟨selection, isAble, written, rfl, rfl⟩ :=
      Field.exists_isAble_of_someOf each nonempty some_
    exact ⟨selection, isAble, by simp [Operator.assemble, written, comma], rfl⟩
  cases operator with
  | simple =>
    rcases Pattern.of_whole?_optional read with some_ | ⟨rfl, rfl⟩
    · exact several rfl some_
    · exact nothing
  | reserved =>
    rcases Pattern.of_whole?_optional read with some_ | ⟨rfl, rfl⟩
    · exact several rfl some_
    · exact nothing
  | fragment =>
    rcases Pattern.of_whole?_optional read with after | ⟨rfl, rfl⟩
    · obtain ⟨back, rfl, some_⟩ := Pattern.exists_of_whole?_seq_literal after
      rw [Pattern.readings_seq_single] at some_
      exact several rfl some_
    · exact nothing
  | label =>
    obtain ⟨selection, isAble, rfl, rfl⟩ := Field.exists_isAble_of_segments each same read
    exact ⟨selection, isAble, (assemble_eq_flatMap rfl rfl _).symm, rfl⟩
  | path =>
    obtain ⟨selection, isAble, rfl, rfl⟩ := Field.exists_isAble_of_segments each same read
    exact ⟨selection, isAble, (assemble_eq_flatMap rfl rfl _).symm, rfl⟩
  | parameter => cases unnamed
  | query => cases unnamed
  | continuation => cases unnamed

/-- A text of written texts is written, if what stands between them is. -/
theorem Percent.Written.joined {allowReserved : Bool} {separator : Char}
    (kept : isKept allowReserved separator = true) {texts : List Text}
    (each : ∀ text ∈ texts, Written allowReserved text) :
    Written allowReserved (Text.joined separator texts) := by
  induction texts with
  | nil => exact .nil
  | cons text texts ih =>
    obtain ⟨first, later⟩ := List.forall_mem_cons.mp each
    by_cases last : texts = []
    · rw [last, Text.joined_singleton]
      exact first
    · rw [Text.joined_cons text last]
      exact first.append (.kept kept (ih later))

namespace Field

variable {field : Field} {content : Content}

/-- Whether a content has the shape that a field is read as first. -/
structure IsForemost (field : Field) (content : Content) : Prop where
  /-- The content is no map that could be texts. -/
  preferred : field.preferred.Admits content
  /-- The content is no list that could be a text. -/
  single : field.occurrence.isExploded = false → field.operator.allowsReserved = true →
    ∃ text, content = .texts [text]

/-- Where commas may stand in a value, a field that is not exploded is written like a value. -/
theorem isWritten_written (unnamed : field.operator.isNamed = false)
    (whole : field.occurrence.isExploded = false) (reserved : field.operator.allowsReserved = true)
    (admitted : field.Admits content) : field.IsWritten (field.written content) := by
  have comma : Percent.isKept field.operator.allowsReserved ',' = true := by
    rw [reserved]
    rfl
  rw [written_of_whole whole, withName_of_unnamed unnamed]
  refine Percent.Written.joined comma fun text member => ?_
  cases content with
  | texts written => exact admitted.2.1 text member
  | entries written =>
    obtain ⟨entry, found, rfl⟩ := List.mem_map.mp member
    obtain ⟨key, item⟩ := admitted.2.1 entry found
    rw [entryText_of_whole whole]
    exact key.append (.kept comma item)

/-- A single text is written as it is where no names are written. -/
theorem written_single (unnamed : field.operator.isNamed = false)
    (whole : field.occurrence.isExploded = false) (text : Text) :
    field.written (.texts [text]) = text := by
  rw [written_of_whole whole, withName_of_unnamed unnamed, units, Text.joined_singleton, id]

/-- A field that may be a list and is neither truncated nor exploded may be any text. -/
theorem admits_single (listed : field.forms.list = true)
    (modifier : field.occurrence.modifier = .plain)
    {text : Text} (written : field.IsWritten text) : field.Admits (.texts [text]) := by
  refine ⟨List.cons_ne_nil _ _, List.forall_mem_singleton.mpr written, ?_⟩
  simp only [AdmitsTexts, modifier]
  exact .inl listed

/-- **What a field is read as first**, where hints leave it open: a text if it is not exploded and
reserved characters are left as they are, and never a map that could be texts. -/
theorem readsFirst_isForemost (unnamed : field.operator.isNamed = false)
    (listed : field.forms.list = true)
    (isText : field.occurrence.isExploded = false → field.forms.text = true) :
    field.ReadsFirst field.IsForemost := by
  intro span marks read
  have formed : field.preferred.forms.list = true := listed
  have unnamedToo : field.preferred.operator.isNamed = false := unnamed
  -- A field is read as if it had no map that could be texts.
  have readToo := ((alike_unnamed unnamed listed).whole?_eq span).symm.trans read
  obtain ⟨content, admitted, rfl, rfl⟩ := (derives_unnamed unnamedToo).mp
    (Readings.derives_of_whole? readToo)
  have admittedHere := admits_of_preferred admitted
  cases modifier : field.occurrence.modifier with
  | exploded =>
    refine ⟨content, admittedHere, ⟨admitted, fun whole => ?_⟩, rfl, rfl⟩
    rw [isExploded_of modifier] at whole
    cases whole
  | truncated length =>
    refine ⟨content, admittedHere, ⟨admitted, fun _ _ => ?_⟩, rfl, rfl⟩
    have shown : ∃ known, field.Admits known ∧ known = content := ⟨content, admittedHere, rfl⟩
    obtain ⟨text, same, -⟩ := (exists_truncated_iff modifier).mp shown
    exact ⟨text, same.symm⟩
  | plain =>
    have whole := isExploded_of_plain modifier
    by_cases reserved : field.operator.allowsReserved = true
    · -- The whole span can be read as a text, and texts are tried first.
      have written : field.IsWritten (field.written content) :=
        isWritten_written unnamed whole reserved admittedHere
      have untruncated : field.occurrence.length? = none := by simp [Variable.length?, modifier]
      have first := whole?_unnamed_text unnamed untruncated (isText whole) written
      rw [written_single unnamed whole] at first
      have same := Option.some.inj (read.symm.trans first)
      exact ⟨.texts [field.written content], admits_single listed modifier written,
        ⟨@admits_single field.preferred formed modifier _ written, fun _ _ => ⟨_, rfl⟩⟩,
        (written_single unnamed whole _).symm, same⟩
    · exact ⟨content, admittedHere, ⟨admitted, fun _ kept => (reserved kept).elim⟩, rfl, rfl⟩

end Field

end UriTemplates
