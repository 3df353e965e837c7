import UriTemplates.Proofs.Pattern.Joined
import UriTemplates.Proofs.Template.Items
import UriTemplates.Proofs.Template.Separation

/-!
# What an item stands for

Where names are written, an item says by what stands before its equals sign to which field it
belongs (`Field.head`), and the rest of it determines the content, provided that the forms of
the field leave no choice (`Field.content_eq_of_written`). So an item is read as its field and
its content unless an earlier field has the same name (`Field.whole?_amongst_named`).
-/

namespace UriTemplates

open Text

/-- Where names are written, reserved characters are encoded. -/
theorem Operator.allowsReserved_of_named {operator : Operator} (named : operator.isNamed = true) :
    operator.allowsReserved = false := by
  cases operator with
  | parameter => rfl
  | query => rfl
  | continuation => rfl
  | _ => cases named

/-- Where names are written, something introduces them. -/
theorem Operator.first_ne_nil {operator : Operator} (named : operator.isNamed = true) :
    operator.first ≠ [] := by
  cases operator with
  | parameter => exact List.cons_ne_nil _ _
  | query => exact List.cons_ne_nil _ _
  | continuation => exact List.cons_ne_nil _ _
  | _ => cases named

/-- A name and a text are determined by what they are written as. -/
theorem Operator.withName_injective {operator : Operator} (named : operator.isNamed = true)
    {name other text more : Text} (apart : '=' ∉ name) (apartOther : '=' ∉ other)
    (same : operator.withName name text = operator.withName other more) :
    name = other ∧ text = more := by
  by_cases parameter : operator = .parameter
  · rw [Field.withName_of_parameter parameter, Field.withName_of_parameter parameter] at same
    simp only [Field.parameterSuffix] at same
    split_ifs at same with empty emptyOther emptyOther
    · simp only [List.append_nil] at same
      exact ⟨same, empty.trans emptyOther.symm⟩
    · rw [List.append_nil] at same
      exact (apart (same ▸ List.mem_append_right _ List.mem_cons_self)).elim
    · rw [List.append_nil] at same
      exact (apartOther (same ▸ List.mem_append_right _ List.mem_cons_self)).elim
    · exact append_cons_inj apart apartOther same
  · rw [Field.withName_of_query named parameter, Field.withName_of_query named parameter] at same
    exact append_cons_inj apart apartOther same

namespace Field

variable {field : Field} {content other : Content}

/-- A value that is written without reserved characters does not hold one of them. -/
theorem notMem_of_unreserved (unreserved : field.operator.allowsReserved = false) {c : Char}
    (refused : Percent.isKept false c = false) (notPercent : c ≠ '%') {text : Text}
    (written : field.IsWritten text) : c ∉ text := by
  rw [IsWritten, unreserved] at written
  exact written.notMem refused notPercent

/-- Where names are written, no value holds an equals sign. -/
theorem equals_notMem (named : field.operator.isNamed = true) {text : Text}
    (written : field.IsWritten text) : '=' ∉ text :=
  notMem_of_unreserved (Operator.allowsReserved_of_named named) (by decide) (by decide) written

/-- Where reserved characters are encoded, no value holds a comma. -/
theorem comma_notMem (unreserved : field.operator.allowsReserved = false) {text : Text}
    (written : field.IsWritten text) : ',' ∉ text :=
  notMem_of_unreserved unreserved (by decide) (by decide) written

/-- What an item has for a name: its key, if it is an entry of its own. -/
def head (field : Field) : Content → Text
  | .entries [entry] => if field.occurrence.isExploded then entry.1 else field.occurrence.name
  | _ => field.occurrence.name

/-- An item of a field that is not exploded has the name of the field. -/
theorem head_of_whole (whole : field.occurrence.isExploded = false) (content : Content) :
    field.head content = field.occurrence.name := by
  unfold head
  split
  · simp [whole]
  · rfl

/-- What an item has for a name is written in characters of values. -/
theorem isWritten_head (admitted : field.Admits content) :
    field.IsWritten (field.head content) := by
  unfold head
  split
  · split
    · exact (admitted.2.1 _ List.mem_cons_self).1
    · exact field.occurrence.written_name _
  · exact field.occurrence.written_name _

theorem written_text_of_exploded (apart : field.occurrence.isExploded = true) (text : Text) :
    field.written (.texts [text]) = field.operator.withName field.occurrence.name text := by
  simp [written, items, apart]

theorem written_entry_of_exploded (named : field.operator.isNamed = true)
    (apart : field.occurrence.isExploded = true) (entry : Text × Text) :
    field.written (.entries [entry]) = field.operator.withName entry.1 entry.2 := by
  simp [written, items, apart, entryText, Operator.entryContribution, named]

/-- An item is written after its head. -/
theorem exists_written_eq (named : field.operator.isNamed = true)
    (admitted : field.AdmitsItem content) :
    ∃ text, field.written content = field.operator.withName (field.head content) text := by
  cases apart : field.occurrence.isExploded with
  | false => exact ⟨_, by rw [written_of_whole apart, head_of_whole apart]⟩
  | true =>
    have single := admitted.2 apart
    cases content with
    | texts written =>
      obtain ⟨text, rfl⟩ := List.length_eq_one_iff.mp single
      exact ⟨text, written_text_of_exploded apart text⟩
    | entries written =>
      obtain ⟨entry, rfl⟩ := List.length_eq_one_iff.mp single
      exact ⟨entry.2, by rw [written_entry_of_exploded named apart]; simp [head, apart]⟩

/-- Whether the forms of a field leave no choice when an item with a content is read. -/
structure Tells (field : Field) (content : Content) : Prop where
  exploded : field.occurrence.isExploded = true →
    field.forms.text = false ∧ (field.forms.list = false ∨ field.forms.map = false)
  whole : field.occurrence.isExploded = false → field.forms.list = true →
    field.forms.map = true → ∃ text, content = .texts [text]

/-- The keys and the items of entries, one after the other, are what a whole map joins. -/
theorem joined_entries (whole : field.occurrence.isExploded = false)
    (entries : List (Text × Text)) :
    joined ',' (field.units (.entries entries)) =
      joined ',' (entries.flatMap fun entry => [entry.1, entry.2]) := by
  have groups : field.units (.entries entries) =
      (entries.map fun entry => [entry.1, entry.2]).map (joined ',') := by
    rw [units, List.map_map]
    apply List.map_congr_left
    intro entry _
    rw [entryText_of_whole whole]
    simp
  rw [groups, joined_flatten, List.flatMap_def]
  intro group member
  obtain ⟨entry, -, rfl⟩ := List.mem_map.mp member
  exact List.cons_ne_nil _ _

/-- Entries are known from their keys and items one after the other. -/
theorem eq_of_flatMap_entries {first second : List (Text × Text)}
    (same : (first.flatMap fun entry => [entry.1, entry.2]) =
      second.flatMap fun entry => [entry.1, entry.2]) : first = second := by
  induction first generalizing second with
  | nil => cases second with
    | nil => rfl
    | cons entry second => cases same
  | cons entry first ih =>
    cases second with
    | nil => cases same
    | cons next second =>
      simp only [List.flatMap_cons, List.cons_append, List.nil_append, List.cons.injEq] at same
      rw [Prod.ext same.1 same.2.1, ih same.2.2]

/-- Entries have keys and items. -/
theorem flatMap_entries_ne_nil {entries : List (Text × Text)} (nonempty : entries ≠ []) :
    (entries.flatMap fun entry => [entry.1, entry.2]) ≠ [] := by
  obtain ⟨entry, later, rfl⟩ := List.exists_cons_of_ne_nil nonempty
  exact List.cons_ne_nil _ _

/-- Where reserved characters are encoded, no key and no item holds a comma. -/
theorem notMem_flatMap_entries (unreserved : field.operator.allowsReserved = false)
    {entries : List (Text × Text)}
    (written : ∀ entry ∈ entries, field.IsWritten entry.1 ∧ field.IsWritten entry.2) :
    ∀ item ∈ entries.flatMap fun entry => [entry.1, entry.2], ',' ∉ item := by
  intro item member
  obtain ⟨entry, found, inside⟩ := List.mem_flatMap.mp member
  obtain ⟨key, value⟩ := written entry found
  rcases List.mem_pair.mp inside with rfl | rfl
  · exact comma_notMem unreserved key
  · exact comma_notMem unreserved value

/-- A single text is not written like entries. -/
theorem joined_text_ne_entries (unreserved : field.operator.allowsReserved = false)
    (whole : field.occurrence.isExploded = false) {text : Text} {entries : List (Text × Text)}
    (admitted : field.Admits (.texts [text])) (admittedEntries : field.Admits (.entries entries)) :
    joined ',' (field.units (.texts [text])) ≠ joined ',' (field.units (.entries entries)) := by
  intro same
  obtain ⟨entry, later, rfl⟩ := List.exists_cons_of_ne_nil admittedEntries.1
  have unseparated := comma_notMem unreserved (admitted.2.1 text List.mem_cons_self)
  rw [joined_entries whole, units, joined_singleton] at same
  rw [same] at unseparated
  exact unseparated (by simp [joined_cons_eq])

/-- Where a field may not be a list, its texts are a single one. -/
theorem exists_text_of_admits {texts : List Text} (admitted : field.Admits (.texts texts))
    (noList : field.forms.list = false) : ∃ text, texts = [text] := by
  have form := admitted.2.2
  unfold AdmitsTexts at form
  split at form
  · obtain ⟨text, rfl, -⟩ := form
    exact ⟨text, rfl⟩
  · simp only [noList, Bool.false_eq_true, false_or] at form
    exact List.length_eq_one_iff.mp form.2
  · simp only [noList, Bool.false_eq_true, false_or] at form
    rcases form with form | form
    · exact List.length_eq_one_iff.mp form.2
    · exact ⟨[], form.2⟩

theorem equals_notMem_name (named : field.operator.isNamed = true) :
    '=' ∉ field.occurrence.name :=
  equals_notMem named (field.occurrence.written_name _)

/-- An item of an exploded field is written in one way only, if its forms leave no choice. -/
theorem content_eq_of_exploded (named : field.operator.isNamed = true)
    (apart : field.occurrence.isExploded = true) (admitted : field.AdmitsItem content)
    (tells : field.Tells content) (admittedOther : field.AdmitsItem other)
    (same : field.written other = field.written content) : other = content := by
  have name := equals_notMem_name named
  obtain ⟨noText, one⟩ := tells.exploded apart
  have unmixed : ∀ {texts entries}, field.Admits (.texts texts) →
      ¬ field.Admits (.entries entries) := by
    intro texts entries admitted admittedEntries
    have form := admitted.2.2
    have mapped := admittedEntries.2.2.1
    rw [AdmitsTexts, modifier_of_exploded apart] at form
    simp only [noText, Bool.false_eq_true, false_and, or_false] at form
    rcases one with noList | noMap
    · exact Bool.noConfusion (noList.symm.trans form)
    · exact Bool.noConfusion (noMap.symm.trans mapped)
  have single := admitted.2 apart
  have singleOther := admittedOther.2 apart
  cases content with
  | texts written =>
    cases other with
    | texts writtenOther =>
      obtain ⟨text, rfl⟩ := List.length_eq_one_iff.mp single
      obtain ⟨textOther, rfl⟩ := List.length_eq_one_iff.mp singleOther
      rw [written_text_of_exploded apart, written_text_of_exploded apart] at same
      rw [(Operator.withName_injective named name name same).2]
    | entries writtenOther => exact (unmixed admitted.1 admittedOther.1).elim
  | entries written =>
    cases other with
    | texts writtenOther => exact (unmixed admittedOther.1 admitted.1).elim
    | entries writtenOther =>
      obtain ⟨entry, rfl⟩ := List.length_eq_one_iff.mp single
      obtain ⟨entryOther, rfl⟩ := List.length_eq_one_iff.mp singleOther
      rw [written_entry_of_exploded named apart, written_entry_of_exploded named apart] at same
      have key := (admitted.1.2.1 entry List.mem_cons_self).1
      have keyOther := (admittedOther.1.2.1 entryOther List.mem_cons_self).1
      obtain ⟨keys, items⟩ := Operator.withName_injective named (equals_notMem named keyOther)
        (equals_notMem named key) same
      rw [Prod.ext keys items]

/-- Where reserved characters are percent-encoded, commas divide what a field that is not
exploded writes, and its forms leave no choice which content that is. -/
theorem content_eq_of_whole (unreserved : field.operator.allowsReserved = false)
    (whole : field.occurrence.isExploded = false) (admitted : field.Admits content)
    (tells : field.Tells content) (admittedOther : field.Admits other)
    (same : joined ',' (field.units other) = joined ',' (field.units content)) :
    other = content := by
  cases content with
  | texts written =>
    cases other with
    | texts writtenOther =>
      have items := fun text member => comma_notMem unreserved (admitted.2.1 text member)
      have itemsOther := fun text member => comma_notMem unreserved (admittedOther.2.1 text member)
      rw [joined_injective admittedOther.1 admitted.1 itemsOther items same]
    | entries writtenOther =>
      have single : ∃ text, written = [text] := by
        cases listed : field.forms.list with
        | false => exact exists_text_of_admits admitted listed
        | true =>
          obtain ⟨text, known⟩ := tells.whole whole listed admittedOther.2.2.1
          exact ⟨text, Content.texts.inj known⟩
      obtain ⟨text, rfl⟩ := single
      exact (joined_text_ne_entries unreserved whole admitted admittedOther same.symm).elim
  | entries written =>
    cases other with
    | texts writtenOther =>
      have noList : field.forms.list = false := by
        by_contra listed
        obtain ⟨text, known⟩ := tells.whole whole (by simpa using listed) admitted.2.2.1
        cases known
      obtain ⟨text, rfl⟩ := exists_text_of_admits admittedOther noList
      exact (joined_text_ne_entries unreserved whole admittedOther admitted same).elim
    | entries writtenOther =>
      rw [joined_entries whole, joined_entries whole] at same
      rw [eq_of_flatMap_entries (joined_injective (flatMap_entries_ne_nil admittedOther.1)
        (flatMap_entries_ne_nil admitted.1) (notMem_flatMap_entries unreserved admittedOther.2.1)
        (notMem_flatMap_entries unreserved admitted.2.1) same)]

/-- **An item determines its content**, if the forms of its field leave no choice. -/
theorem content_eq_of_written (named : field.operator.isNamed = true)
    (admitted : field.AdmitsItem content) (tells : field.Tells content)
    (admittedOther : field.AdmitsItem other) (same : field.written other = field.written content) :
    other = content := by
  cases apart : field.occurrence.isExploded with
  | true => exact content_eq_of_exploded named apart admitted tells admittedOther same
  | false =>
    have name := equals_notMem_name named
    rw [written_of_whole apart, written_of_whole apart] at same
    exact content_eq_of_whole (Operator.allowsReserved_of_named named) apart admitted.1 tells
      admittedOther.1 (Operator.withName_injective named name name same).2

/-- An item is read as the only content that is written so. -/
theorem whole?_named_of_admits (named : field.operator.isNamed = true)
    (formed : field.forms.list = true ∨ field.forms.map = true) (tells : field.Tells content)
    (admitted : field.AdmitsItem content) :
    field.named.readings.whole? (field.written content) = some (field.marks content) := by
  refine Readings.whole?_eq_of_unique ((derives_named named formed).mpr ⟨_, admitted, rfl, rfl⟩) ?_
  intro marks derived
  obtain ⟨read, admittedRead, same, rfl⟩ := (derives_named named formed).mp derived
  rw [content_eq_of_written named admitted tells admittedRead same.symm]

/-- **An item is read as its field and its content**, unless an earlier field has the same
name or reads entries of any name. -/
theorem whole?_amongst_named {operator : Operator} {earlier later : List Field}
    (named : operator.isNamed = true)
    (each : ∀ known ∈ earlier ++ field :: later, known.IsOf operator)
    (admitted : field.AdmitsItem content) (tells : field.Tells content)
    (others : ∀ known ∈ earlier,
      (known.occurrence.isExploded = true → known.forms.map = false) ∧
        known.occurrence.name ≠ field.head content) :
    (Pattern.amongst ((earlier ++ field :: later).map Field.named)).readings.whole?
      (field.written content) = some (field.marks content) := by
  have isOf := each field (List.mem_append_right _ List.mem_cons_self)
  have own : field.operator.isNamed = true := isOf.operator_eq ▸ named
  have skipped : ∀ known ∈ earlier,
      known.named.readings.whole? (field.written content) = none := by
    intro known member
    have isOfKnown := each known (List.mem_append_left _ member)
    have knownNamed : known.operator.isNamed = true := isOfKnown.operator_eq ▸ named
    rw [Readings.whole?_eq_none_iff]
    intro marks derived
    obtain ⟨read, admittedRead, same, -⟩ := (derives_named knownNamed isOfKnown.formed).mp derived
    obtain ⟨unmapped, differs⟩ := others known member
    have heads : known.head read = known.occurrence.name := by
      cases apart : known.occurrence.isExploded with
      | false => exact head_of_whole apart read
      | true =>
        cases read with
        | texts written => rfl
        | entries written =>
          have mapped := admittedRead.1.2.2.1
          rw [unmapped apart] at mapped
          cases mapped
    obtain ⟨text, written⟩ := exists_written_eq own admitted
    obtain ⟨more, writtenRead⟩ := exists_written_eq knownNamed admittedRead
    rw [written, writtenRead, isOf.operator_eq, isOfKnown.operator_eq, heads] at same
    refine differs (Operator.withName_injective named ?_ ?_ same).1.symm
    · exact equals_notMem own (isWritten_head admitted.1)
    · exact equals_notMem_name knownNamed
  rw [Pattern.whole?_amongst, List.findSome?_map, Function.comp_def,
    List.findSome?_append, List.findSome?_eq_none_iff.mpr skipped, Option.none_or,
    List.findSome?_cons, whole?_named_of_admits own isOf.formed tells admitted]

end Field

/-- Whether the items of a field are told from those of the fields before it. -/
def Field.IsTold (fields : List Field) (field : Field) (content : Content) : Prop :=
  field.Tells content ∧ ∀ earlier later, fields = earlier ++ field :: later →
    ∀ known ∈ earlier, (known.occurrence.isExploded = true → known.forms.map = false) ∧
      known.occurrence.name ≠ field.head content

namespace Expression

variable {operator : Operator} {fields : List Field} {selection : Selection}

/-- The first reading of items reads each of them as its field and its content. -/
theorem mapM_whole?_steps (named : operator.isNamed = true)
    (each : ∀ field ∈ fields, field.IsOf operator) {steps : List (Field × Content)}
    (known : ∀ step ∈ steps, step.1 ∈ fields ∧ step.1.AdmitsItem step.2)
    (told : ∀ step ∈ steps, step.1.IsTold fields step.2) :
    (steps.map fun step => step.1.written step.2).mapM
        (Pattern.amongst (fields.map Field.named)).readings.whole? =
      some (steps.map fun step => step.1.marks step.2) := by
  induction steps with
  | nil => rfl
  | cons step steps ih =>
    obtain ⟨⟨member, admitted⟩, knownLater⟩ := List.forall_mem_cons.mp known
    obtain ⟨⟨tells, others⟩, toldLater⟩ := List.forall_mem_cons.mp told
    obtain ⟨earlier, later, split⟩ := List.append_of_mem member
    have first := Field.whole?_amongst_named named (split ▸ each) admitted tells
      (others earlier later split)
    rw [← split] at first
    rw [List.map_cons, List.mapM_cons, first, ih knownLater toldLater]
    rfl

/-- **The first reading of items with separators between them** reads every item as it is read
alone. -/
theorem whole?_items (named : operator.isNamed = true)
    (each : ∀ field ∈ fields, field.IsOf operator) {items : List Text}
    (some_ : items ≠ []) (separate : ∀ item ∈ items, operator.separator ∉ item) :
    (patternOf operator fields).readings.whole?
        (operator.first ++ Text.joined operator.separator items) =
      (items.mapM (Pattern.amongst (fields.map Field.named)).readings.whole?).map
        List.flatten := by
  have apart : ∀ text marks, Readings.Derives (Pattern.amongst (fields.map Field.named)).readings
      text marks → operator.separator ∉ text := by
    intro text marks derived
    obtain ⟨step, ⟨among, admitted⟩, rfl, -⟩ := (derives_item named each).mp derived
    exact (each step.1 among).separator_notMem named admitted
  have long : operator.first ++ Text.joined operator.separator items ≠ [] := fun nothing =>
    Operator.first_ne_nil named (List.append_eq_nil_iff.mp nothing).1
  rw [patternOf_named named, Pattern.whole?_optional, if_neg long, Option.or_none,
    Pattern.whole?_seq_literal, Pattern.readings_seq_single,
    Pattern.whole?_elements apart some_ separate]

/-- **The first reading of an expression with names** finds the selection that was written,
provided that its items are told apart. -/
theorem whole?_selection (named : operator.isNamed = true)
    (each : ∀ field ∈ fields, field.IsOf operator)
    (isOf : selection.IsOf fields)
    (told : ∀ step ∈ selection.steps, step.1.IsTold fields step.2) :
    (patternOf operator fields).readings.whole? (operator.assemble selection.contributions) =
      some selection.marks := by
  have known := Selection.mem_steps isOf
  rw [← Selection.assemble_steps isOf each, selection.marks_eq_steps]
  by_cases nothing : selection.steps = []
  · have unread : (Pattern.seq [.literal operator.first, .elements
        (.amongst (fields.map Field.named)) operator.separator false false]).readings.whole? [] =
          none := by
      rw [Readings.whole?_eq_none_iff]
      intro marks derived
      obtain ⟨back, split, -⟩ := Pattern.derives_seq_literal.mp derived
      exact Operator.first_ne_nil named (List.append_eq_nil_iff.mp split.symm).1
    rw [patternOf_named named, Pattern.whole?_optional, nothing]
    simp [Operator.assemble, unread]
  · have items : selection.steps.map (fun step => step.1.written step.2) ≠ [] := by
      simpa using nothing
    have separate : ∀ item ∈ selection.steps.map (fun step => step.1.written step.2),
        operator.separator ∉ item := by
      intro item member
      obtain ⟨step, found, rfl⟩ := List.mem_map.mp member
      exact (each step.1 (known step found).1).separator_notMem named (known step found).2
    rw [Operator.assemble, if_neg (by simpa using nothing),
      whole?_items named each items separate, mapM_whole?_steps named each known told,
      Option.map_some, List.flatMap_def]

end Expression

end UriTemplates
