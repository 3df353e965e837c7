import UriTemplates.Proofs.Template.Named

/-!
# Selections

What a whole expression may read. Where no names are written, every field has a content or is
left out (`Selection`), and the contents stand in the order of the fields
(`Expression.exists_selection_of_derives`, `Expression.derives_of_selection`). Where names
are written, the items of the fields may stand in any order (`Expression.derives_patternOf_named`).
-/

namespace UriTemplates

/-- Fields with the contents that they have; a field without a content is left out. -/
abbrev Selection := List (Field × Option Content)

namespace Selection

/-- What the fields write that are not left out. -/
def contributions (selection : Selection) : List Text :=
  selection.filterMap fun chosen => chosen.2.map chosen.1.written

/-- What is captured of the fields. -/
def marks (selection : Selection) : List (Site × Option Text) :=
  selection.flatMap fun chosen => (chosen.2.map chosen.1.marks).getD []

/-- Whether a selection is made for some fields, with contents that they may have. -/
structure IsOf (selection : Selection) (fields : List Field) : Prop where
  fields_eq : selection.map Prod.fst = fields
  admits : ∀ chosen ∈ selection, ∀ content ∈ chosen.2, chosen.1.Admits content

/-- What is selected is one of the fields. -/
theorem IsOf.mem_fields {selection : Selection} {fields : List Field}
    (isOf : selection.IsOf fields) {chosen : Field × Option Content}
    (member : chosen ∈ selection) : chosen.1 ∈ fields := by
  rw [← isOf.fields_eq]
  exact List.mem_map_of_mem member

/-- A selection that leaves out every field. -/
def leavingOut (fields : List Field) : Selection :=
  fields.map fun field => (field, none)

/-- To leave out all fields is a selection of them. -/
theorem isOf_leavingOut (fields : List Field) : IsOf (leavingOut fields) fields where
  fields_eq := by simp [leavingOut, Function.comp_def]
  admits chosen member := by
    obtain ⟨field, -, rfl⟩ := List.mem_map.mp member
    simp

@[simp] theorem contributions_leavingOut (fields : List Field) :
    contributions (leavingOut fields) = [] := by
  simp [contributions, leavingOut, List.filterMap_map]

@[simp] theorem marks_leavingOut (fields : List Field) : marks (leavingOut fields) = [] := by
  simp [marks, leavingOut, List.flatMap_map]

@[simp] theorem contributions_cons_none (field : Field) (selection : Selection) :
    contributions ((field, none) :: selection) = contributions selection :=
  rfl

@[simp] theorem contributions_cons_some (field : Field) (content : Content)
    (selection : Selection) :
    contributions ((field, some content) :: selection) =
      field.written content :: contributions selection :=
  rfl

@[simp] theorem marks_cons_none (field : Field) (selection : Selection) :
    marks ((field, none) :: selection) = marks selection :=
  rfl

@[simp] theorem marks_cons_some (field : Field) (content : Content) (selection : Selection) :
    marks ((field, some content) :: selection) = field.marks content ++ marks selection :=
  rfl

/-- A selection is continued with an admitted content of one more field, or without it. -/
theorem IsOf.cons {field : Field} {content : Option Content} {selection : Selection}
    {fields : List Field} (admits : ∀ known ∈ content, field.Admits known)
    (isOf : selection.IsOf fields) : IsOf ((field, content) :: selection) (field :: fields) where
  fields_eq := by rw [List.map_cons, isOf.fields_eq]
  admits := List.forall_mem_cons.mpr ⟨admits, isOf.admits⟩

/-- A selection for a first field and others is an admitted content of the first, or none, and a
selection for the others. -/
theorem isOf_cons_iff {field : Field} {fields : List Field} {selection : Selection} :
    selection.IsOf (field :: fields) ↔ ∃ content, ∃ later : Selection,
      selection = (field, content) :: later ∧ (∀ known ∈ content, field.Admits known) ∧
        later.IsOf fields := by
  constructor
  · rintro ⟨same, admits⟩
    obtain ⟨⟨_, content⟩, later, rfl, rfl, rfl⟩ := List.map_eq_cons_iff.mp same
    obtain ⟨first, others⟩ := List.forall_mem_cons.mp admits
    exact ⟨content, later, rfl, first, rfl, others⟩
  · rintro ⟨content, later, rfl, admits, isOf⟩
    exact isOf.cons admits

theorem isOf_nil_iff {selection : Selection} : selection.IsOf [] ↔ selection = [] := by
  constructor
  · rintro ⟨same, -⟩
    exact List.map_eq_nil_iff.mp same
  · rintro rfl
    exact isOf_leavingOut []

/-- Where nothing is written, nothing is captured. -/
theorem marks_eq_nil {selection : Selection} (nothing : selection.contributions = []) :
    selection.marks = [] := by
  induction selection with
  | nil => rfl
  | cons chosen selection ih =>
    obtain ⟨field, _ | content⟩ := chosen
    · exact ih nothing
    · cases nothing

end Selection

/-- Whether a field belongs to an expression with an operator. -/
structure Field.IsOf (field : Field) (operator : Operator) : Prop where
  operator_eq : field.operator = operator
  formed : field.forms.list = true ∨ field.forms.map = true

namespace Field

open Readings (Derives)

variable {operator : Operator} {fields : List Field} {text : Text}
  {marks : List (Site × Option Text)}

theorem IsOf.derives_unnamed {field : Field} (isOf : field.IsOf operator)
    (unnamed : operator.isNamed = false) :
    Derives field.unnamed.readings text marks ↔
      ∃ content, field.Admits content ∧ text = field.written content ∧
        marks = field.marks content :=
  Field.derives_unnamed (isOf.operator_eq ▸ unnamed)

/-- Several fields read the first one alone or before others, or leave it out. -/
theorem derives_someOf_cons {field next : Field} {rest : List Field} :
    Derives (someOf (field :: next :: rest)).readings text marks ↔
      Derives field.unnamed.readings text marks ∨
      (∃ front back before after, text = front ++ ',' :: back ∧ marks = before ++ after ∧
        Derives field.unnamed.readings front before ∧
        Derives (someOf (next :: rest)).readings back after) ∨
      field.isRequired = false ∧ Derives (someOf (next :: rest)).readings text marks := by
  rw [someOf]
  · cases required : field.isRequired with
    | true =>
      simp only [↓reduceIte, @Pattern.derives_seq_cons _ _ _ field.unnamed,
        Pattern.derives_seq_single, Pattern.derives_optional, Pattern.derives_seq_literal]
      constructor
      · rintro ⟨front, _, before, _, rfl, rfl, read, ⟨rfl, rfl⟩ | ⟨back, rfl, more⟩⟩
        · exact .inl (by simpa using read)
        · exact .inr (.inl ⟨front, back, before, _, rfl, rfl, read, more⟩)
      · rintro (read | ⟨front, back, before, after, rfl, rfl, read, more⟩ | ⟨⟨⟩, -⟩)
        · exact ⟨text, [], marks, [], by simp, by simp, read, .inl ⟨rfl, rfl⟩⟩
        · exact ⟨front, _, before, after, rfl, rfl, read, .inr ⟨back, rfl, more⟩⟩
    | false =>
      rw [if_neg Bool.false_ne_true, Pattern.derives_choice]
      simp only [List.mem_cons, List.not_mem_nil, or_false, exists_eq_or_imp, exists_eq_left,
        @Pattern.derives_seq_cons _ _ _ field.unnamed, Pattern.derives_seq_literal,
        Pattern.derives_seq_single, true_and]
      constructor
      · rintro (⟨front, _, before, after, rfl, rfl, read, back, rfl, more⟩ | read | more)
        · exact .inr (.inl ⟨front, back, before, after, rfl, rfl, read, more⟩)
        · exact .inl read
        · exact .inr (.inr more)
      · rintro (read | ⟨front, back, before, after, rfl, rfl, read, more⟩ | more)
        · exact .inr (.inl read)
        · exact .inl ⟨front, _, before, after, rfl, rfl, read, back, rfl, more⟩
        · exact .inr (.inr more)
  · simp

/-- A selection that is read as fields with commas between them. -/
theorem exists_selection_of_someOf (unnamed : operator.isNamed = false)
    (each : ∀ field ∈ fields, field.IsOf operator) (nonempty : fields ≠ [])
    (derived : Derives (someOf fields).readings text marks) :
    ∃ selection : Selection, selection.IsOf fields ∧ selection.contributions ≠ [] ∧
      text = Text.joined ',' selection.contributions ∧ marks = selection.marks := by
  induction fields generalizing text marks with
  | nil => exact (nonempty rfl).elim
  | cons field rest ih =>
    obtain ⟨first, later⟩ := List.forall_mem_cons.mp each
    have only : Derives field.unnamed.readings text marks →
        ∃ selection : Selection, selection.IsOf (field :: rest) ∧
          selection.contributions ≠ [] ∧ text = Text.joined ',' selection.contributions ∧
          marks = selection.marks := by
      intro read
      obtain ⟨content, admitted, rfl, rfl⟩ := (first.derives_unnamed unnamed).mp read
      exact ⟨(field, some content) :: Selection.leavingOut rest,
        (Selection.isOf_leavingOut rest).cons (by simpa using admitted), by simp, by simp, by simp⟩
    cases rest with
    | nil => exact only derived
    | cons next rest =>
      rcases derives_someOf_cons.mp derived with
        read | ⟨front, back, before, after, rfl, rfl, read, more⟩ | ⟨-, more⟩
      · exact only read
      · obtain ⟨content, admitted, rfl, rfl⟩ := (first.derives_unnamed unnamed).mp read
        obtain ⟨selection, isOf, some_, rfl, rfl⟩ := ih later (by simp) more
        exact ⟨(field, some content) :: selection, isOf.cons (by simpa using admitted), by simp,
          (Text.joined_cons _ some_).symm, by simp⟩
      · obtain ⟨selection, isOf, some_, rfl, rfl⟩ := ih later (by simp) more
        exact ⟨(field, none) :: selection, isOf.cons (by simp), by simpa using some_, rfl, rfl⟩

/-- Fields read every selection that leaves out no required field. -/
theorem derives_someOf (unnamed : operator.isNamed = false)
    (each : ∀ field ∈ fields, field.IsOf operator) {selection : Selection}
    (isOf : selection.IsOf fields) (some_ : selection.contributions ≠ [])
    (required : ∀ chosen ∈ selection, chosen.1.isRequired = true → chosen.2.isSome = true) :
    Derives (someOf fields).readings (Text.joined ',' selection.contributions)
      selection.marks := by
  induction fields generalizing selection with
  | nil =>
    rw [Selection.isOf_nil_iff.mp isOf] at some_
    exact (some_ rfl).elim
  | cons field rest ih =>
    obtain ⟨first, later⟩ := List.forall_mem_cons.mp each
    obtain ⟨content, selection, rfl, admits, isOfLater⟩ := Selection.isOf_cons_iff.mp isOf
    obtain ⟨needed, requiredLater⟩ := List.forall_mem_cons.mp required
    have reads : ∀ known, content = some known →
        Derives field.unnamed.readings (field.written known) (field.marks known) := by
      rintro known rfl
      exact (first.derives_unnamed unnamed).mpr ⟨known, admits known rfl, rfl, rfl⟩
    have readsLater := ih later isOfLater
    cases rest with
    | nil =>
      rw [Selection.isOf_nil_iff.mp isOfLater] at some_ ⊢
      cases content with
      | none => exact (some_ rfl).elim
      | some known => simpa [someOf, Selection.contributions, Selection.marks] using reads known rfl
    | cons next rest =>
      rw [derives_someOf_cons]
      cases content with
      | none =>
        have optional : field.isRequired = false := by
          by_contra isRequired
          simpa using needed (by simpa using isRequired)
        exact .inr (.inr ⟨optional, readsLater some_ requiredLater⟩)
      | some known =>
        by_cases last : selection.contributions = []
        · rw [Selection.contributions_cons_some, Selection.marks_cons_some, last,
            Selection.marks_eq_nil last, Text.joined_singleton, List.append_nil]
          exact .inl (reads known rfl)
        · rw [Selection.contributions_cons_some, Selection.marks_cons_some,
            Text.joined_cons _ last]
          exact .inr (.inl ⟨_, _, _, _, rfl, rfl, reads known rfl, readsLater last requiredLater⟩)

/-- A field after the character that introduces it. -/
theorem derives_segment {field : Field} (isOf : field.IsOf operator)
    (unnamed : operator.isNamed = false) :
    Derives field.segment.readings text marks ↔
      field.isRequired = false ∧ text = [] ∧ marks = [] ∨
      ∃ content, field.Admits content ∧ text = operator.symbol ++ field.written content ∧
        marks = field.marks content := by
  have read : Derives (Pattern.seq [.literal field.operator.symbol,
      field.unnamed]).readings text marks ↔ ∃ content, field.Admits content ∧
        text = operator.symbol ++ field.written content ∧ marks = field.marks content := by
    rw [Pattern.derives_seq_literal, isOf.operator_eq]
    simp only [Pattern.derives_seq_single, isOf.derives_unnamed unnamed]
    constructor
    · rintro ⟨_, rfl, content, admitted, rfl, rfl⟩
      exact ⟨content, admitted, rfl, rfl⟩
    · rintro ⟨content, admitted, rfl, rfl⟩
      exact ⟨_, rfl, content, admitted, rfl, rfl⟩
  unfold segment
  split
  · rename_i required
    simp [read, required]
  · rename_i optional
    rw [Pattern.derives_optional, read]
    simp [optional]

/-- Segments read every selection that leaves out no required field, and no other one. -/
theorem derives_segments (unnamed : operator.isNamed = false)
    (each : ∀ field ∈ fields, field.IsOf operator) :
    Derives (Pattern.seq (fields.map segment)).readings text marks ↔
      ∃ selection : Selection, selection.IsOf fields ∧
        (∀ chosen ∈ selection, chosen.1.isRequired = true → chosen.2.isSome = true) ∧
        text = selection.contributions.flatMap (operator.symbol ++ ·) ∧
        marks = selection.marks := by
  induction fields generalizing text marks with
  | nil =>
    rw [List.map_nil, Pattern.derives_seq_nil]
    constructor
    · rintro ⟨rfl, rfl⟩
      exact ⟨[], Selection.isOf_leavingOut [], by simp, rfl, rfl⟩
    · rintro ⟨selection, isOf, -, rfl, rfl⟩
      rw [Selection.isOf_nil_iff.mp isOf]
      exact ⟨rfl, rfl⟩
  | cons field fields ih =>
    obtain ⟨first, later⟩ := List.forall_mem_cons.mp each
    simp only [List.map_cons, Pattern.derives_seq_cons, derives_segment first unnamed, ih later]
    constructor
    · rintro ⟨_, _, _, _, rfl, rfl, ⟨optional, rfl, rfl⟩ | ⟨content, admitted, rfl, rfl⟩,
        selection, isOf, required, rfl, rfl⟩
      · exact ⟨(field, none) :: selection, isOf.cons (by simp),
          List.forall_mem_cons.mpr ⟨by simp [optional], required⟩, rfl, rfl⟩
      · exact ⟨(field, some content) :: selection, isOf.cons (by simpa using admitted),
          List.forall_mem_cons.mpr ⟨by simp, required⟩, by simp, by simp⟩
    · rintro ⟨_, whole, required, rfl, rfl⟩
      obtain ⟨content, selection, rfl, admits, isOf⟩ := Selection.isOf_cons_iff.mp whole
      obtain ⟨needed, requiredLater⟩ := List.forall_mem_cons.mp required
      cases content with
      | none => exact ⟨[], _, [], _, rfl, rfl, .inl ⟨by simpa using needed, rfl, rfl⟩,
          selection, isOf, requiredLater, rfl, rfl⟩
      | some content => exact ⟨_, _, _, _, by simp, by simp,
          .inr ⟨content, admits content rfl, rfl, rfl⟩, selection, isOf, requiredLater, rfl, rfl⟩

end Field

namespace Expression

open Readings (Derives)

variable {operator : Operator} {fields : List Field} {text : Text}
  {marks : List (Site × Option Text)}

/-- Where every contribution follows the symbol of the operator, the symbol is all that
stands between them. -/
theorem assemble_eq_flatMap {operator : Operator} (single : operator.symbol = [operator.separator])
    (same : operator.first = operator.symbol) (contributions : List Text) :
    operator.assemble contributions = contributions.flatMap (operator.symbol ++ ·) := by
  cases contributions with
  | nil => rfl
  | cons first later =>
    simp [Operator.assemble, Text.joined_cons_eq, same, single, List.flatMap_def]

/-- **What an expression without names reads** is what some selection writes. -/
theorem exists_selection_of_derives (unnamed : operator.isNamed = false)
    (each : ∀ field ∈ fields, field.IsOf operator) (nonempty : fields ≠ [])
    (derived : Derives (patternOf operator fields).readings text marks) :
    ∃ selection : Selection, selection.IsOf fields ∧
      text = operator.assemble selection.contributions ∧ marks = selection.marks := by
  have nothing : ∃ selection : Selection, selection.IsOf fields ∧
      ([] : Text) = operator.assemble selection.contributions ∧ [] = selection.marks :=
    ⟨_, Selection.isOf_leavingOut fields, by simp [Operator.assemble], by simp⟩
  have several : ∀ {back after}, operator.separator = ',' →
      Derives (Field.someOf fields).readings back after →
      ∃ selection : Selection, selection.IsOf fields ∧
        operator.first ++ back = operator.assemble selection.contributions ∧
        after = selection.marks := by
    intro back after comma read
    obtain ⟨selection, isOf, some_, rfl, rfl⟩ :=
      Field.exists_selection_of_someOf unnamed each nonempty read
    exact ⟨selection, isOf, by simp [Operator.assemble, some_, comma], rfl⟩
  cases operator with
  | simple =>
    rcases Pattern.derives_optional.mp derived with ⟨rfl, rfl⟩ | read
    · exact nothing
    · exact several rfl read
  | reserved =>
    rcases Pattern.derives_optional.mp derived with ⟨rfl, rfl⟩ | read
    · exact nothing
    · exact several rfl read
  | fragment =>
    rcases Pattern.derives_optional.mp derived with ⟨rfl, rfl⟩ | read
    · exact nothing
    · obtain ⟨back, rfl, readBack⟩ := Pattern.derives_seq_literal.mp read
      exact several rfl (Pattern.derives_seq_single.mp readBack)
  | label =>
    obtain ⟨selection, isOf, -, rfl, rfl⟩ := (Field.derives_segments unnamed each).mp derived
    exact ⟨selection, isOf, (assemble_eq_flatMap rfl rfl _).symm, rfl⟩
  | path =>
    obtain ⟨selection, isOf, -, rfl, rfl⟩ := (Field.derives_segments unnamed each).mp derived
    exact ⟨selection, isOf, (assemble_eq_flatMap rfl rfl _).symm, rfl⟩
  | parameter => cases unnamed
  | query => cases unnamed
  | continuation => cases unnamed

/-- An expression without names reads what a selection writes that leaves out no required
field. -/
theorem derives_of_selection (unnamed : operator.isNamed = false)
    (each : ∀ field ∈ fields, field.IsOf operator) {selection : Selection}
    (isOf : selection.IsOf fields)
    (required : ∀ chosen ∈ selection, chosen.1.isRequired = true → chosen.2.isSome = true) :
    Derives (patternOf operator fields).readings (operator.assemble selection.contributions)
      selection.marks := by
  have several : operator.separator = ',' → ∀ inner : Pattern Site,
      (∀ {back after}, Derives (Field.someOf fields).readings back after →
        Derives inner.readings (operator.first ++ back) after) →
      Derives (Pattern.optional inner false).readings
        (operator.assemble selection.contributions) selection.marks := by
    intro comma inner reads
    rw [Pattern.derives_optional]
    by_cases nothing : selection.contributions = []
    · exact .inl ⟨by simp [nothing, Operator.assemble], Selection.marks_eq_nil nothing⟩
    · have written : operator.assemble selection.contributions =
          operator.first ++ Text.joined ',' selection.contributions := by
        simp [Operator.assemble, nothing, comma]
      rw [written]
      exact .inr (reads (Field.derives_someOf unnamed each isOf nothing required))
  cases operator with
  | simple => exact several rfl _ id
  | reserved => exact several rfl _ id
  | fragment =>
    exact several rfl _ fun read => Pattern.derives_seq_literal.mpr
      ⟨_, rfl, Pattern.derives_seq_single.mpr read⟩
  | label =>
    exact (Field.derives_segments unnamed each).mpr
      ⟨selection, isOf, required, assemble_eq_flatMap rfl rfl _, rfl⟩
  | path =>
    exact (Field.derives_segments unnamed each).mpr
      ⟨selection, isOf, required, assemble_eq_flatMap rfl rfl _, rfl⟩
  | parameter => cases unnamed
  | query => cases unnamed
  | continuation => cases unnamed

/-- Where names are written, the pattern of an expression is that of separated items, or of nothing.
-/
theorem patternOf_named (named : operator.isNamed = true) (fields : List Field) :
    patternOf operator fields =
      .optional (.seq [.literal operator.first, .elements (.amongst (fields.map Field.named))
        operator.separator false false]) false := by
  cases operator with
  | parameter => rfl
  | query => rfl
  | continuation => rfl
  | _ => cases named

/-- An item is read as a content that some field may have as one item. -/
theorem derives_item (named : operator.isNamed = true)
    (each : ∀ field ∈ fields, field.IsOf operator) :
    Derives (Pattern.amongst (fields.map Field.named)).readings text marks ↔
      ∃ step : Field × Content, (step.1 ∈ fields ∧ step.1.AdmitsItem step.2) ∧
        text = step.1.written step.2 ∧ marks = step.1.marks step.2 := by
  rw [Pattern.derives_amongst]
  constructor
  · rintro ⟨_, member, read⟩
    obtain ⟨field, found, rfl⟩ := List.mem_map.mp member
    have isOf := each field found
    obtain ⟨content, admitted, rfl, rfl⟩ :=
      (Field.derives_named (isOf.operator_eq ▸ named) isOf.formed).mp read
    exact ⟨(field, content), ⟨found, admitted⟩, rfl, rfl⟩
  · rintro ⟨⟨field, content⟩, ⟨found, admitted⟩, rfl, rfl⟩
    have isOf := each field found
    exact ⟨_, List.mem_map_of_mem found,
      (Field.derives_named (isOf.operator_eq ▸ named) isOf.formed).mpr
        ⟨content, admitted, rfl, rfl⟩⟩

/-- **What an expression with names reads**: items of its fields, in any order and number. -/
theorem derives_patternOf_named (named : operator.isNamed = true)
    (each : ∀ field ∈ fields, field.IsOf operator) :
    Derives (patternOf operator fields).readings text marks ↔
      ∃ steps : List (Field × Content),
        (∀ step ∈ steps, step.1 ∈ fields ∧ step.1.AdmitsItem step.2) ∧
        text = operator.assemble (steps.map fun step => step.1.written step.2) ∧
        marks = steps.flatMap fun step => step.1.marks step.2 := by
  have reads := fun text marks => @derives_item _ _ text marks named each
  rw [patternOf_named named, Pattern.derives_optional, Pattern.derives_seq_literal]
  simp only [Pattern.derives_seq_single, Pattern.derives_elements_of _ _ _ reads]
  constructor
  · rintro (⟨rfl, rfl⟩ | ⟨_, rfl, steps, some_, -, known, rfl, rfl⟩)
    · exact ⟨[], by simp, rfl, rfl⟩
    · exact ⟨steps, known, by simp [Operator.assemble, some_], rfl⟩
  · rintro ⟨steps, known, rfl, rfl⟩
    by_cases none : steps = []
    · subst none
      exact .inl ⟨rfl, rfl⟩
    · exact .inr ⟨_, by simp [Operator.assemble, none], steps, none, by simp, known, rfl, rfl⟩

end Expression

end UriTemplates
