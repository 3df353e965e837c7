import UriTemplates.Proofs.Template.Selection

/-!
# The items of a selection

Where names are written, an exploded content is read item by item (`Field.steps`), and the
items of all fields make up what the selection writes and what is captured of it
(`Selection.assemble_steps`, `Selection.marks_eq_steps`). So an expression of any kind reads
the selections that leave out no required field (`Expression.derives_selection`).
-/

namespace UriTemplates

/-- The single texts or entries of a content. -/
def Content.singles : Content → List Content
  | texts written => written.map fun text => texts [text]
  | entries written => written.map fun entry => entries [entry]

namespace Field

variable {field : Field} {content : Content}

/-- The contents that a field with a content has item by item. -/
def steps (field : Field) (content : Content) : List Content :=
  if field.occurrence.isExploded then content.singles else [content]

/-- An exploded field has its content one text or one entry at a time. -/
theorem steps_of_exploded (apart : field.occurrence.isExploded = true) (content : Content) :
    field.steps content = content.singles :=
  if_pos apart

/-- A field that is not exploded has its content as one item. -/
theorem steps_of_whole (whole : field.occurrence.isExploded = false) (content : Content) :
    field.steps content = [content] := by
  simp [steps, whole]

/-- The items of a field are written one by one. -/
theorem items_eq (field : Field) (content : Content) :
    field.items content = (field.steps content).map field.written := by
  cases apart : field.occurrence.isExploded with
  | false =>
    rw [steps_of_whole apart, items_of_whole apart, List.map_singleton, written_of_whole apart]
  | true =>
    rw [steps_of_exploded apart]
    cases content with
    | texts written => simp [items, apart, Content.singles, Field.written, Function.comp_def]
    | entries written => simp [items, apart, Content.singles, Field.written, Function.comp_def]

/-- What is captured of a field is captured item by item. -/
theorem marks_eq_steps (field : Field) (content : Content) :
    field.marks content = (field.steps content).flatMap field.marks := by
  cases apart : field.occurrence.isExploded with
  | false => rw [steps_of_whole apart, List.flatMap_singleton]
  | true =>
    rw [steps_of_exploded apart]
    cases content with
    | texts written => simp [Field.marks, apart, Content.singles, List.flatMap_map]
    | entries written => simp [Field.marks, apart, Content.singles, List.flatMap_map]

theorem modifier_of_exploded (apart : field.occurrence.isExploded = true) :
    field.occurrence.modifier = .exploded := by
  simpa [Variable.isExploded] using apart

/-- Each item of an admitted content may be read as one. -/
theorem admitsItem_steps (admitted : field.Admits content) :
    ∀ step ∈ field.steps content, field.AdmitsItem step := by
  cases apart : field.occurrence.isExploded with
  | false => simpa [steps_of_whole apart, AdmitsItem, apart] using admitted
  | true =>
    have modifier := modifier_of_exploded apart
    rw [steps_of_exploded apart]
    intro step member
    cases content with
    | texts written =>
      obtain ⟨text, found, rfl⟩ := List.mem_map.mp member
      obtain ⟨-, known, form⟩ := admitted
      simp only [AdmitsTexts, modifier] at form
      refine ⟨⟨by simp, by simpa using known text found, ?_⟩, fun _ => rfl⟩
      simp only [AdmitsTexts, modifier]
      exact form.imp_right fun form => ⟨form.1, rfl⟩
    | entries written =>
      obtain ⟨entry, found, rfl⟩ := List.mem_map.mp member
      obtain ⟨-, known, mapped, untruncated⟩ := admitted
      exact ⟨⟨by simp, by simpa using known entry found, mapped, untruncated⟩, fun _ => rfl⟩

/-- A field with an admitted content writes at least one item. -/
theorem items_ne_nil (admitted : field.Admits content) : field.items content ≠ [] := by
  cases apart : field.occurrence.isExploded with
  | false => simp [items_of_whole apart]
  | true =>
    cases content with
    | texts written => simpa [items, apart] using admitted.1
    | entries written => simpa [items, apart] using admitted.1

end Field

namespace Selection

variable {selection : Selection} {fields : List Field}

/-- The items of all fields, one after the other. -/
def steps (selection : Selection) : List (Field × Content) :=
  selection.flatMap fun chosen =>
    (chosen.2.toList.flatMap chosen.1.steps).map fun step => (chosen.1, step)

theorem steps_cons (chosen : Field × Option Content) (selection : Selection) :
    steps (chosen :: selection) =
      (chosen.2.toList.flatMap chosen.1.steps).map (fun step => (chosen.1, step)) ++
        steps selection :=
  rfl

/-- An item belongs to the content of its field. -/
theorem exists_of_mem_steps {step : Field × Content} (member : step ∈ selection.steps) :
    ∃ content, (step.1, some content) ∈ selection ∧ step.2 ∈ step.1.steps content := by
  obtain ⟨⟨field, content⟩, found, inside⟩ := List.mem_flatMap.mp member
  obtain ⟨single, among, rfl⟩ := List.mem_map.mp inside
  obtain ⟨content, known, among⟩ := List.mem_flatMap.mp among
  obtain rfl := Option.mem_toList.mp known
  exact ⟨content, found, among⟩

/-- The items of a selection belong to its fields, which may have them. -/
theorem mem_steps (isOf : selection.IsOf fields) :
    ∀ step ∈ selection.steps, step.1 ∈ fields ∧ step.1.AdmitsItem step.2 := by
  intro step member
  obtain ⟨content, found, among⟩ := exists_of_mem_steps member
  exact ⟨isOf.mem_fields found,
    Field.admitsItem_steps (isOf.admits _ found content rfl) step.2 among⟩

/-- What is captured of a selection is what is captured of its items. -/
theorem marks_eq_steps (selection : Selection) :
    selection.marks = selection.steps.flatMap fun step => step.1.marks step.2 := by
  induction selection with
  | nil => rfl
  | cons chosen selection ih =>
    obtain ⟨field, _ | content⟩ := chosen
    · simpa [steps_cons] using ih
    · rw [marks_cons_some, ih, steps_cons, List.flatMap_append, field.marks_eq_steps]
      simp [List.flatMap_map]

/-- The items of a selection make up what it writes. -/
theorem assemble_steps {operator : Operator} (isOf : selection.IsOf fields)
    (each : ∀ field ∈ fields, field.IsOf operator) :
    operator.assemble (selection.steps.map fun step => step.1.written step.2) =
      operator.assemble selection.contributions := by
  have groups : ∃ groups : List (List Text), (∀ group ∈ groups, group ≠ []) ∧
      selection.steps.map (fun step => step.1.written step.2) = groups.flatten ∧
      selection.contributions = groups.map (Text.joined operator.separator) := by
    induction selection generalizing fields with
    | nil => exact ⟨[], by simp, rfl, rfl⟩
    | cons chosen selection ih =>
      obtain ⟨field, content⟩ := chosen
      obtain ⟨same, admits⟩ := isOf
      rw [← same, List.map_cons] at each
      obtain ⟨first, later⟩ := List.forall_mem_cons.mp each
      obtain ⟨here, others⟩ := List.forall_mem_cons.mp admits
      obtain ⟨groups, nonempty, items, contributions⟩ := ih ⟨rfl, others⟩ later
      cases content with
      | none => exact ⟨groups, nonempty, by simpa [steps_cons] using items, contributions⟩
      | some content =>
        refine ⟨field.items content :: groups,
          List.forall_mem_cons.mpr ⟨Field.items_ne_nil (here content rfl), nonempty⟩, ?_, ?_⟩
        · rw [steps_cons, List.map_append, items, field.items_eq]
          simp
        · rw [contributions_cons_some, contributions, List.map_cons, Field.written,
            first.operator_eq]
  obtain ⟨groups, nonempty, items, contributions⟩ := groups
  rw [items, contributions, Operator.assemble, Operator.assemble, Text.joined_flatten nonempty]
  cases groups with
  | nil => rfl
  | cons group groups =>
    have some_ := nonempty group List.mem_cons_self
    simp [some_]

end Selection

/-- **What an expression reads in any case**: what a selection writes that leaves out no
required field. -/
theorem Expression.derives_selection {operator : Operator} {fields : List Field}
    (each : ∀ field ∈ fields, field.IsOf operator) {selection : Selection}
    (isOf : selection.IsOf fields)
    (required : ∀ chosen ∈ selection, chosen.1.isRequired = true → chosen.2.isSome = true) :
    (patternOf operator fields).readings.Derives (operator.assemble selection.contributions)
      selection.marks := by
  cases named : operator.isNamed with
  | false => exact derives_of_selection named each isOf required
  | true =>
    rw [derives_patternOf_named named each]
    exact ⟨selection.steps, Selection.mem_steps isOf,
      (Selection.assemble_steps isOf each).symm, selection.marks_eq_steps⟩

end UriTemplates
