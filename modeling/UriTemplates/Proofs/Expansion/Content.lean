import UriTemplates.Proofs.Steps
import UriTemplates.Proofs.Template.Selection

/-!
# Expansion by contents

What a variable contributes to an expression is its encoded value (`Operator.content?`),
written as any content is (`Field.contribution_eq`). An expression expands to what the
selection of these contents writes (`Expression.expand_eq`).
-/

namespace UriTemplates

/-- The part of a text that a variable keeps. -/
def Variable.kept (v : Variable) (text : Text) : Text :=
  match v.length? with
  | some length => text.take length
  | none => text

/-- An exploded variable that is hinted as a list or as a map has only one form. -/
theorem Hints.forms_of_exploded {hints : Hints} {v : Variable} (exploded : v.isExploded = true)
    (one : v.name ∈ hints.lists ↔ v.name ∉ hints.maps) :
    (hints.forms v).text = false ∧
      ((hints.forms v).list = false ∨ (hints.forms v).map = false) := by
  by_cases listed : v.name ∈ hints.lists
  · simp [forms, exploded, listed, one.mp listed]
  · have mapped : v.name ∈ hints.maps := by
      by_contra unmapped
      exact listed (one.mpr unmapped)
    simp [forms, exploded, listed, mapped]

/-- The content that a value has in an expression, if it has any. -/
def Operator.content? (operator : Operator) (v : Variable) : Value → Option Content
  | .undefined => none
  | .text text => some (.texts [operator.encode (v.kept text)])
  | .list items => if items.isEmpty then none else some (.texts (items.map operator.encode))
  | .map map =>
    if map.isEmpty then none
    else some (.entries (map.entries.map fun entry =>
      (operator.encode entry.1, operator.encode entry.2)))

namespace Field

variable (field : Field)

/-- The content that a value has in a field. -/
def content? (value : Value) : Option Content :=
  field.operator.content? field.occurrence value

/-- An encoded text, truncated if its variable is, is written as the text contributes. -/
theorem written_text (text : Text) :
    field.written (.texts [field.operator.encode (field.occurrence.kept text)]) =
      field.operator.textContribution field.occurrence text := by
  cases apart : field.occurrence.isExploded with
  | false =>
    simp only [written, items, apart, Bool.false_eq_true, ↓reduceIte, units,
      Text.joined_singleton]
    rfl
  | true =>
    simp only [written, items, apart, ↓reduceIte, List.map_cons, List.map_nil,
      Text.joined_singleton]
    rfl

/-- Encoded items are written as the list of the items contributes. -/
theorem written_list (texts : List Text) :
    field.written (.texts (texts.map field.operator.encode)) =
      field.operator.listContribution field.occurrence texts := by
  cases apart : field.occurrence.isExploded with
  | false => simp [written, items, apart, units, Operator.listContribution]
  | true => simp [written, items, apart, Operator.listContribution]

/-- Encoded entries are written as the map of the entries contributes. -/
theorem written_map (entries : List (Text × Text)) :
    field.written (.entries (entries.map fun entry =>
        (field.operator.encode entry.1, field.operator.encode entry.2))) =
      field.operator.mapContribution field.occurrence entries := by
  cases apart : field.occurrence.isExploded with
  | false =>
    simp [written, items, apart, units, Operator.mapContribution, entryText, Function.comp_def]
  | true =>
    simp [written, items, apart, Operator.mapContribution, entryText, Function.comp_def]

/-- A variable contributes what the content of its value is written as. -/
theorem contribution_eq {value : Value} {contributed : Option Text}
    (accepted : field.operator.contribution field.occurrence value = .ok contributed) :
    contributed = (field.content? value).map field.written := by
  cases value with
  | undefined =>
    cases accepted
    rfl
  | text text =>
    cases accepted
    simp [content?, Operator.content?, written_text]
  | list texts =>
    simp only [Operator.contribution] at accepted
    split_ifs at accepted with truncated empty
    · cases accepted
      simp [content?, Operator.content?, empty]
    · cases accepted
      simp only [content?, Operator.content?, if_neg empty, Option.map_some, written_list]
  | map map =>
    simp only [Operator.contribution] at accepted
    split_ifs at accepted with truncated empty
    · cases accepted
      simp [content?, Operator.content?, empty]
    · cases accepted
      simp only [content?, Operator.content?, if_neg empty, Option.map_some, written_map]

end Field

namespace Expression

/-- The field of a variable at a position of an expression. -/
def field (expression : Expression) (part : Nat) (hints : Hints) (v : Variable) (index : Nat) :
    Field :=
  { part, index, operator := expression.operator, occurrence := v, forms := hints.forms v,
    isRequired := hints.requires v }

variable (expression : Expression) (part : Nat) (hints : Hints)

/-- The fields of an expression are its variables with their positions. -/
theorem fields_eq_map : expression.fields part hints =
    expression.occurrences.zipIdx.map fun v => expression.field part hints v.1 v.2 :=
  List.mapIdx_eq_zipIdx_map

variable {expression} in
/-- An expression of one variable has one field. -/
theorem fields_single {v : Variable} (single : expression.occurrences = [v]) :
    expression.fields part hints = [expression.field part hints v 0] := by
  simp [fields, single, field]

/-- Every expression has a field. -/
theorem fields_ne_nil : expression.fields part hints ≠ [] := by
  simpa [fields] using expression.nonempty

variable {expression part hints} in
/-- A field of an expression is one of its variables at some position. -/
theorem exists_of_mem_fields {field : Field} (member : field ∈ expression.fields part hints) :
    ∃ v ∈ expression.occurrences, ∃ index, field = expression.field part hints v index := by
  rw [fields_eq_map] at member
  obtain ⟨⟨v, index⟩, found, rfl⟩ := List.mem_map.mp member
  exact ⟨v, List.fst_mem_of_mem_zipIdx found, index, rfl⟩

/-- The fields of an expression have its operator, and hints leave each of them the form of a list
or of a map. -/
theorem isOf_fields : ∀ field ∈ expression.fields part hints,
    field.IsOf expression.operator := by
  intro field member
  rw [fields_eq_map] at member
  obtain ⟨⟨v, index⟩, -, rfl⟩ := List.mem_map.mp member
  refine ⟨rfl, ?_⟩
  simp only [Expression.field, Hints.forms]
  cases hints.lists.contains v.name <;> simp

/-- The variables of the fields are those of the expression. -/
theorem occurrences_eq : (expression.fields part hints).map Field.occurrence =
    expression.occurrences := by
  rw [fields_eq_map, List.map_map]
  exact List.zipIdx_map_fst 0 expression.occurrences

/-- The contents that the variables of an expression have in an environment. -/
def selection (environment : Environment) : Selection :=
  (expression.fields part hints).map fun field =>
    (field, field.content? (environment.value field.occurrence.name))

variable {expression part hints} in
/-- What is selected for an expression are its fields with the contents that their values have. -/
theorem exists_of_mem_selection {environment : Environment} {chosen : Field × Option Content}
    (member : chosen ∈ expression.selection part hints environment) :
    ∃ v ∈ expression.occurrences, ∃ index, chosen = (expression.field part hints v index,
      (expression.field part hints v index).content? (environment.value v.name)) := by
  obtain ⟨field, among, rfl⟩ := List.mem_map.mp member
  obtain ⟨v, occurs, index, rfl⟩ := exists_of_mem_fields among
  exact ⟨v, occurs, index, rfl⟩

variable {expression} in
/-- For an expression of one variable, the content of its value is selected. -/
theorem selection_single {v : Variable} (single : expression.occurrences = [v])
    (environment : Environment) :
    expression.selection part hints environment = [(expression.field part hints v 0,
      (expression.field part hints v 0).content? (environment.value v.name))] := by
  rw [selection, fields_single part hints single, List.map_singleton]
  rfl

variable {expression} in
/-- An expression expands to what the contributions of its variables assemble to. -/
theorem expand_eq_ok_iff {environment : Environment} {text : Text} :
    expression.expand environment = .ok text ↔ ∃ contributions,
      (expression.occurrences.mapM fun v =>
        expression.operator.contribution v (environment.value v.name)) = .ok contributions ∧
      expression.operator.assemble (contributions.filterMap id) = text := by
  simp only [expand, bind_eq_ok_iff, return_eq_ok_iff]

/-- Where an expression expands, every variable contributes a text or nothing. -/
theorem exists_contribution {environment : Environment} {text : Text}
    (expanded : expression.expand environment = .ok text) :
    ∀ v ∈ expression.occurrences, ∃ contributed,
      expression.operator.contribution v (environment.value v.name) = .ok contributed := by
  obtain ⟨contributions, contributed, -⟩ := expand_eq_ok_iff.mp expanded
  exact exists_of_forall₂ (mapM_eq_ok_iff.mp contributed)

/-- An expression expands to what the selection of its contents writes. -/
theorem expand_eq {environment : Environment} {text : Text}
    (expanded : expression.expand environment = .ok text) :
    text = expression.operator.assemble
      (expression.selection part hints environment).contributions := by
  obtain ⟨contributions, contributed, rfl⟩ := expand_eq_ok_iff.mp expanded
  have byField : (expression.fields part hints).mapM (fun field =>
      expression.operator.contribution field.occurrence
        (environment.value field.occurrence.name)) = .ok contributions := by
    rw [mapM_eq_ok_iff]
    rw [← expression.occurrences_eq part hints, mapM_eq_ok_iff,
      List.forall₂_map_left_iff] at contributed
    exact contributed
  have agree : ∀ field ∈ expression.fields part hints, ∀ result,
      expression.operator.contribution field.occurrence
        (environment.value field.occurrence.name) = .ok result →
      result = (field.content? (environment.value field.occurrence.name)).map
        field.written := by
    intro field member result accepted
    rw [← (expression.isOf_fields part hints field member).operator_eq] at accepted
    exact field.contribution_eq accepted
  rw [eq_map_of_mapM agree byField, List.filterMap_map, selection, Selection.contributions,
    List.filterMap_map]
  rfl

end Expression

end UriTemplates
