import UriTemplates.Proofs.Expansion.Language
import UriTemplates.Proofs.Matching.Outcome
import UriTemplates.Proofs.Template.Determined

/-!
# Hints that tell values

Hints may say of every variable of an expression with names whether it is a list, a map or
neither (`Hints.Tells`). Then what was written for a value is found to be just what an expansion
keeps of the value (`Field.finding_content?`), and the items of the fields are told apart
(`Expression.isTold_steps`).
-/

namespace UriTemplates

/-- What an expansion keeps of a value: an empty list or map leaves no trace, and a text may be
truncated. -/
def Variable.kept? (v : Variable) : Value → Option Value
  | .undefined => none
  | .text text => some (.text (v.kept text))
  | .list items => if items.isEmpty then none else some (.list items)
  | .map map => if map.isEmpty then none else some (.map map)

/-- Something is kept of every value that is defined and no empty list or map. -/
theorem Variable.isSome_kept?_iff {v : Variable} {value : Value} :
    (v.kept? value).isSome = true ↔ value ≠ .undefined ∧ value.isEmptyComposite = false := by
  cases value with
  | undefined => simp [kept?]
  | text text => simp [kept?, Value.isEmptyComposite]
  | list items => cases empty : items.isEmpty <;> simp [kept?, Value.isEmptyComposite, empty]
  | map map => cases empty : map.isEmpty <;> simp [kept?, Value.isEmptyComposite, empty]

/-- Whether hints say what the value of a variable is. -/
structure Hints.Tells (hints : Hints) (v : Variable) (value : Value) : Prop where
  /-- A list is hinted as a list only. -/
  list : ∀ items, value = .list items → v.name ∈ hints.lists ∧ v.name ∉ hints.maps
  /-- A map is hinted as a map only. -/
  map : ∀ entries, value = .map entries → v.name ∈ hints.maps ∧ v.name ∉ hints.lists
  /-- A text is hinted as neither. -/
  text : ∀ text, value = .text text → v.name ∉ hints.lists ∧ v.name ∉ hints.maps
  /-- A truncated variable is hinted as neither. -/
  truncated : v.length?.isSome = true → v.name ∉ hints.lists ∧ v.name ∉ hints.maps
  /-- An exploded variable is hinted as one of both. -/
  exploded : v.isExploded = true → (v.name ∈ hints.lists ↔ v.name ∉ hints.maps)
  /-- A required variable has a value that is no empty list or map. -/
  required : v.name ∈ hints.required → value ≠ .undefined ∧ value.isEmptyComposite = false

namespace Hints.Tells

variable {hints : Hints} {v : Variable} {value : Value}

/-- Hints that say what a value is agree with the value. -/
theorem fits (tells : hints.Tells v value) : hints.Fits v value where
  list hinted := by
    cases value with
    | undefined => exact .inl rfl
    | text text => exact ((tells.text text rfl).1 hinted).elim
    | list items => exact .inr ⟨items, rfl⟩
    | map entries => exact ((tells.map entries rfl).2 hinted).elim
  map hinted := by
    cases value with
    | undefined => exact .inl rfl
    | text text => exact ((tells.text text rfl).2 hinted).elim
    | list items => exact ((tells.list items rfl).2 hinted).elim
    | map entries => exact .inr ⟨entries, rfl⟩
  truncated := tells.truncated
  required := tells.required

/-- A text is only told from a list where its variable is not exploded. -/
theorem whole_of_text (tells : hints.Tells v value) {text : Text} (known : value = .text text) :
    v.isExploded = false := by
  obtain ⟨noList, noMap⟩ := tells.text text known
  by_contra exploded
  exact noList ((tells.exploded (by simpa using exploded)).mpr noMap)

end Hints.Tells

/-- Whether hints agree with a value, and say what it is if an expansion keeps something of
it. -/
structure Hints.TellsKept (hints : Hints) (v : Variable) (value : Value) : Prop where
  fits : hints.Fits v value
  told : ∀ kept, v.kept? value = some kept → hints.Tells v value

namespace Hints.TellsKept

variable {hints : Hints} {v : Variable} {value : Value}

/-- What tells the value tells what is kept of it. -/
theorem of_tells (tells : hints.Tells v value) : hints.TellsKept v value where
  fits := tells.fits
  told _ _ := tells

/-- A required variable keeps something. -/
theorem isSome_kept? (tells : hints.TellsKept v value) (required : hints.requires v = true) :
    ∃ kept, v.kept? value = some kept ∧ kept.isEmptyComposite = false := by
  obtain ⟨defined, nonempty⟩ := tells.fits.required (List.contains_iff_mem.mp required)
  cases value with
  | undefined => exact (defined rfl).elim
  | text text => exact ⟨_, rfl, rfl⟩
  | list items =>
    have some_ : items.isEmpty = false := nonempty
    exact ⟨.list items, by simp [Variable.kept?, some_], nonempty⟩
  | map map =>
    have some_ : map.isEmpty = false := nonempty
    exact ⟨.map map, by simp [Variable.kept?, some_], nonempty⟩

end Hints.TellsKept

/-- What is found for a variable that keeps a value or nothing. -/
def Binding.Finding.ofKept : Option Value → Binding.Finding
  | some known => .value known
  | none => .silent

namespace Binding

variable {hints : Hints} {v : Variable}

/-- Where a variable may be a text, one captured text is its value. -/
theorem textsFinding_text (open_ : mayBeText hints v = true) (text : Text) :
    textsFinding hints v [text] = .value (.text (Percent.decode text)) := by
  rw [textsFinding.eq_def]
  cases v.modifier <;> simp [open_]

/-- Where a variable is no text and is not truncated, captured texts are a list. -/
theorem textsFinding_list (untruncated : v.length? = none) (closed : mayBeText hints v = false)
    (texts : List Text) :
    textsFinding hints v texts = .value (.list (texts.map Percent.decode)) := by
  have modifier : ∀ length, v.modifier ≠ .truncated length := by
    intro length truncated
    simp [Variable.length?, truncated] at untruncated
  rw [textsFinding.eq_def]
  split
  · rename_i length _ truncated
    exact (modifier length truncated).elim
  · rename_i length truncated _
    exact (modifier length truncated).elim
  · simp [closed]
  · rfl

end Binding

namespace Field

variable {field : Field} {hints : Hints} {value : Value}

/-- Encoded items decode to the items. -/
theorem decode_map_encode (field : Field) (items : List Text) :
    (items.map field.operator.encode).map Percent.decode = items := by
  rw [List.map_map]
  exact (List.map_congr_left fun item _ => Percent.decode_encode item).trans (List.map_id items)

/-- **What is found of an expansion** is what the expansion keeps of the value. -/
theorem finding_content? (tells : hints.Tells field.occurrence value) {contributed : Option Text}
    (accepted : field.operator.contribution field.occurrence value = .ok contributed) :
    ((field.content? value).map (Content.finding hints field.occurrence)).getD .silent =
      .ofKept (field.occurrence.kept? value) := by
  cases value with
  | undefined => rfl
  | text text =>
    obtain ⟨noList, noMap⟩ := tells.text text rfl
    have open_ : Binding.mayBeText hints field.occurrence = true := by
      simp [Binding.mayBeText, tells.whole_of_text rfl, noList, noMap]
    have decoded : Percent.decode (field.operator.encode (field.occurrence.kept text)) =
        field.occurrence.kept text := Percent.decode_encode _
    simp only [content?, Operator.content?, Option.map_some, Option.getD_some, Content.finding,
      Binding.textsFinding_text open_, decoded]
    rfl
  | list items =>
    have closed : Binding.mayBeText hints field.occurrence = false := by
      simp [Binding.mayBeText, (tells.list items rfl).1]
    simp only [Operator.contribution] at accepted
    split_ifs at accepted with truncated empty
    · simp [content?, Operator.content?, Variable.kept?, empty, Binding.Finding.ofKept]
    · have untruncated : field.occurrence.length? = none := by simpa using truncated
      simp only [content?, Operator.content?, if_neg empty, Option.map_some, Option.getD_some,
        Content.finding, Binding.textsFinding_list untruncated closed, decode_map_encode,
        Variable.kept?]
      rfl
  | map map =>
    simp only [content?, Operator.content?, Variable.kept?]
    split_ifs with empty
    · rfl
    · have distinct : Binding.distinctMap? (map.entries.map fun entry =>
          (field.operator.encode entry.1, field.operator.encode entry.2)) = some map := by
        rw [Binding.distinctMap?_eq_some_iff, List.map_map]
        refine ((List.map_congr_left fun entry _ => ?_).trans (List.map_id _)).symm
        exact Prod.ext (Percent.decode_encode entry.1) (Percent.decode_encode entry.2)
      simp only [Option.map_some, Option.getD_some, Content.finding, distinct]
      rfl

/-- A value has a content just where an expansion keeps something of it. -/
theorem isSome_content?_eq (field : Field) (value : Value) :
    (field.content? value).isSome = (field.occurrence.kept? value).isSome := by
  cases value with
  | undefined => rfl
  | text text => rfl
  | list items =>
    simp only [content?, Operator.content?, Variable.kept?]
    split_ifs <;> rfl
  | map map =>
    simp only [content?, Operator.content?, Variable.kept?]
    split_ifs <;> rfl

/-- What leaves no trace need not be told. -/
theorem finding_of_tellsKept (tells : hints.TellsKept field.occurrence value)
    {contributed : Option Text}
    (accepted : field.operator.contribution field.occurrence value = .ok contributed) :
    ((field.content? value).map (Content.finding hints field.occurrence)).getD .silent =
      .ofKept (field.occurrence.kept? value) := by
  cases kept : field.occurrence.kept? value with
  | none =>
    have nothing := field.isSome_content?_eq value
    rw [kept, Option.isSome_none, Option.isSome_eq_false_iff, Option.isNone_iff_eq_none] at nothing
    rw [nothing]
    rfl
  | some known => rw [← kept, finding_content? (tells.told known kept) accepted]

end Field

/-- What is written for a value whose form is left open is a single text. -/
theorem Hints.Tells.exists_text {hints : Hints} {operator : Operator} {v : Variable}
    {value : Value} {content : Content} (tells : hints.Tells v value)
    (known : operator.content? v value = some content) (listed : (hints.forms v).list = true)
    (mapped : (hints.forms v).map = true) : ∃ text, content = .texts [text] := by
  simp only [Hints.forms] at listed mapped
  cases value with
  | undefined => cases known
  | text text => exact ⟨_, (Option.some.inj known).symm⟩
  | list items =>
    obtain ⟨isList, noMap⟩ := tells.list items rfl
    simp [isList, noMap] at mapped
  | map map =>
    obtain ⟨isMap, noList⟩ := tells.map map rfl
    simp [isMap, noList] at listed

/-- Whether the entries of an exploded map are told from all other items: its variable is the
last one of the expression, and no key is written like the name of another variable. -/
structure Expression.TellsEntries (expression : Expression) (hints : Hints)
    (environment : Environment) : Prop where
  last : ∀ v ∈ expression.occurrences, v.isExploded = true → v.name ∈ hints.maps →
    expression.occurrences.getLast? = some v
  keys : ∀ v ∈ expression.occurrences, v.isExploded = true → v.name ∈ hints.maps →
    ∀ map, environment.value v.name = .map map → ∀ key ∈ map.keys,
      ∀ other ∈ expression.occurrences, other ≠ v →
        expression.operator.encode key ≠ other.name

namespace Expression

variable {expression : Expression} {part : Nat} {hints : Hints} {environment : Environment}

/-- An item of a value belongs to a field of the expression and to its value. -/
theorem exists_of_mem_selection_steps {step : Field × Content}
    (member : step ∈ (expression.selection part hints environment).steps) :
    ∃ v ∈ expression.occurrences, ∃ index content,
      step.1 = expression.field part hints v index ∧
      expression.operator.content? v (environment.value v.name) = some content ∧
      step.2 ∈ step.1.steps content := by
  obtain ⟨content, found, among⟩ := Selection.exists_of_mem_steps member
  obtain ⟨v, occurs, index, same⟩ := exists_of_mem_selection found
  obtain ⟨own, known⟩ := Prod.mk.inj same
  exact ⟨v, occurs, index, content, own, known.symm, among⟩

/-- The forms of a field leave no choice for the items of its value. -/
theorem tells_steps
    (tells : ∀ v ∈ expression.occurrences, hints.Tells v (environment.value v.name)) :
    ∀ step ∈ (expression.selection part hints environment).steps, step.1.Tells step.2 := by
  rintro ⟨field, single⟩ member
  obtain ⟨v, occurs, index, content, own, known, among⟩ := exists_of_mem_selection_steps member
  obtain rfl : field = expression.field part hints v index := own
  have told := tells v occurs
  refine ⟨fun exploded => Hints.forms_of_exploded exploded (told.exploded exploded),
    fun whole listed mapped => ?_⟩
  rw [Field.steps_of_whole whole, List.mem_singleton] at among
  obtain rfl : single = content := among
  exact told.exists_text known listed mapped

/-- What an item has for a name is the name of its field or an encoded key of an exploded
map. -/
theorem head_steps (tells : ∀ v ∈ expression.occurrences, hints.Tells v (environment.value v.name))
    (entries : expression.TellsEntries hints environment) {v : Variable} {index : Nat}
    {single : Content}
    (member : (expression.field part hints v index, single) ∈
      (expression.selection part hints environment).steps) :
    ∀ other ∈ expression.occurrences, other.name ≠ v.name →
      other.name ≠ (expression.field part hints v index).head single := by
  intro other occurs differs
  obtain ⟨w, occursOwn, i, content, own, known, among⟩ := exists_of_mem_selection_steps member
  obtain rfl : v = w := congrArg Field.occurrence own
  unfold Field.head
  split
  · rename_i entry
    split
    · rename_i exploded
      rw [Field.steps_of_exploded exploded] at among
      cases value : environment.value v.name with
      | undefined => simp [value, Operator.content?] at known
      | text text =>
        rw [value] at known
        obtain rfl := Option.some.inj known
        simp [Content.singles] at among
      | list items =>
        simp only [value, Operator.content?] at known
        split_ifs at known
        obtain rfl := Option.some.inj known
        simp [Content.singles] at among
      | map map =>
        simp only [value, Operator.content?] at known
        split_ifs at known
        obtain rfl := Option.some.inj known
        obtain ⟨encoded, found, same⟩ := List.mem_map.mp among
        obtain ⟨original, inMap, rfl⟩ := List.mem_map.mp found
        cases same
        have mapped := (tells v occursOwn).map map value
        refine (entries.keys v occursOwn exploded mapped.1 map value original.1
          (List.mem_map_of_mem inMap) other occurs ?_).symm
        rintro rfl
        exact differs rfl
    · exact differs
  · exact differs

/-- **The items of values are told apart**, if hints say what the values are and entries are not
mistaken for other items. -/
theorem isTold_steps (distinct : (expression.occurrences.map Variable.name).Nodup)
    (tells : ∀ v ∈ expression.occurrences, hints.Tells v (environment.value v.name))
    (entries : expression.TellsEntries hints environment) :
    ∀ step ∈ (expression.selection part hints environment).steps,
      step.1.IsTold (expression.fields part hints) step.2 := by
  rintro ⟨field, single⟩ member
  refine ⟨tells_steps tells _ member, fun earlier later split known before => ?_⟩
  obtain ⟨v, occurs, index, content, own, -, -⟩ := exists_of_mem_selection_steps member
  obtain rfl : field = expression.field part hints v index := own
  obtain ⟨w, occursOther, i, rfl⟩ := exists_of_mem_fields
    (show known ∈ expression.fields part hints from split ▸ List.mem_append_left _ before)
  have occurrences := expression.occurrences_eq part hints
  rw [split, List.map_append, List.map_cons] at occurrences
  have names := distinct
  rw [← occurrences, List.map_append, List.nodup_append] at names
  have differs : ∀ u ∈ v :: later.map Field.occurrence, w.name ≠ u.name := fun u found =>
    names.2.2 w.name (List.mem_map_of_mem (List.mem_map_of_mem before)) u.name
      (List.mem_map_of_mem found)
  refine ⟨fun exploded => ?_, head_steps tells entries member w occursOther
    (differs v List.mem_cons_self)⟩
  by_contra mapped
  have hinted : w.name ∈ hints.maps := by
    have one := (tells w occursOther).exploded exploded
    by_contra unmapped
    exact mapped (by simp [field, Hints.forms, unmapped, one.mpr unmapped])
  have last := entries.last w occursOther exploded hinted
  rw [← occurrences, List.getLast?_append_of_ne_nil _ (List.cons_ne_nil _ _)] at last
  exact differs w (List.mem_of_getLast? last) rfl

end Expression

end UriTemplates
