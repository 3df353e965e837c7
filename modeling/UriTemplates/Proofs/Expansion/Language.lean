import UriTemplates.Matching
import UriTemplates.Proofs.Expansion.Content
import UriTemplates.Proofs.Template.Items
import UriTemplates.Proofs.Template.Pattern

/-!
# Expansions match

Every expansion of a template is read by the pattern of the template, provided that hints say
nothing about the values that is not so (`Hints.Fits`): the encoded values are contents that
the fields may have (`Field.admits_content?`), and they are left out just where nothing is
written.
-/

namespace UriTemplates

/-- Whether hints agree with the value of a variable. -/
structure Hints.Fits (hints : Hints) (v : Variable) (value : Value) : Prop where
  /-- What is hinted as a list is a list, if it has a value. -/
  list : v.name ∈ hints.lists → value = .undefined ∨ ∃ items, value = .list items
  /-- What is hinted as a map is a map, if it has a value. -/
  map : v.name ∈ hints.maps → value = .undefined ∨ ∃ entries, value = .map entries
  /-- A truncated variable is hinted as neither. -/
  truncated : v.length?.isSome = true → v.name ∉ hints.lists ∧ v.name ∉ hints.maps
  /-- A required variable has a value that is no empty list or map. -/
  required : v.name ∈ hints.required → value ≠ .undefined ∧ value.isEmptyComposite = false

/-- Without hints every value of a variable fits. -/
theorem Hints.fits_none (v : Variable) (value : Value) : Hints.Fits {} v value where
  list hinted := by cases hinted
  map hinted := by cases hinted
  truncated _ := ⟨List.not_mem_nil, List.not_mem_nil⟩
  required hinted := by cases hinted

/-- Hints that a value fits do not contradict the truncation of its variable. -/
theorem Hints.Fits.contradiction?_eq_none {hints : Hints} {v : Variable} {value : Value}
    (fits : hints.Fits v value) : Expression.contradiction? hints v = none := by
  unfold Expression.contradiction?
  cases length : v.length? with
  | none => rfl
  | some count =>
    obtain ⟨noList, noMap⟩ := fits.truncated (by rw [length]; rfl)
    simp [noList, noMap]

theorem Field.isWritten_encode (field : Field) (text : Text) :
    field.IsWritten (field.operator.encode text) :=
  Percent.written_encode text

/-- The content of a value is one that its field may have, if hints agree with the value. -/
theorem Field.admits_content? {field : Field} {hints : Hints} {value : Value}
    {contributed : Option Text} (forms : field.forms = hints.forms field.occurrence)
    (fits : hints.Fits field.occurrence value)
    (accepted : field.operator.contribution field.occurrence value = .ok contributed) :
    ∀ content ∈ field.content? value, field.Admits content := by
  intro content known
  cases value with
  | undefined => cases known
  | text text =>
    cases known
    have noList : field.occurrence.name ∉ hints.lists := fun hinted => by
      rcases fits.list hinted with absurd | ⟨items, absurd⟩ <;> cases absurd
    have noMap : field.occurrence.name ∉ hints.maps := fun hinted => by
      rcases fits.map hinted with absurd | ⟨entries, absurd⟩ <;> cases absurd
    refine ⟨by simp, by simpa using field.isWritten_encode _, ?_⟩
    unfold AdmitsTexts
    split
    · rename_i length modifier
      have kept : field.occurrence.kept text = text.take length := by
        simp [Variable.kept, Variable.length?, modifier]
      rw [kept]
      exact ⟨_, rfl, _, List.length_take_le length text, Percent.inCodePoints_encode _⟩
    · exact .inl (by simp [forms, Hints.forms, noMap])
    · rename_i modifier
      exact .inr (.inl ⟨by simp [forms, Hints.forms, noList, noMap, Variable.isExploded, modifier],
        rfl⟩)
  | list items =>
    have noMap : field.occurrence.name ∉ hints.maps := fun hinted => by
      rcases fits.map hinted with absurd | ⟨entries, absurd⟩ <;> cases absurd
    have asList : field.forms.list = true := by simp [forms, Hints.forms, noMap]
    simp only [Operator.contribution] at accepted
    split_ifs at accepted with truncated empty
    · simp [Field.content?, Operator.content?, empty] at known
    · simp only [Field.content?, Operator.content?, if_neg empty, Option.mem_some_iff] at known
      subst known
      refine ⟨by simpa using empty, ?_, ?_⟩
      · intro text member
        obtain ⟨item, -, rfl⟩ := List.mem_map.mp member
        exact field.isWritten_encode item
      · unfold AdmitsTexts
        split
        · rename_i length modifier
          simp [Variable.length?, modifier] at truncated
        · exact .inl asList
        · exact .inl asList
  | map map =>
    have noList : field.occurrence.name ∉ hints.lists := fun hinted => by
      rcases fits.list hinted with absurd | ⟨items, absurd⟩ <;> cases absurd
    simp only [Operator.contribution] at accepted
    split_ifs at accepted with truncated empty
    · simp [Field.content?, Operator.content?, empty] at known
    · simp only [Field.content?, Operator.content?, if_neg empty, Option.mem_some_iff] at known
      subst known
      refine ⟨by simpa [OrderedMap.isEmpty] using empty, ?_, by simp [forms, Hints.forms, noList],
        by simpa using truncated⟩
      intro entry member
      obtain ⟨original, -, rfl⟩ := List.mem_map.mp member
      exact ⟨field.isWritten_encode _, field.isWritten_encode _⟩

/-- A value that is defined and no empty list or map has a content. -/
theorem Field.isSome_content? {field : Field} {value : Value} (defined : value ≠ .undefined)
    (nonempty : value.isEmptyComposite = false) : (field.content? value).isSome = true := by
  cases value with
  | undefined => exact (defined rfl).elim
  | text text => rfl
  | list items =>
    have some_ : items.isEmpty = false := nonempty
    simp [Field.content?, Operator.content?, some_]
  | map map =>
    have some_ : map.isEmpty = false := nonempty
    simp [Field.content?, Operator.content?, some_]

namespace Expression

variable {expression : Expression} {part : Nat} {hints : Hints} {environment : Environment}
  {text : Text}

/-- The contents that are expanded are a selection of the fields if the values fit the hints. -/
theorem isOf_selection (expanded : expression.expand environment = .ok text)
    (fits : ∀ v ∈ expression.occurrences, hints.Fits v (environment.value v.name)) :
    (expression.selection part hints environment).IsOf (expression.fields part hints) where
  fields_eq := by simp [selection, Function.comp_def]
  admits chosen member := by
    obtain ⟨v, occurs, index, rfl⟩ := exists_of_mem_selection member
    obtain ⟨contributed, accepted⟩ := expression.exists_contribution expanded v occurs
    exact Field.admits_content? rfl (fits v occurs) accepted

/-- An expansion of an expression is read by the pattern of the expression. -/
theorem derives_expansion (expanded : expression.expand environment = .ok text)
    (fits : ∀ v ∈ expression.occurrences, hints.Fits v (environment.value v.name)) :
    (patternOf expression.operator (expression.fields part hints)).readings.Derives text
      (expression.selection part hints environment).marks := by
  rw [expression.expand_eq part hints expanded]
  refine derives_selection (expression.isOf_fields part hints) (isOf_selection expanded fits)
    fun chosen member required => ?_
  obtain ⟨v, occurs, index, rfl⟩ := exists_of_mem_selection member
  obtain ⟨defined, nonempty⟩ := (fits v occurs).required (List.contains_iff_mem.mp required)
  exact Field.isSome_content? defined nonempty

end Expression

/-- The expansions of parts are read by their patterns, one after the other. -/
theorem Part.exists_derives_expansions {hints : Hints} {environment : Environment}
    {parts : List Part} {texts : List Text} {index : Nat}
    (expanded : parts.mapM (Part.expand environment) = .ok texts)
    (fits : ∀ v ∈ parts.flatMap Part.occurrences, hints.Fits v (environment.value v.name)) :
    ∃ patterns marks, Part.patterns index hints parts = .ok patterns ∧
      (Pattern.seq patterns).readings.Derives texts.flatten marks := by
  have pointwise := mapM_eq_ok_iff.mp expanded
  induction pointwise generalizing index with
  | nil => exact ⟨[], [], rfl, Pattern.derives_seq_nil.mpr ⟨rfl, rfl⟩⟩
  | @cons part text parts texts first later ih =>
    rw [List.flatMap_cons, List.forall_mem_append] at fits
    obtain ⟨fitsHere, fitsLater⟩ := fits
    obtain ⟨patterns, marks, built, derived⟩ : ∃ patterns marks,
        Part.patterns (index + 1) hints parts = .ok patterns ∧
          (Pattern.seq patterns).readings.Derives texts.flatten marks :=
      ih (mapM_eq_ok_iff.mpr later) fitsLater
    obtain ⟨pattern, before, builtHere, derivedHere⟩ : ∃ pattern before,
        part.pattern index hints = .ok pattern ∧ pattern.readings.Derives text before := by
      cases part with
      | literal part =>
        cases first
        exact ⟨_, [], rfl, Pattern.derives_literal.mpr ⟨rfl, rfl⟩⟩
      | expression part =>
        exact ⟨_, _, Expression.pattern_eq_ok_iff.mpr
          ⟨fun v occurs => (fitsHere v occurs).contradiction?_eq_none, rfl⟩,
          Expression.derives_expansion first fitsHere⟩
    exact ⟨pattern :: patterns, before ++ marks,
      Part.patterns_cons.mpr ⟨pattern, patterns, rfl, builtHere, built⟩,
      Pattern.derives_seq_cons.mpr ⟨_, _, _, _, rfl, rfl, derivedHere, derived⟩⟩

/-- A template expands to the expansions of its parts, one after the other. -/
theorem Template.expand_eq_ok_iff {template : Template} {environment : Environment}
    {text : Text} :
    template.expand environment = .ok text ↔ ∃ texts,
      template.parts.mapM (Part.expand environment) = .ok texts ∧ texts.flatten = text := by
  simp only [Template.expand, bind_eq_ok_iff, return_eq_ok_iff]

/-- An expression expands where every variable contributes a text or nothing. -/
theorem Expression.exists_expand_iff {expression : Expression} {environment : Environment} :
    (∃ text, expression.expand environment = .ok text) ↔ ∀ v ∈ expression.occurrences,
      ∃ contributed, expression.operator.contribution v (environment.value v.name) =
        .ok contributed := by
  simp only [← exists_mapM_eq_ok_iff, Expression.expand_eq_ok_iff]
  constructor
  · rintro ⟨_, contributions, each, -⟩
    exact ⟨contributions, each⟩
  · rintro ⟨contributions, each⟩
    exact ⟨_, contributions, each, rfl⟩

/-- A template expands where every expression does. -/
theorem Template.exists_expand_iff {template : Template} {environment : Environment} :
    (∃ expansion, template.expand environment = .ok expansion) ↔
      ∀ expression, Part.expression expression ∈ template.parts →
        ∃ text, expression.expand environment = .ok text := by
  simp only [Template.expand_eq_ok_iff]
  rw [exists_comm]
  simp only [exists_and_left, exists_eq', and_true, exists_mapM_eq_ok_iff]
  constructor
  · exact fun each expression member => each _ member
  · rintro each (part | part) member
    · exact ⟨part.text, rfl⟩
    · exact each part member

/-- The pattern of a template captures every expansion of values that fit the hints. -/
theorem Template.exists_capture {template : Template} {environment : Environment}
    {expansion : Text} (expanded : template.expand environment = .ok expansion) {hints : Hints}
    (fits : ∀ v ∈ template.occurrences, hints.Fits v (environment.value v.name)) :
    ∃ captures, template.capture hints expansion = .ok (some captures) := by
  obtain ⟨texts, each, rfl⟩ := Template.expand_eq_ok_iff.mp expanded
  obtain ⟨patterns, marks, built, derived⟩ := Part.exists_derives_expansions each fits
  have pattern := Template.pattern_eq_ok_iff.mpr ⟨patterns, built, rfl⟩
  obtain ⟨captures, first⟩ := Readings.exists_whole?_of_derives derived
  refine ⟨captures, ?_⟩
  rw [Template.capture, pattern]
  exact (Template.captures?_pattern pattern _).trans (congrArg Except.ok first)

/-- **Every expansion matches.** Where a template expands, its pattern matches the expansion
with all hints that agree with the values, and without hints in any case. -/
theorem Template.capture_expansion {template : Template} (environment : Environment)
    {expansion : Text} (expanded : template.expand environment = .ok expansion) :
    (∀ hints : Hints,
      (∀ v ∈ template.occurrences, hints.Fits v (environment.value v.name)) →
        ∃ captures, template.capture hints expansion = .ok (some captures)) ∧
      ∃ captures, template.capture {} expansion = .ok (some captures) :=
  ⟨fun _ fits => Template.exists_capture expanded fits,
    Template.exists_capture expanded fun v _ => Hints.fits_none v _⟩

/-- An expansion with exploded values of both kinds, an empty item and a truncated text. -/
theorem Template.capture_expansion_parameters :
    ∃ captures, Template.capture
      ⟨[.expression ⟨.path, [⟨['s'], .exploded, rfl, rfl⟩], by simp⟩,
        .expression ⟨.parameter, [⟨['m'], .exploded, rfl, rfl⟩, ⟨['t'], .truncated 2, rfl, rfl⟩],
          by simp⟩]⟩ { required := [['t']], lists := [['s']], maps := [['m']] }
      ['/', 'a', '/', ';', 'k', ';', 't', '=', 'x', '%', 'C', '3', '%', 'A', '9'] =
        .ok (some captures) := by
  refine (Template.capture_expansion ⟨[(['s'], .list [['a'], []]),
    (['m'], .map ⟨[(['k'], [])], by simp⟩), (['t'], .text ['x', 'é', 'y'])], by decide⟩ ?_).1 _ ?_
  · rfl
  · intro v member
    simp only [Template.occurrences, Part.occurrences, List.flatMap_cons, List.flatMap_nil,
      List.append_nil, List.cons_append, List.nil_append, List.mem_cons, List.not_mem_nil, or_false]
        at member
    rcases member with rfl | rfl | rfl
    · exact ⟨fun _ => .inr ⟨_, rfl⟩, fun hinted => absurd hinted (by decide), by decide,
        fun hinted => absurd hinted (by decide)⟩
    · exact ⟨fun hinted => absurd hinted (by decide), fun _ => .inr ⟨_, rfl⟩, by decide,
        fun hinted => absurd hinted (by decide)⟩
    · exact ⟨fun hinted => absurd hinted (by decide), fun hinted => absurd hinted (by decide),
        by decide, fun _ => ⟨by decide, rfl⟩⟩

end UriTemplates
