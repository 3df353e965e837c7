import UriTemplates.Proofs.Matching.Forms
import UriTemplates.Proofs.Template.Foremost

/-!
# Shapes without hints

The shapes of the values that are bound where no name is hinted as a list or a map. The parts around
an expression decide which span of the URI is left to a variable, and the first shape that fits the
span is chosen (`Expression.exists_foremost_content`): a text before a list before a map. So what is
not exploded is never bound to a map, and what is exploded is bound to a map just if an equals sign
was matched that no value is written with (`Template.bindings_shapes`).
-/

namespace UriTemplates

open Captures (textsAt)

/-- Each of the texts that are joined is a part of what they are joined to. -/
theorem Text.infix_joined {separator : Char} {text : Text} {texts : List Text}
    (member : text ∈ texts) : text <:+: joined separator texts := by
  induction texts with
  | nil => cases member
  | cons first texts ih =>
    by_cases last : texts = []
    · subst last
      obtain rfl := List.mem_singleton.mp member
      exact ⟨[], [], by rw [joined_singleton, List.append_nil, List.nil_append]⟩
    · rw [joined_cons first last]
      rcases List.mem_cons.mp member with rfl | later
      · exact (List.prefix_append text _).isInfix
      · have rest : joined separator texts <:+ first ++ separator :: joined separator texts :=
          (List.suffix_cons separator _).trans (List.suffix_append first _)
        exact (ih later).trans rest.isInfix

/-- What a variable contributes is part of its expression. -/
theorem Operator.infix_assemble {operator : Operator} {text : Text} {texts : List Text}
    (member : text ∈ texts) : text <:+: operator.assemble texts := by
  have nonempty : texts.isEmpty = false := by
    rw [Bool.eq_false_iff, Ne, List.isEmpty_iff]
    rintro rfl
    cases member
  rw [assemble, nonempty]
  exact (Text.infix_joined member).trans (List.suffix_append operator.first _).isInfix

/-- What stands at a position of a list stands after as many others. -/
theorem exists_append_of_getElem? {α : Type} {items : List α} {index : Nat} {item : α}
    (placed : items[index]? = some item) :
    ∃ before after, items = before ++ item :: after ∧ before.length = index := by
  obtain ⟨bound, rfl⟩ := List.getElem?_eq_some_iff.mp placed
  refine ⟨items.take index, items.drop (index + 1), ?_, List.length_take_of_le bound.le⟩
  rw [List.getElem_cons_drop, List.take_append_drop]

namespace Hints

variable {hints : Hints} {v : Variable}

/-- Whether hints leave the form of every variable open. -/
structure IsOpen (hints : Hints) : Prop where
  lists : hints.lists = []
  maps : hints.maps = []

/-- With open hints, a variable may have every form, but no exploded variable is a text. -/
theorem IsOpen.forms_eq (isOpen : hints.IsOpen) (v : Variable) :
    hints.forms v = { text := !v.isExploded, list := true, map := true } := by
  simp [forms, isOpen.lists, isOpen.maps]

theorem IsOpen.mayBeText_eq (isOpen : hints.IsOpen) (v : Variable) :
    Binding.mayBeText hints v = !v.isExploded := by
  simp [Binding.mayBeText, isOpen.lists, isOpen.maps]

end Hints

namespace Expression

variable {expression : Expression} {part : Nat} {hints : Hints} {captures : Captures Site}
  {text : Text} {marks : List (Site × Option Text)} {field : Field}

/-- With open hints, every field may be a list, and a text unless it is exploded. -/
theorem forms_of_isOpen (isOpen : hints.IsOpen) (member : field ∈ expression.fields part hints) :
    field.forms.list = true ∧ (field.occurrence.isExploded = false → field.forms.text = true) := by
  obtain ⟨v, -, index, rfl⟩ := exists_of_mem_fields member
  have forms : (expression.field part hints v index).forms = hints.forms v := rfl
  rw [forms, isOpen.forms_eq]
  exact ⟨rfl, fun whole => by rw [show v.isExploded = false from whole]; rfl⟩

/-- **The first shape that fits its span** is what a variable has where no names are written. -/
theorem exists_foremost_content (isOpen : hints.IsOpen)
    (unnamed : expression.operator.isNamed = false)
    (read : (patternOf expression.operator (expression.fields part hints)).readings.whole? text =
      some marks)
    (shown : ∀ site, site.part = part → textsAt captures site = textsAt marks site)
    (member : field ∈ expression.fields part hints) :
    ∃ content : Option Content, field.Shows content captures ∧
      ∀ known ∈ content, field.Admits known ∧ field.IsForemost known ∧
        field.written known <:+: text := by
  have same : ∀ field ∈ expression.fields part hints, field.operator = expression.operator :=
    fun field found => (expression.isOf_fields part hints field found).operator_eq
  have each : ∀ field ∈ expression.fields part hints, field.ReadsFirst field.IsForemost := by
    intro field found
    obtain ⟨listed, isText⟩ := forms_of_isOpen isOpen found
    exact Field.readsFirst_isForemost (same field found ▸ unnamed) listed isText
  obtain ⟨selection, isAble, rfl, rfl⟩ := exists_isAble_of_whole? unnamed same
    (expression.fields_ne_nil part hints) each read
  obtain ⟨⟨own, content⟩, chosen, rfl⟩ : ∃ chosen ∈ selection, chosen.1 = field := by
    rw [← isAble.isOf.fields_eq] at member
    exact List.mem_map.mp member
  refine ⟨content, shows_selection isAble.isOf shown _ chosen, fun known found => ?_⟩
  refine ⟨isAble.isOf.admits _ chosen known found, isAble.able _ chosen known found, ?_⟩
  apply Operator.infix_assemble
  exact List.mem_filterMap.mpr ⟨_, chosen, by rw [Option.mem_def.mp found]; rfl⟩

/-- What is found of a field without a name is found of the first content that fits its span. -/
theorem exists_foremost_finding (isOpen : hints.IsOpen)
    (unnamed : expression.operator.isNamed = false)
    (read : (patternOf expression.operator (expression.fields part hints)).readings.whole? text =
      some marks)
    (shown : ∀ site, site.part = part → textsAt captures site = textsAt marks site)
    (member : field ∈ expression.fields part hints) {value : Value}
    (found : Binding.finding field.operator field.part (captures.evidence field.part) hints
      field.index field.occurrence = .ok (.value value)) :
    ∃ content, field.Admits content ∧ field.IsForemost content ∧ field.written content <:+: text ∧
      content.finding hints field.occurrence = .value value ∧
      captures.evidence field.part field.index .value = some (field.units content) := by
  obtain ⟨content, shows, known⟩ := exists_foremost_content isOpen unnamed read shown member
  have made := (Field.finding_of_shows shows fun content here => (known content here).1).symm.trans
    found
  cases content with
  | none => cases made
  | some content =>
    obtain ⟨admitted, foremost, inside⟩ := known content rfl
    refine ⟨content, admitted, foremost, inside, Except.ok.inj made, ?_⟩
    have valued := Field.values_of_shows shows
    rw [Option.toList_some, List.flatMap_singleton] at valued
    obtain ⟨first, later, units⟩ := List.exists_cons_of_ne_nil (Field.units_ne_nil admitted)
    rw [units] at valued ⊢
    exact eq_some_of_getD_eq_cons valued

/-- Where names are written, what is captured of a field that is not exploded has no keys. -/
theorem keys_eq_nil (isOpen : hints.IsOpen) (named : expression.operator.isNamed = true)
    (read : (patternOf expression.operator (expression.fields part hints)).readings.whole? text =
      some marks)
    (shown : ∀ site, site.part = part → textsAt captures site = textsAt marks site)
    (member : field ∈ expression.fields part hints) (whole : field.occurrence.isExploded = false) :
    textsAt captures (field.site .key) = [] := by
  obtain ⟨steps, known, -, rfl⟩ := exists_preferred_steps named (expression.isOf_fields part hints)
    (fun _ found => (forms_of_isOpen isOpen found).1) read
  have inside : ∀ step ∈ steps, step.1 ∈ expression.fields part hints :=
    fun step found => (known step found).1
  have distinct := expression.nodup_index part hints
  have unmarked : field.marksEntries = false := by simp [Field.marksEntries, whole]
  rw [shown _ (part_of_mem_fields member), Selection.textsAt_steps distinct inside member,
    List.flatMap_eq_nil_iff]
  intro content found
  obtain ⟨step, filtered, rfl⟩ := List.mem_map.mp found
  obtain ⟨among, sameIndex⟩ := List.mem_filter.mp filtered
  obtain rfl : step.1 = field :=
    Selection.eq_of_index_eq distinct (inside step among) member (of_decide_eq_true sameIndex)
  obtain ⟨texts, same⟩ := Field.exists_texts_of_preferred unmarked (known step among).2.1
  rw [same]
  exact step.1.textsAt_key (.texts texts)

end Expression

/-- The shape of a binding without hints. -/
structure Binding.HasFirstShape (binding : Binding) (operator : Operator) (matched : Text) :
    Prop where
  /-- What is not exploded is a text, or a list of several items if no reserved character can stand
  in a text. -/
  whole : binding.occurrence.isExploded = false → binding.value.isText = true ∨
    operator.allowsReserved = false ∧ ∃ items, binding.value = .list items ∧ 2 ≤ items.length
  /-- What is exploded is a list if reserved characters are left as they are. -/
  reserved : binding.occurrence.isExploded = true → operator.allowsReserved = true →
    binding.value.isList = true
  /-- What is exploded without names is a list or a map as the matched text has an equals sign. -/
  exploded : binding.occurrence.isExploded = true → operator.isNamed = false →
    operator.allowsReserved = false →
      ('=' ∉ matched → binding.value.isList = true) ∧ ('=' ∈ matched → binding.value.isMap = true)

namespace Binding

variable {hints : Hints} {v : Variable} {value : Value} {values : List Text}

/-- Texts of a variable that is not exploded are a text, or a list of several items. -/
theorem shape_of_whole (isOpen : hints.IsOpen) (whole : v.isExploded = false) (some_ : values ≠ [])
    (found : textsFinding hints v values = .value value) :
    value.isText = true ∨ 2 ≤ values.length ∧ value = .list (values.map Percent.decode) := by
  rcases textsFinding_eq_value found with ⟨-, text, rfl⟩ | ⟨untruncated, rfl⟩
  · exact .inl rfl
  · refine .inr ⟨?_, rfl⟩
    by_contra few
    -- A single value is found to be a text.
    have nonempty := List.length_pos_iff.mpr some_
    obtain ⟨text, rfl⟩ := List.length_eq_one_iff.mp (show values.length = 1 by omega)
    cases modifier : v.modifier with
    | plain => simp [textsFinding, modifier, isOpen.mayBeText_eq, whole] at found
    | truncated length => simp [Variable.length?, modifier] at untruncated
    | exploded => simp [Variable.isExploded, modifier] at whole

/-- Texts of an exploded variable are a list. -/
theorem isList_of_exploded (apart : v.isExploded = true)
    (found : textsFinding hints v values = .value value) : value.isList = true := by
  rcases textsFinding_eq_value found with ⟨truncated | free, -⟩ | ⟨-, rfl⟩
  · rw [Variable.isExploded_of_length? truncated] at apart
    cases apart
  · simp [mayBeText, apart] at free
  · rfl

/-- The shape of what is found where names are written. -/
theorem hasFirstShape_of_named (isOpen : hints.IsOpen) {operator : Operator}
    (named : operator.isNamed = true) (matched : Text) (some_ : values ≠ [])
    (found : v.isExploded = false → textsFinding hints v values = .value value) :
    HasFirstShape ⟨v, value⟩ operator matched where
  whole whole := by
    have encoded := Operator.allowsReserved_of_named named
    refine (shape_of_whole isOpen whole some_ (found whole)).imp_right fun ⟨several, same⟩ => ?_
    exact ⟨encoded, _, same, by rwa [List.length_map]⟩
  reserved _ kept := by
    rw [Operator.allowsReserved_of_named named] at kept
    cases kept
  exploded _ unnamed := by
    rw [named] at unnamed
    cases unnamed

end Binding

namespace Field

variable {field : Field} {content : Content} {hints : Hints} {value : Value}

/-- What is found of a content of an exploded field without a name is a list or a map as it is
written without or with an equals sign. -/
theorem shape_of_exploded (unnamed : field.operator.isNamed = false)
    (apart : field.occurrence.isExploded = true) (encoded : field.operator.allowsReserved = false)
    (admitted : field.Admits content)
    (found : content.finding hints field.occurrence = .value value) :
    ('=' ∉ Text.joined field.operator.separator (field.units content) → value.isList = true) ∧
      ('=' ∈ Text.joined field.operator.separator (field.units content) →
        value.isMap = true) := by
  have separator : '=' ≠ field.operator.separator := by
    cases field.operator <;> decide
  cases content with
  | texts written =>
    have unwritten : '=' ∉ Text.joined field.operator.separator written := by
      refine Text.notMem_joined separator fun text member => ?_
      refine (admitted.2.1 text member).notMem ?_ (by decide)
      rw [encoded]
      decide
    exact ⟨fun _ => Binding.isList_of_exploded apart found, fun inside => (unwritten inside).elim⟩
  | entries written =>
    obtain ⟨entry, others, rfl⟩ := List.exists_cons_of_ne_nil admitted.1
    have keySeparator : field.keySeparator = '=' := if_pos apart
    have marked : '=' ∈ Text.joined field.operator.separator
        (field.units (.entries (entry :: others))) := by
      refine (Text.infix_joined List.mem_cons_self).subset ?_
      rw [entryText_of_unnamed unnamed, keySeparator]
      exact List.mem_append_right _ List.mem_cons_self
    refine ⟨fun unmarked => (unmarked marked).elim, fun _ => ?_⟩
    simp only [Content.finding] at found
    split at found
    · cases found
    · cases found
      rfl

/-- The shape of what is found of the first content that fits a span. -/
theorem hasFirstShape_of_foremost (isOpen : hints.IsOpen)
    (unnamed : field.operator.isNamed = false) (admitted : field.Admits content)
    (foremost : field.IsForemost content)
    (found : content.finding hints field.occurrence = .value value) :
    Binding.HasFirstShape ⟨field.occurrence, value⟩ field.operator
      (Text.joined field.operator.separator (field.units content)) where
  whole whole := by
    have unmarked : field.marksEntries = false := by simp [marksEntries, whole]
    obtain ⟨texts, rfl⟩ := exists_texts_of_preferred unmarked foremost.preferred
    refine (Binding.shape_of_whole isOpen whole admitted.1 found).imp_right ?_
    rintro ⟨several, same⟩
    refine ⟨?_, _, same, by rwa [List.length_map]⟩
    by_contra reserved
    -- A single text is read before a list is tried.
    obtain ⟨text, single⟩ := foremost.single whole (Bool.not_eq_false _ ▸ reserved)
    obtain rfl := Content.texts.inj single
    exact absurd several (Nat.not_succ_le_self 1)
  reserved apart kept := by
    have unmarked : field.marksEntries = false := by simp [marksEntries, kept]
    obtain ⟨texts, rfl⟩ := exists_texts_of_preferred unmarked foremost.preferred
    exact Binding.isList_of_exploded apart found
  exploded apart _ encoded := shape_of_exploded unnamed apart encoded admitted found

/-- What an exploded field without a name is written as are its texts with the separator of the
operator between them. -/
theorem written_of_exploded (unnamed : field.operator.isNamed = false)
    (apart : field.occurrence.isExploded = true) (content : Content) :
    field.written content = Text.joined field.operator.separator (field.units content) := by
  rw [written_of_unnamed unnamed, itemSeparator, if_pos apart]

end Field

namespace Template

variable {template : Template} {hints : Hints} {uri : Text} {captures : Captures Site}

/-- In a match of a template the span of an expression is read as it is read alone. -/
theorem exists_whole?_of_capture (captured : template.capture hints uri = .ok (some captures))
    {index : Nat} {expression : Expression}
    (placed : template.parts[index]? = some (.expression expression)) :
    ∃ span marks, span <:+: uri ∧
      (Expression.patternOf expression.operator
        (expression.fields index hints)).readings.whole? span = some marks ∧
      ∀ site, site.part = index → textsAt captures site = textsAt marks site := by
  obtain ⟨pattern, built, read⟩ := bind_eq_ok_iff.mp captured
  obtain ⟨patterns, each, rfl⟩ := pattern_eq_ok_iff.mp built
  have first := Except.ok.inj ((captures?_pattern built uri).symm.trans read)
  obtain ⟨before, after, parts, rfl⟩ := exists_append_of_getElem? placed
  rw [parts] at each
  obtain ⟨_, _, _, front, span, back, _, marks, _, -, here, -, rfl, -, alone, -, shown⟩ :=
    exists_whole?_of_append each first fun _ _ => rfl
  obtain ⟨-, rfl⟩ := Expression.pattern_eq_ok_iff.mp here
  rw [Nat.zero_add] at alone shown
  exact ⟨span, marks, ⟨front, back, List.append_assoc front span back⟩, alone, shown⟩

/-- **Shapes without hints.** Where no name is hinted as a list or a map, every binding that is made
of an occurrence that is not truncated has the first shape that fits what was matched: what is not
exploded is a text or a list of several items, and only a text if reserved characters are left as
they are; what is exploded is a list in that case, and where no names are written it is a list or a
map as the text that it matched has no equals sign or has one. -/
theorem bindings_shapes (isOpen : hints.IsOpen)
    (captured : template.capture hints uri = .ok (some captures)) {index : Nat}
    {expression : Expression} (placed : template.parts[index]? = some (.expression expression))
    {bindings : List Binding}
    (bound : expression.bindings index (captures.evidence index) hints = .ok (some bindings)) :
    ∀ binding ∈ bindings, binding.occurrence.length? = none →
      ∃ position values, expression.occurrences[position]? = some binding.occurrence ∧
        captures.evidence index position .value = some values ∧
        (binding.occurrence.isExploded = true → expression.operator.isNamed = false →
          Text.joined expression.operator.separator values <:+: uri) ∧
        binding.HasFirstShape expression.operator
          (Text.joined expression.operator.separator values) := by
  rintro ⟨v, value⟩ member untruncated
  obtain ⟨position, occurs, known⟩ := Expression.exists_finding_of_mem bound member
  obtain ⟨span, marks, within, read, shown⟩ := exists_whole?_of_capture captured placed
  have among := expression.field_mem_fields hints index occurs
  let field : Field := expression.field index hints v position
  cases named : expression.operator.isNamed with
  | true =>
    obtain ⟨values, valued, some_, -, found⟩ := Binding.finding_eq_value known
    have evidence : captures.evidence index position .value = some values := by
      obtain ⟨first, later, rfl⟩ := List.exists_cons_of_ne_nil some_
      exact eq_some_of_getD_eq_cons valued
    refine ⟨position, values, occurs, evidence, fun _ => nofun,
      Binding.hasFirstShape_of_named isOpen named _ some_ fun whole => ?_⟩
    have keyless := Expression.keys_eq_nil isOpen named read shown among whole
    rcases found with ⟨-, texts⟩ | ⟨-, keys, keyed, -⟩
    · exact texts
    · obtain ⟨same, nonempty⟩ := Captures.texts?_eq_some_iff.mp keyed
      exact (nonempty (same.symm.trans keyless)).elim
  | false =>
    obtain ⟨content, admitted, foremost, inside, found, evidence⟩ :=
      Expression.exists_foremost_finding isOpen named read shown among known
    refine ⟨position, field.units content, occurs, evidence, fun apart _ => ?_,
      Field.hasFirstShape_of_foremost isOpen named admitted foremost found⟩
    have written : field.written content = _ := Field.written_of_exploded named apart content
    rw [← show field.operator = expression.operator from rfl, ← written]
    exact inside.trans within

/-- A required list of two items before a map, which is exploded into path segments. -/
theorem bindings_shapes_path :
    let simple : Expression := ⟨.simple, [⟨['x'], .plain, rfl, rfl⟩], by simp⟩
    let path : Expression := ⟨.path, [⟨['p'], .exploded, rfl, rfl⟩], by simp⟩
    let template : Template := ⟨[.expression simple, .expression path]⟩
    let hints : Hints := { required := [['x']] }
    let list : Binding := ⟨⟨['x'], .plain, rfl, rfl⟩, .list [['a'], ['b']]⟩
    let map : Binding := ⟨⟨['p'], .exploded, rfl, rfl⟩, .map ⟨[(['k'], ['v'])], by decide⟩⟩
    ∃ captures, template.capture hints "a,b/k=v".toList = .ok (some captures) ∧
      simple.bindings 0 (captures.evidence 0) hints = .ok (some [list]) ∧
      (∃ matched, list.HasFirstShape .simple matched) ∧
      path.bindings 1 (captures.evidence 1) hints = .ok (some [map]) ∧
      ∃ matched, matched <:+: "a,b/k=v".toList ∧ map.HasFirstShape .path matched := by
  intro simple path template hints list map
  let captures : Captures Site :=
    [(⟨0, 0, .value⟩, some ['a']), (⟨0, 0, .value⟩, some ['b']),
      (⟨1, 0, .value⟩, some ['k', '=', 'v']), (⟨1, 0, .key⟩, some ['k']),
      (⟨1, 0, .item⟩, some ['v'])]
  have captured : template.capture hints "a,b/k=v".toList = .ok (some captures) := by
    decide +kernel
  have bound : simple.bindings 0 (captures.evidence 0) hints = .ok (some [list]) := by
    decide +kernel
  have boundNext : path.bindings 1 (captures.evidence 1) hints = .ok (some [map]) := by
    decide +kernel
  have isOpen : hints.IsOpen := ⟨rfl, rfl⟩
  obtain ⟨_, _, _, _, _, shape⟩ :=
    bindings_shapes isOpen captured rfl bound list List.mem_cons_self rfl
  obtain ⟨_, _, _, _, inside, shapeNext⟩ :=
    bindings_shapes isOpen captured rfl boundNext map List.mem_cons_self rfl
  exact ⟨captures, captured, bound, ⟨_, shape⟩, boundNext, _, inside rfl rfl, shapeNext⟩

end Template

end UriTemplates
