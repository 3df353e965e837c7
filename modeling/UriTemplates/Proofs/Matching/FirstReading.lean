import UriTemplates.Proofs.Expansion.Language
import UriTemplates.Proofs.Matching.Findings
import UriTemplates.Proofs.Template.Preference
import UriTemplates.Proofs.Template.Queries

/-!
# The bindings of a first reading

Without hints the first reading takes no field for a map that could be texts, so what it captures
can stem from an expansion unless something was captured twice. It gives bindings to an expression
that writes no names and explodes no variable whose items it encodes
(`Expression.exists_bindings_unnamed`). Where names are written, it gives bindings if no name is
written twice, as where the items have the names of an expansion with distinct names
(`Expression.exists_bindings_named`). They have if the text is such an expansion
(`Expression.exists_bindings_alone`), or if the expression is a query of which it is known how many
ampersands and question marks stand around it (`Expression.exists_bindings_query`).
-/

namespace UriTemplates

open Captures (textsAt)

/-- Texts without keys can always stem from an expansion. -/
theorem Binding.textsFinding_ne_impossible (hints : Hints) (v : Variable) (values : List Text) :
    textsFinding hints v values ≠ .impossible := by
  unfold textsFinding
  split
  · simp
  · simp
  · split <;> simp
  · simp

namespace Expression

variable {expression : Expression} {part : Nat} {captures : Captures Site} {text : Text}
  {marks : List (Site × Option Text)} {selection : Selection}

/-- Whether an expression explodes no variable, unless it leaves reserved characters as they
are. -/
def IsFlat (expression : Expression) : Prop :=
  expression.operator.allowsReserved = false →
    ∀ v ∈ expression.occurrences, v.isExploded = false

/-- Without hints every variable may be a list. -/
theorem forms_list_of_mem_fields {field : Field} (member : field ∈ expression.fields part {}) :
    field.forms.list = true := by
  obtain ⟨v, -, index, rfl⟩ := exists_of_mem_fields member
  rfl

/-- In a flat expression no field writes entries as no texts are written. -/
theorem IsFlat.marksEntries (flat : expression.IsFlat) {hints : Hints} {field : Field}
    (member : field ∈ expression.fields part hints) : field.marksEntries = false := by
  obtain ⟨v, occurs, index, rfl⟩ := exists_of_mem_fields member
  change (v.isExploded && !expression.operator.allowsReserved) = false
  cases reserved : expression.operator.allowsReserved with
  | true => exact Bool.and_false _
  | false => simp [flat reserved v occurs]

/-- A flat expression that writes names explodes nothing. -/
theorem IsFlat.isExploded_eq_false (flat : expression.IsFlat)
    (named : expression.operator.isNamed = true) {hints : Hints} {field : Field}
    (member : field ∈ expression.fields part hints) : field.occurrence.isExploded = false := by
  obtain ⟨v, occurs, index, rfl⟩ := exists_of_mem_fields member
  exact flat (Operator.allowsReserved_of_named named) v occurs

/-- An expression whose captures show texts has bindings. -/
theorem exists_bindings_of_texts (isOf : selection.IsOf (expression.fields part {}))
    (shows : ∀ chosen ∈ selection, chosen.1.Shows chosen.2 captures)
    (texts : ∀ chosen ∈ selection, ∀ content ∈ chosen.2, ∃ texts, content = .texts texts) :
    ∃ bindings, expression.bindings part (captures.evidence part) {} = .ok (some bindings) := by
  refine ⟨_, (bindings_of_shows isOf shows).mpr ⟨fun result member => ?_, fun result _ => ?_, rfl⟩⟩
  · obtain ⟨⟨field, content⟩, chosen, rfl⟩ := List.mem_map.mp member
    cases content with
    | none => simp
    | some content =>
      obtain ⟨written, rfl⟩ := texts _ chosen content rfl
      exact Binding.textsFinding_ne_impossible _ _ _
  · have free : Hints.requires {} result.1 = false := rfl
    unfold Binding.satisfies
    split
    · rw [free]
      rfl
    · rw [free]
      rfl

/-- **The first reading gives bindings** to an expression without names that is flat. -/
theorem exists_bindings_unnamed (unnamed : expression.operator.isNamed = false)
    (flat : expression.IsFlat)
    (read : (patternOf expression.operator (expression.fields part {})).readings.whole? text =
      some marks)
    (shown : ∀ site, site.part = part → textsAt captures site = textsAt marks site) :
    ∃ bindings, expression.bindings part (captures.evidence part) {} = .ok (some bindings) := by
  obtain ⟨selection, isOf, rfl, preferred⟩ := exists_preferred_selection unnamed
    (expression.isOf_fields part {}) (expression.fields_ne_nil part {})
    (fun _ => forms_list_of_mem_fields) read
  exact exists_bindings_of_texts isOf (shows_selection isOf shown)
    fun chosen member content known => Field.exists_texts_of_preferred
      (flat.marksEntries (isOf.mem_fields member)) (preferred chosen member content known)

/-- What stands after a name is an item with this name. -/
theorem itemName_withName {operator : Operator} (named : operator.isNamed = true) {name : Text}
    (apart : '=' ∉ name) (text : Text) : itemName (operator.withName name text) = name := by
  have inside : ∀ c ∈ name, (c != '=') = true := by
    rintro c member
    rw [bne_iff_ne]
    rintro rfl
    exact apart member
  obtain ⟨suffix, written, ended⟩ : ∃ suffix, operator.withName name text = name ++ suffix ∧
      itemName suffix = [] := by
    by_cases parameter : operator = .parameter
    · refine ⟨_, Field.withName_of_parameter parameter name text, ?_⟩
      unfold Field.parameterSuffix
      split
      · rfl
      · rfl
    · exact ⟨_, Field.withName_of_query named parameter name text, rfl⟩
  rw [written, itemName, List.takeWhile_append_of_pos inside, ← itemName, ended, List.append_nil]

/-- The items of a flat expression are told apart by the names of its variables. -/
theorem itemName_written (named : expression.operator.isNamed = true) (flat : expression.IsFlat)
    {hints : Hints} {field : Field} (member : field ∈ expression.fields part hints)
    (content : Content) : itemName (field.written content) = field.occurrence.name := by
  obtain ⟨v, -, index, same⟩ := exists_of_mem_fields member
  rw [Field.written_of_whole (flat.isExploded_eq_false named member), same]
  exact itemName_withName named (Field.equals_notMem_name named) _

/-- Items with separators between them are told apart. -/
theorem assemble_injective {operator : Operator} (named : operator.isNamed = true)
    {items others : List Text} (apart : ∀ item ∈ items, operator.separator ∉ item)
    (apartOther : ∀ item ∈ others, operator.separator ∉ item)
    (same : operator.assemble items = operator.assemble others) : items = others := by
  have nonempty := Operator.first_ne_nil named
  unfold Operator.assemble at same
  split_ifs at same with none noneOther noneOther
  · rw [List.isEmpty_iff.mp none, List.isEmpty_iff.mp noneOther]
  · exact (nonempty (List.append_eq_nil_iff.mp same.symm).1).elim
  · exact (nonempty (List.append_eq_nil_iff.mp same).1).elim
  · rw [List.isEmpty_iff] at none noneOther
    exact Text.joined_injective none noneOther apart apartOther (List.append_cancel_left same)

variable {environment : Environment} {steps : List (Field × Content)}

/-- The items that an expansion is read as are those that it was put together from. -/
theorem contributions_of_steps (named : expression.operator.isNamed = true)
    (flat : expression.IsFlat)
    (known : ∀ step ∈ steps, step.1 ∈ expression.fields part {} ∧ step.1.AdmitsItem step.2)
    (expanded : expression.expand environment =
      .ok (expression.operator.assemble (steps.map fun step => step.1.written step.2))) :
    steps.map (fun step => step.1.written step.2) =
      (expression.selection part {} environment).contributions := by
  have isOf : (expression.selection part {} environment).IsOf (expression.fields part {}) :=
    isOf_selection expanded fun v _ => Hints.fits_none v _
  have each := expression.isOf_fields part {}
  refine assemble_injective named ?_ ?_ (expression.expand_eq part {} expanded)
  · intro item member
    obtain ⟨step, found, rfl⟩ := List.mem_map.mp member
    exact (each step.1 (known step found).1).separator_notMem named (known step found).2
  · intro item member
    obtain ⟨⟨field, content⟩, found, contributed⟩ := List.mem_filterMap.mp member
    obtain ⟨content, rfl, rfl⟩ := Option.map_eq_some_iff.mp contributed
    have among := isOf.mem_fields found
    have admitted : field.AdmitsItem content := ⟨isOf.admits _ found content rfl, fun apart => by
      rw [flat.isExploded_eq_false named among] at apart
      cases apart⟩
    exact (each field among).separator_notMem named admitted

/-- The items of a flat expression tell the names of its variables in order. -/
theorem sublist_itemName_contributions (named : expression.operator.isNamed = true)
    (flat : expression.IsFlat) {hints : Hints} {selection : Selection}
    (isOf : selection.IsOf (expression.fields part hints)) :
    (selection.contributions.map itemName).Sublist (expression.occurrences.map Variable.name) := by
  have fields : selection.map (fun chosen => chosen.1.occurrence.name) =
      expression.occurrences.map Variable.name := by
    rw [← expression.occurrences_eq part hints, ← isOf.fields_eq, List.map_map, List.map_map]
    rfl
  rw [← fields]
  refine sublist_of_filterMap fun chosen found item contributed => ?_
  obtain ⟨content, -, rfl⟩ := Option.map_eq_some_iff.mp contributed
  exact itemName_written named flat (isOf.mem_fields found) content

/-- Items with the names of an expansion are items of distinct variables, if the names are
distinct. -/
theorem nodup_names_of_steps (named : expression.operator.isNamed = true)
    (flat : expression.IsFlat) (distinct : (expression.occurrences.map Variable.name).Nodup)
    (expanded : expression.expand environment = .ok text)
    (known : ∀ step ∈ steps, step.1 ∈ expression.fields part {})
    (names : (steps.map fun step => step.1.written step.2).map itemName =
      (expression.selection part {} environment).contributions.map itemName) :
    (steps.map fun step => step.1.occurrence.name).Nodup := by
  have same : steps.map (fun step => step.1.occurrence.name) =
      (steps.map fun step => step.1.written step.2).map itemName := by
    rw [List.map_map]
    refine List.map_congr_left fun step member => ?_
    exact (itemName_written named flat (known step member) step.2).symm
  have isOf : (expression.selection part {} environment).IsOf (expression.fields part {}) :=
    isOf_selection expanded fun v _ => Hints.fits_none v _
  rw [same, names]
  exact (sublist_itemName_contributions named flat isOf).nodup distinct

/-- A field of which no second item is read has one content at most. -/
theorem length_itemsOf_le_one_of_nodup {fields : List Field}
    (indices : (fields.map Field.index).Nodup) (known : ∀ step ∈ steps, step.1 ∈ fields)
    (names : (steps.map fun step => step.1.occurrence.name).Nodup) {field : Field}
    (member : field ∈ fields) : (Selection.itemsOf steps field).length ≤ 1 := by
  have own : ∀ step ∈ steps.filter (fun step => step.1.index = field.index),
      step.1.occurrence.name = field.occurrence.name := by
    intro step found
    obtain ⟨among, same⟩ := List.mem_filter.mp found
    rw [Selection.eq_of_index_eq indices (known step among) member (by simpa using same)]
  have alike : (steps.filter fun step => step.1.index = field.index).map
      (fun step => step.1.occurrence.name) =
        List.replicate (steps.filter fun step => step.1.index = field.index).length
          field.occurrence.name := by
    rw [← List.map_const']
    exact List.map_congr_left own
  have once : ((steps.filter fun step => step.1.index = field.index).map
      fun step => step.1.occurrence.name).Nodup := (List.filter_sublist.map _).nodup names
  rw [alike, List.nodup_replicate] at once
  rwa [Selection.itemsOf, List.length_map]

/-- **The first reading gives bindings** to a flat expression that writes distinct names, where
its items have the names of an expansion. -/
theorem exists_bindings_named (named : expression.operator.isNamed = true)
    (flat : expression.IsFlat) (distinct : (expression.occurrences.map Variable.name).Nodup)
    {expansion : Text} (expanded : expression.expand environment = .ok expansion)
    (names : ∀ steps : List (Field × Content),
      (∀ step ∈ steps, step.1 ∈ expression.fields part {} ∧ step.1.AdmitsItem step.2) →
      text = expression.operator.assemble (steps.map fun step => step.1.written step.2) →
      (steps.map fun step => step.1.written step.2).map itemName =
        (expression.selection part {} environment).contributions.map itemName)
    (read : (patternOf expression.operator (expression.fields part {})).readings.whole? text =
      some marks)
    (shown : ∀ site, site.part = part → textsAt captures site = textsAt marks site) :
    ∃ bindings, expression.bindings part (captures.evidence part) {} = .ok (some bindings) := by
  have each := expression.isOf_fields part {}
  have indices := expression.nodup_index part {}
  obtain ⟨steps, preferred, written, rfl⟩ :=
    exists_preferred_steps named each (fun _ => forms_list_of_mem_fields) read
  have known : ∀ step ∈ steps,
      step.1 ∈ expression.fields part {} ∧ step.1.AdmitsItem step.2 := fun step member =>
    ⟨(preferred step member).1, Field.admits_of_preferred (preferred step member).2.1,
      (preferred step member).2.2⟩
  have among : ∀ step ∈ steps, step.1 ∈ expression.fields part {} :=
    fun step member => (known step member).1
  have once := nodup_names_of_steps named flat distinct expanded among (names steps known written)
  have whole : ∀ field ∈ expression.fields part {}, field.occurrence.isExploded = false :=
    fun field member => flat.isExploded_eq_false named member
  obtain ⟨selection, isOf, gathered, shows⟩ := Selection.exists_of_steps each indices known
    (fun field member apart => by
      rw [whole field member] at apart
      cases apart)
    fun field member _ => length_itemsOf_le_one_of_nodup indices among once member
  refine exists_bindings_of_texts isOf (shows_of_agree isOf shown shows) ?_
  intro chosen member content content_eq
  have inside := isOf.mem_fields member
  have step : (chosen.1, content) ∈ selection.steps := by
    refine List.mem_flatMap.mpr ⟨chosen, member, ?_⟩
    rw [Option.mem_def.mp content_eq, Option.toList_some, List.flatMap_singleton,
      Field.steps_of_whole (whole _ inside)]
    exact List.mem_singleton_self _
  exact Field.exists_texts_of_preferred (flat.marksEntries inside)
    (preferred _ (gathered.mem_iff.mp step)).2.1

/-- **The first reading gives bindings** to a flat expression that writes distinct names, where
the text is an expansion of the expression alone. -/
theorem exists_bindings_alone (named : expression.operator.isNamed = true)
    (flat : expression.IsFlat) (distinct : (expression.occurrences.map Variable.name).Nodup)
    (expanded : expression.expand environment = .ok text)
    (read : (patternOf expression.operator (expression.fields part {})).readings.whole? text =
      some marks)
    (shown : ∀ site, site.part = part → textsAt captures site = textsAt marks site) :
    ∃ bindings, expression.bindings part (captures.evidence part) {} = .ok (some bindings) := by
  refine exists_bindings_named named flat distinct expanded (fun steps known written => ?_) read
    shown
  rw [contributions_of_steps named flat known (written ▸ expanded)]

/-- What a flat query contributes are items of a query. -/
theorem isQueryItem_contribution (ampersand : expression.operator.separator = '&')
    (whole : ∀ field ∈ expression.fields part {}, field.occurrence.isExploded = false)
    {selection : Selection} (isOf : selection.IsOf (expression.fields part {})) :
    ∀ item ∈ selection.contributions, IsQueryItem item := by
  intro item member
  obtain ⟨⟨field, content⟩, found, contributed⟩ := List.mem_filterMap.mp member
  obtain ⟨content, rfl, rfl⟩ := Option.map_eq_some_iff.mp contributed
  have among := isOf.mem_fields found
  have operator := (expression.isOf_fields part {} field among).operator_eq
  exact Field.isQueryItem_written (operator ▸ ampersand) (whole field among)
    (isOf.admits _ found content rfl)

/-- **The first reading gives bindings** to a flat query with distinct names, where it is known how
many ampersands and question marks stand before and after the query. -/
theorem exists_bindings_query (ampersand : expression.operator.separator = '&')
    (flat : expression.IsFlat)
    (distinct : (expression.occurrences.map Variable.name).Nodup) {expansion : Text}
    (expanded : expression.expand environment = .ok expansion) {front other back more : Text}
    (same : front ++ (text ++ back) = other ++ (expansion ++ more))
    (counts : ∀ c, isQueryMark c = true →
      front.count c = other.count c ∧ back.count c = more.count c)
    (read : (patternOf expression.operator (expression.fields part {})).readings.whole? text =
      some marks)
    (shown : ∀ site, site.part = part → textsAt captures site = textsAt marks site) :
    ∃ bindings, expression.bindings part (captures.evidence part) {} = .ok (some bindings) := by
  have named := Operator.isNamed_of_ampersand ampersand
  refine exists_bindings_named named flat distinct expanded (fun steps known written => ?_) read
    shown
  have whole : ∀ field ∈ expression.fields part {}, field.occurrence.isExploded = false :=
    fun field member => flat.isExploded_eq_false named member
  have isOf : (expression.selection part {} environment).IsOf (expression.fields part {}) :=
    isOf_selection expanded fun v _ => Hints.fits_none v _
  have items : ∀ item ∈ steps.map (fun step => step.1.written step.2), IsQueryItem item := by
    intro item member
    obtain ⟨step, found, rfl⟩ := List.mem_map.mp member
    obtain ⟨among, admitted⟩ := known step found
    have operator := (expression.isOf_fields part {} step.1 among).operator_eq
    exact Field.isQueryItem_written (operator ▸ ampersand) (whole step.1 among) admitted.1
  rw [written, expression.expand_eq part {} expanded] at same
  exact Operator.map_itemName_of_append ampersand items
    (isQueryItem_contribution ampersand whole isOf) counts same

end Expression

end UriTemplates
