import UriTemplates.Proofs.Binding.Shown
import UriTemplates.Proofs.Matching.Outcome
import UriTemplates.Proofs.Template.Separation

/-!
# The selection behind captures

Where an expression has bindings, its captures show a selection, and the text that was read is
what the selection writes (`Expression.exists_shown_selection`). Where names are written, the
items may have been read in another order than the selection writes them in.
-/

namespace UriTemplates

open Captures (textsAt)

/-- Whether an expression could have written two texts with the same items. Where no names
are written, the order of the items matters. -/
def Operator.Rearranges (operator : Operator) (first second : Text) : Prop :=
  first = second ∨ operator.isNamed = true ∧ ∃ items others : List Text,
    items.Perm others ∧ (∀ item ∈ items, operator.separator ∉ item) ∧
      first = operator.assemble items ∧ second = operator.assemble others

namespace Expression

variable {expression : Expression} {part : Nat} {hints : Hints} {captures : Captures Site}
  {text : Text} {marks : List (Site × Option Text)} {bindings : List Binding}

/-- The fields of an expression are at distinct positions. -/
theorem nodup_index (expression : Expression) (part : Nat) (hints : Hints) :
    ((expression.fields part hints).map Field.index).Nodup := by
  have indices : (expression.fields part hints).map Field.index =
      expression.occurrences.zipIdx.map Prod.snd := by
    rw [fields_eq_map, List.map_map]
    rfl
  rw [indices, List.zipIdx_map_snd]
  exact List.nodup_range'

/-- The fields of an expression are in its part of the template. -/
theorem part_of_mem_fields {field : Field} (member : field ∈ expression.fields part hints) :
    field.part = part := by
  obtain ⟨v, -, index, rfl⟩ := exists_of_mem_fields member
  rfl

/-- What an expression reads is captured at its own place in the template. -/
theorem part_of_derives
    (derived : (patternOf expression.operator (expression.fields part hints)).readings.Derives text
      marks) : ∀ mark ∈ marks, mark.1.part = part := by
  have own : ∀ field ∈ expression.fields part hints, ∀ content,
      ∀ mark ∈ field.marks content, mark.1.part = part := by
    intro field member content mark found
    obtain ⟨facet, same⟩ := field.site_of_mem_marks content mark found
    rw [same]
    exact part_of_mem_fields member
  have each := expression.isOf_fields part hints
  have nonempty := expression.fields_ne_nil part hints
  cases named : expression.operator.isNamed with
  | false =>
    obtain ⟨selection, isOf, -, rfl⟩ := exists_selection_of_derives named each nonempty derived
    rw [Selection.marks_eq_steps]
    intro mark found
    obtain ⟨step, member, inside⟩ := List.mem_flatMap.mp found
    exact own step.1 (Selection.mem_steps isOf step member).1 step.2 mark inside
  | true =>
    obtain ⟨steps, known, -, rfl⟩ := (derives_patternOf_named named each).mp derived
    intro mark found
    obtain ⟨step, member, inside⟩ := List.mem_flatMap.mp found
    exact own step.1 (known step member).1 step.2 mark inside

/-- Captures that agree with the marks of a reading at the place of an expression show the
selection that the marks show. -/
theorem shows_of_agree {selection : Selection}
    (isOf : selection.IsOf (expression.fields part hints))
    (shown : ∀ site, site.part = part → textsAt captures site = textsAt marks site)
    (shows : ∀ chosen ∈ selection, chosen.1.Shows chosen.2 marks) :
    ∀ chosen ∈ selection, chosen.1.Shows chosen.2 captures := by
  intro chosen member facet
  rw [shown _ (part_of_mem_fields (isOf.mem_fields member))]
  exact shows chosen member facet

/-- Captures that agree with the marks of a selection show the selection. -/
theorem shows_selection {selection : Selection}
    (isOf : selection.IsOf (expression.fields part hints))
    (shown : ∀ site, site.part = part → textsAt captures site = textsAt selection.marks site) :
    ∀ chosen ∈ selection, chosen.1.Shows chosen.2 captures := by
  have distinct := expression.nodup_index part hints
  rw [← isOf.fields_eq, List.map_map] at distinct
  exact shows_of_agree isOf shown (Selection.textsAt_marks distinct)

/-- A field that is not exploded has been read once where an expression has bindings. -/
theorem length_itemsOf_le_one (named : expression.operator.isNamed = true)
    {steps : List (Field × Content)}
    (known : ∀ step ∈ steps, step.1 ∈ expression.fields part hints ∧ step.1.AdmitsItem step.2)
    (shown : ∀ site, site.part = part →
      textsAt captures site = textsAt (steps.flatMap fun step => step.1.marks step.2) site)
    (bound : expression.bindings part (captures.evidence part) hints = .ok (some bindings))
    {field : Field} (member : field ∈ expression.fields part hints)
    (whole : field.occurrence.isExploded = false) :
    (Selection.itemsOf steps field).length ≤ 1 := by
  have here := part_of_mem_fields member
  have operator := (expression.isOf_fields part hints field member).operator_eq
  have shows : field.ShowsItems (Selection.itemsOf steps field) captures :=
    Selection.showsItems_itemsOf (expression.nodup_index part hints) known member
      (operator ▸ named) fun facet => shown _ here
  by_contra several
  have impossible := shows.finding_of_several whole (Nat.not_le.mp several) hints
  rw [operator, here] at impossible
  exact finding_ne_impossible bound member impossible

/-- **The selection behind captures**: where an expression has bindings, its captures show a
selection that writes what was read, up to the order of items. -/
theorem exists_shown_selection
    (derived : (patternOf expression.operator (expression.fields part hints)).readings.Derives text
      marks)
    (shown : ∀ site, site.part = part → textsAt captures site = textsAt marks site)
    (formed : expression.operator.isNamed = true → ∀ v ∈ expression.occurrences,
      v.isExploded = true → (v.name ∈ hints.lists ↔ v.name ∉ hints.maps))
    (bound : expression.bindings part (captures.evidence part) hints = .ok (some bindings)) :
    ∃ selection : Selection, selection.IsOf (expression.fields part hints) ∧
      (∀ chosen ∈ selection, chosen.1.Shows chosen.2 captures) ∧
      expression.operator.Rearranges text
        (expression.operator.assemble selection.contributions) := by
  have each := expression.isOf_fields part hints
  have nonempty := expression.fields_ne_nil part hints
  cases named : expression.operator.isNamed with
  | false =>
    obtain ⟨selection, isOf, rfl, rfl⟩ := exists_selection_of_derives named each nonempty derived
    exact ⟨selection, isOf, shows_selection isOf shown, .inl rfl⟩
  | true =>
    obtain ⟨steps, known, rfl, rfl⟩ := (derives_patternOf_named named each).mp derived
    have form : ∀ field ∈ expression.fields part hints, field.occurrence.isExploded = true →
        field.forms.text = false ∧ (field.forms.list = false ∨ field.forms.map = false) := by
      intro field member apart
      obtain ⟨v, occurs, index, rfl⟩ := exists_of_mem_fields member
      exact Hints.forms_of_exploded apart (formed named v occurs apart)
    obtain ⟨selection, isOf, rearranged, shows⟩ := Selection.exists_of_steps each
      (expression.nodup_index part hints) known form fun field member whole =>
        length_itemsOf_le_one named known shown bound member whole
    refine ⟨selection, isOf, shows_of_agree isOf shown shows, .inr ⟨named, _, _,
      (rearranged.map fun step => step.1.written step.2).symm, ?_, rfl,
      (Selection.assemble_steps isOf each).symm⟩⟩
    intro item found
    obtain ⟨step, member, rfl⟩ := List.mem_map.mp found
    obtain ⟨among, admitted⟩ := known step member
    exact (each step.1 among).separator_notMem named admitted

end Expression

end UriTemplates
