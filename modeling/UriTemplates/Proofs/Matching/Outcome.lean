import UriTemplates.Matching
import UriTemplates.Proofs.Binding.Gathering
import UriTemplates.Proofs.Template.Pattern

/-!
# The outcome of a match

The bindings of an expression whose captures show a selection are what is found of the
contents of the selection (`Expression.bindings_of_shows`). A match puts together the bindings
of all expressions (`Template.match?_eq_some_iff`).
-/

namespace UriTemplates

open Captures (textsAt)

/-- The findings for variables are the single findings, none of which may be impossible. -/
theorem Binding.findings?_eq_some_iff {operator : Operator} {part : Nat} {evidence : Evidence}
    {hints : Hints} {index : Nat} {occurrences : List Variable}
    {found : List (Variable × Finding)} :
    findings? operator part evidence hints index occurrences = .ok (some found) ↔
      List.Forall₂ (fun v result => result.1 = v.1 ∧
        finding operator part evidence hints v.2 v.1 = .ok result.2 ∧ result.2 ≠ .impossible)
        (occurrences.zipIdx index) found := by
  induction occurrences generalizing index found with
  | nil => cases found <;> simp [findings?]
  | cons v rest ih =>
    rw [findings?, bind_eq_ok_iff, List.zipIdx_cons, List.forall₂_cons_left_iff]
    -- An impossible finding ends the search, any other is put before the later ones.
    have going (here : Finding) :
        (do
          let later ← findings? operator part evidence hints (index + 1) rest
          return later.map ((v, here) :: ·)) = Except.ok (some found) ↔
        ∃ later, findings? operator part evidence hints (index + 1) rest = .ok (some later) ∧
          found = (v, here) :: later := by
      simp only [bind_eq_ok_iff, return_eq_ok_iff, Option.map_eq_some_iff]
      constructor
      · rintro ⟨_, continued, later, rfl, rfl⟩
        exact ⟨later, continued, rfl⟩
      · rintro ⟨later, continued, rfl⟩
        exact ⟨_, continued, later, rfl, rfl⟩
    constructor
    · rintro ⟨here, first, followed⟩
      have possible : here ≠ .impossible := by
        rintro rfl
        cases followed
      obtain ⟨later, continued, rfl⟩ := (going here).mp (by
        cases here with
        | impossible => exact absurd rfl possible
        | silent => exact followed
        | value value => exact followed)
      exact ⟨(v, here), later, ⟨rfl, first, possible⟩, ih.mp continued, rfl⟩
    · rintro ⟨⟨w, here⟩, later, ⟨rfl, first, possible⟩, continued, rfl⟩
      have followed := (going here).mpr ⟨later, ih.mpr continued, rfl⟩
      refine ⟨here, first, ?_⟩
      cases here with
      | impossible => exact absurd rfl possible
      | silent => exact followed
      | value value => exact followed

/-- The findings for the fields of a selection. -/
def Selection.findings (hints : Hints) (selection : Selection) :
    List (Variable × Binding.Finding) :=
  selection.map fun chosen => (chosen.1.occurrence,
    (chosen.2.map (Content.finding hints chosen.1.occurrence)).getD .silent)

namespace Expression

variable {expression : Expression} {part : Nat} {hints : Hints} {captures : Captures Site}
  {selection : Selection}

/-- The findings of a selection are for the variables of the expression, one by one. -/
theorem map_fst_findings (isOf : selection.IsOf (expression.fields part hints)) :
    (selection.findings hints).map Prod.fst = expression.occurrences := by
  rw [← expression.occurrences_eq part hints, ← isOf.fields_eq, Selection.findings, List.map_map,
    List.map_map]
  rfl

/-- Where the captures show a selection, the findings are those for its fields. -/
theorem findings?_of_shows (isOf : selection.IsOf (expression.fields part hints))
    (shows : ∀ chosen ∈ selection, chosen.1.Shows chosen.2 captures)
    {found : List (Variable × Binding.Finding)} :
    Binding.findings? expression.operator part (captures.evidence part) hints 0
        expression.occurrences = .ok (some found) ↔
      found = selection.findings hints ∧ ∀ result ∈ found, result.2 ≠ .impossible := by
  have fields : (selection.map Prod.fst).map (fun field => (field.occurrence, field.index)) =
      expression.occurrences.zipIdx := by
    rw [isOf.fields_eq, expression.fields_eq_map, List.map_map]
    exact List.map_id _
  have each : ∀ chosen ∈ selection,
      Binding.finding expression.operator part (captures.evidence part) hints chosen.1.index
        chosen.1.occurrence = .ok ((chosen.2.map (Content.finding hints
          chosen.1.occurrence)).getD .silent) := by
    intro chosen member
    obtain ⟨v, -, index, same⟩ := exists_of_mem_fields (isOf.mem_fields member)
    have found : Binding.finding chosen.1.operator chosen.1.part
        (captures.evidence chosen.1.part) hints chosen.1.index chosen.1.occurrence = _ :=
      Field.finding_of_shows (shows chosen member) (isOf.admits chosen member)
    rw [same] at found ⊢
    exact found
  rw [Binding.findings?_eq_some_iff, ← fields, List.map_map, List.forall₂_map_left_iff]
  apply forall₂_iff_eq_map
  intro chosen member result
  rw [Function.comp_apply, each chosen member, Except.ok.injEq]
  constructor
  · rintro ⟨same, known, possible⟩
    exact ⟨Prod.ext same known.symm, possible⟩
  · rintro ⟨rfl, possible⟩
    exact ⟨rfl, rfl, possible⟩

/-- An expression has bindings where no finding is impossible and every requirement is met. -/
theorem bindings_eq_some_iff {evidence : Evidence} {bindings : List Binding} :
    expression.bindings part evidence hints = .ok (some bindings) ↔ ∃ found,
      Binding.findings? expression.operator part evidence hints 0 expression.occurrences =
        .ok (some found) ∧
      (∀ result ∈ found, Binding.satisfies hints result.1 result.2 = true) ∧
        bindings = found.filterMap Binding.ofFinding? := by
  simp only [Expression.bindings, bind_eq_ok_iff, return_eq_ok_iff, Option.bind_eq_some_iff]
  constructor
  · rintro ⟨_, accepted, found, rfl, put⟩
    by_cases satisfied : ∀ result ∈ found, Binding.satisfies hints result.1 result.2 = true
    · rw [if_pos (List.all_eq_true.mpr satisfied)] at put
      exact ⟨found, accepted, satisfied, (Option.some.inj put).symm⟩
    · rw [if_neg fun all => satisfied (List.all_eq_true.mp all)] at put
      cases put
  · rintro ⟨found, accepted, satisfied, rfl⟩
    exact ⟨_, accepted, found, rfl, if_pos (List.all_eq_true.mpr satisfied)⟩

/-- **The bindings of an expression** whose captures show a selection. -/
theorem bindings_of_shows (isOf : selection.IsOf (expression.fields part hints))
    (shows : ∀ chosen ∈ selection, chosen.1.Shows chosen.2 captures) {bindings : List Binding} :
    expression.bindings part (captures.evidence part) hints = .ok (some bindings) ↔
      (∀ result ∈ selection.findings hints, result.2 ≠ .impossible) ∧
        (∀ result ∈ selection.findings hints,
          Binding.satisfies hints result.1 result.2 = true) ∧
        bindings = (selection.findings hints).filterMap Binding.ofFinding? := by
  simp only [bindings_eq_some_iff, findings?_of_shows isOf shows]
  constructor
  · rintro ⟨found, ⟨rfl, possible⟩, satisfied, rfl⟩
    exact ⟨possible, satisfied, rfl⟩
  · rintro ⟨possible, satisfied, rfl⟩
    exact ⟨_, ⟨rfl, possible⟩, satisfied, rfl⟩

/-- Where an expression has bindings, no finding is impossible. -/
theorem finding_ne_impossible {evidence : Evidence} {bindings : List Binding}
    (bound : expression.bindings part evidence hints = .ok (some bindings)) {field : Field}
    (member : field ∈ expression.fields part hints) :
    Binding.finding expression.operator part evidence hints field.index field.occurrence ≠
      .ok .impossible := by
  obtain ⟨found, accepted, -, -⟩ := bindings_eq_some_iff.mp bound
  rw [fields_eq_map] at member
  obtain ⟨v, occurs, rfl⟩ := List.mem_map.mp member
  obtain ⟨result, -, same, possible⟩ :=
    exists_of_forall₂ (Binding.findings?_eq_some_iff.mp accepted) v occurs
  intro impossible
  exact possible (Except.ok.inj (same.symm.trans impossible))

end Expression

namespace Template

/-- The bindings of an expression come before those of the later parts. -/
theorem bindingsFrom_expression {captures : Captures Site} {hints : Hints}
    {index : Nat} {expression : Expression} {parts : List Part} {bindings : List Binding} :
    bindingsFrom captures hints index (.expression expression :: parts) = .ok (some bindings) ↔
      ∃ here later, bindings = here ++ later ∧
        expression.bindings index (captures.evidence index) hints = .ok (some here) ∧
        bindingsFrom captures hints (index + 1) parts = .ok (some later) := by
  rw [bindingsFrom, bind_eq_ok_iff]
  constructor
  · rintro ⟨_ | here, bound, followed⟩
    · cases followed
    · obtain ⟨_, continued, put⟩ := bind_eq_ok_iff.mp followed
      obtain ⟨later, rfl, rfl⟩ := Option.map_eq_some_iff.mp (return_eq_ok_iff.mp put)
      exact ⟨here, later, rfl, bound, continued⟩
  · rintro ⟨here, later, rfl, bound, continued⟩
    exact ⟨some here, bound, bind_eq_ok_iff.mpr ⟨some later, continued, rfl⟩⟩

variable {template : Template} {hints : Hints} {uri : Text} {found : Match}

/-- A match is what the captures of the first reading give. -/
theorem match?_eq_ofCaptures {pattern : Pattern Site} (built : template.pattern hints = .ok pattern)
    (uri : Text) :
    template.match? hints uri = template.ofCaptures hints (pattern.readings.whole? uri) := by
  simp only [match?, matchWith, built, bind, Except.bind, captures?_pattern built uri]

/-- Captures make a match if all parts bind what they show and the bindings can be put together. -/
theorem ofCaptures_eq_some_iff {captures : Captures Site} :
    template.ofCaptures hints (some captures) = .ok (some found) ↔
      ∃ bindings, bindingsFrom captures hints 0 template.parts = .ok (some bindings) ∧
        found.template = template ∧ Bindings.ofList bindings = .ok found.bindings := by
  rw [ofCaptures, bind_eq_ok_iff]
  constructor
  · rintro ⟨_ | bindings, bound, followed⟩
    · cases followed
    · obtain ⟨kept, merged, put⟩ := bind_eq_ok_iff.mp followed
      obtain rfl := Option.some.inj (return_eq_ok_iff.mp put)
      exact ⟨bindings, bound, rfl, merged⟩
  · rintro ⟨bindings, bound, rfl, merged⟩
    exact ⟨some bindings, bound, bind_eq_ok_iff.mpr ⟨_, merged, rfl⟩⟩

/-- A template is matched if its pattern captures the URI and the captures make a match. -/
theorem match?_eq_some_iff : template.match? hints uri = .ok (some found) ↔
    ∃ captures bindings, template.capture hints uri = .ok (some captures) ∧
      bindingsFrom captures hints 0 template.parts = .ok (some bindings) ∧
        found.template = template ∧ Bindings.ofList bindings = .ok found.bindings := by
  simp only [match?, matchWith, capture, bind_eq_ok_iff]
  constructor
  · rintro ⟨pattern, built, _ | captures, captured, followed⟩
    · cases followed
    · obtain ⟨bindings, bound⟩ := ofCaptures_eq_some_iff.mp followed
      exact ⟨captures, bindings, ⟨pattern, built, captured⟩, bound⟩
  · rintro ⟨captures, bindings, ⟨pattern, built, captured⟩, bound⟩
    exact ⟨pattern, built, some captures, captured, ofCaptures_eq_some_iff.mpr ⟨bindings, bound⟩⟩

end Template

end UriTemplates
