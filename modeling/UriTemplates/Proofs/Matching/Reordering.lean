import UriTemplates.Proofs.Matching.Refusal
import UriTemplates.Proofs.Matching.Retrieval

/-!
# Named items in any order

Where an expression writes names, its items may come in any order: as long as none of its variables
is exploded, the outcome of a match is the same (`Template.match?_reordered`). Every item is read as
it is read alone, so the items of each variable are the same in another order
(`Expression.exists_steps_of_items`). A variable that is not exploded can have one item only, for
more of them stem from no expansion, and one item has no order (`Field.ShowsItems.finding_perm`).
-/

namespace UriTemplates

/-- What is found of a variable that is not exploded does not depend on the order of its items. -/
theorem Field.ShowsItems.finding_perm {field : Field} {contents moved : List Content}
    {captures others : Captures Site} (shows : field.ShowsItems contents captures)
    (showsMoved : field.ShowsItems moved others) (perm : contents.Perm moved)
    (whole : field.occurrence.isExploded = false) (hints : Hints) :
    Binding.finding field.operator field.part (captures.evidence field.part) hints field.index
        field.occurrence =
      Binding.finding field.operator field.part (others.evidence field.part) hints field.index
        field.occurrence := by
  -- Several items are refused in any order, and a single one has no order.
  by_cases several : 1 < contents.length
  · rw [shows.finding_of_several whole several,
      showsMoved.finding_of_several whole (perm.length_eq ▸ several)]
  · have single : contents = moved := by
      obtain none | one := Nat.le_one_iff_eq_zero_or_eq_one.mp (Nat.not_lt.mp several)
      · obtain rfl := List.length_eq_zero_iff.mp none
        exact perm.nil_eq
      · obtain ⟨content, rfl⟩ := List.length_eq_one_iff.mp one
        exact (List.perm_singleton.mp perm.symm).symm
    have same : ∀ facet, captures.evidence field.part field.index facet =
        others.evidence field.part field.index facet := by
      intro facet
      apply Captures.texts?_congr
      exact (shows.texts facet).trans (single ▸ (showsMoved.texts facet).symm)
    simp only [Binding.finding, same]

/-- Evidence with the same finding for every variable has the same findings. -/
theorem Binding.findings?_congr {operator : Operator} {part : Nat} {evidence others : Evidence}
    {hints : Hints} {occurrences : List Variable} {index : Nat}
    (same : ∀ v ∈ occurrences.zipIdx index, finding operator part evidence hints v.2 v.1 =
      finding operator part others hints v.2 v.1) :
    findings? operator part evidence hints index occurrences =
      findings? operator part others hints index occurrences := by
  induction occurrences generalizing index with
  | nil => rfl
  | cons v rest ih =>
    obtain ⟨here, later⟩ := List.forall_mem_cons.mp (List.zipIdx_cons ▸ same)
    rw [findings?, findings?, here, ih later]

namespace Expression

variable {operator : Operator} {fields : List Field}

/-- Items that are read are those of some fields with some contents. -/
theorem exists_steps_of_items (named : operator.isNamed = true)
    (each : ∀ field ∈ fields, field.IsOf operator) {items : List Text}
    {blocks : List (Captures Site)}
    (read : items.mapM (Pattern.amongst (fields.map Field.named)).readings.whole? = some blocks) :
    ∃ steps : List (Field × Content), blocks = steps.map (fun step => step.1.marks step.2) ∧
      ∀ step ∈ steps, step.1 ∈ fields ∧ step.1.AdmitsItem step.2 := by
  apply exists_eq_map
  intro block member
  have pointwise := mapM_eq_some_iff.mp read
  obtain ⟨item, first⟩ := exists_of_forall₂ pointwise.flip block member
  obtain ⟨step, known, -, marks⟩ :=
    (derives_item named each).mp (Readings.derives_of_whole? first)
  exact ⟨step, known, marks⟩

/-- Items in another order are read as the same fields with the same contents in another order, or
neither of the two texts is read. -/
theorem whole?_of_perm (named : operator.isNamed = true)
    (each : ∀ field ∈ fields, field.IsOf operator)
    {items others : List Text} (some_ : items ≠ []) (perm : items.Perm others)
    (separate : ∀ item ∈ items, operator.separator ∉ item) :
    (patternOf operator fields).readings.whole?
          (operator.first ++ Text.joined operator.separator items) = none ∧
        (patternOf operator fields).readings.whole?
          (operator.first ++ Text.joined operator.separator others) = none ∨
      ∃ steps moved : List (Field × Content), steps.Perm moved ∧
        (∀ step ∈ steps, step.1 ∈ fields ∧ step.1.AdmitsItem step.2) ∧
        (patternOf operator fields).readings.whole?
            (operator.first ++ Text.joined operator.separator items) =
          some (steps.flatMap fun step => step.1.marks step.2) ∧
        (patternOf operator fields).readings.whole?
            (operator.first ++ Text.joined operator.separator others) =
          some (moved.flatMap fun step => step.1.marks step.2) := by
  have someOther : others ≠ [] := by
    rintro rfl
    exact some_ perm.eq_nil
  rw [whole?_items named each some_ separate, whole?_items named each someOther
    fun item member => separate item (perm.mem_iff.mpr member)]
  cases read : items.mapM (Pattern.amongst (fields.map Field.named)).readings.whole? with
  | none =>
    refine .inl ⟨rfl, ?_⟩
    rw [Option.map_eq_none_iff, Option.eq_none_iff_forall_ne_some]
    intro blocks readOther
    obtain ⟨moved, readAgain, -⟩ := mapM_of_perm perm.symm readOther
    rw [read] at readAgain
    cases readAgain
  | some blocks =>
    obtain ⟨movedBlocks, readOther, permBlocks⟩ := mapM_of_perm perm read
    obtain ⟨steps, rfl, known⟩ := exists_steps_of_items named each read
    obtain ⟨moved, rfl, permSteps⟩ :=
      (congrFun₂ (List.eq_map_comp_perm fun step : Field × Content => step.1.marks step.2)
        movedBlocks steps).mpr permBlocks.symm
    refine .inr ⟨steps, moved, permSteps.symm, known, ?_, ?_⟩
    · rw [Option.map_some, List.flatMap_def]
    · rw [readOther, Option.map_some, List.flatMap_def]

/-- The bindings of an expression without exploded variables do not depend on the order of the
items that it has read. -/
theorem bindings_of_perm {expression : Expression} {part : Nat} {hints : Hints}
    (named : expression.operator.isNamed = true)
    (whole : ∀ v ∈ expression.occurrences, v.isExploded = false)
    {steps moved : List (Field × Content)} (perm : steps.Perm moved)
    (known : ∀ step ∈ steps, step.1 ∈ expression.fields part hints ∧ step.1.AdmitsItem step.2)
    {captures others : Captures Site}
    (shown : captures = steps.flatMap fun step => step.1.marks step.2)
    (shownMoved : others = moved.flatMap fun step => step.1.marks step.2) :
    expression.bindings part (captures.evidence part) hints =
      expression.bindings part (others.evidence part) hints := by
  have distinct := expression.nodup_index part hints
  have knownMoved := fun step among => known step (perm.mem_iff.mpr among)
  rw [bindings, bindings, Binding.findings?_congr]
  intro v occurs
  have member : expression.field part hints v.1 v.2 ∈ expression.fields part hints := by
    rw [fields_eq_map]
    exact List.mem_map_of_mem occurs
  have items : (Selection.itemsOf steps (expression.field part hints v.1 v.2)).Perm
      (Selection.itemsOf moved (expression.field part hints v.1 v.2)) := (perm.filter _).map _
  refine Field.ShowsItems.finding_perm
    (Selection.showsItems_itemsOf distinct known member named fun facet => by rw [shown])
    (Selection.showsItems_itemsOf distinct knownMoved member named fun facet => by rw [shownMoved])
    items (whole v.1 (List.fst_mem_of_mem_zipIdx occurs)) hints

end Expression

namespace Template

variable {template : Template} {before after : List Literal} {expression : Expression}

/-- What an expression between literal texts is bound to is all that is bound. -/
theorem ofCaptures_between
    (parts : template.parts = Part.literals before ++ .expression expression :: Part.literals after)
    {hints : Hints} {captures others : Captures Site}
    (same : expression.bindings before.length (captures.evidence before.length) hints =
      expression.bindings before.length (others.evidence before.length) hints) :
    template.ofCaptures hints (some captures) = template.ofCaptures hints (some others) := by
  have bound : bindingsFrom captures hints 0 template.parts =
      bindingsFrom others hints 0 template.parts := by
    rw [parts, Part.bindingsFrom_literals, Part.bindingsFrom_literals, Nat.zero_add, bindingsFrom,
      bindingsFrom, same, ← List.append_nil (Part.literals after), Part.bindingsFrom_literals,
      Part.bindingsFrom_literals]
    rfl
  rw [ofCaptures, ofCaptures, bound]

/-- **Named items may come in any order.** Where a template is an expression that writes names, with
no exploded variable, between literal texts, a URI with items of any texts matches it with the same
outcome as one with the same items in another order: none, the same error, or the same bindings in
the same order. -/
theorem match?_reordered
    (parts : template.parts = Part.literals before ++ .expression expression :: Part.literals after)
    (named : expression.operator.isNamed = true)
    (whole : ∀ v ∈ expression.occurrences, v.isExploded = false) (hints : Hints)
    {items others : List Text} (perm : items.Perm others)
    (separate : ∀ item ∈ items, expression.operator.separator ∉ item) :
    template.match? hints ((before.map Literal.text).flatten ++
        ((expression.operator.first ++ Text.joined expression.operator.separator items) ++
          (after.map Literal.text).flatten)) =
      template.match? hints ((before.map Literal.text).flatten ++
        ((expression.operator.first ++ Text.joined expression.operator.separator others) ++
          (after.map Literal.text).flatten)) := by
  cases first : template.occurrences.find? hints.contradicts with
  | some v => rw [match?_of_contradicts first, match?_of_contradicts first]
  | none =>
    have fits : ∀ v ∈ expression.occurrences, Expression.contradiction? hints v = none := by
      intro v occurs
      rw [occurrences_between parts] at first
      rw [Hints.contradiction?_eq, if_neg (List.find?_eq_none.mp first v occurs)]
    have built := pattern_eq_ok_iff.mpr ⟨_, parts ▸ Part.patterns_between before after fits, rfl⟩
    have each := expression.isOf_fields before.length hints
    rw [match?_eq_ofCaptures built, match?_eq_ofCaptures built, Pattern.whole?_between,
      Pattern.whole?_between]
    by_cases empty : items = []
    · obtain rfl := empty
      rw [perm.nil_eq]
    · obtain ⟨unread, unreadOther⟩ | ⟨steps, moved, permSteps, known, read, readOther⟩ :=
        Expression.whole?_of_perm named each empty perm separate
      · rw [unread, unreadOther]
      · rw [read, readOther]
        exact ofCaptures_between parts
          (Expression.bindings_of_perm named whole permSteps known rfl rfl)

/-- A name with and without a prefix, and a list, whose items come last or first. -/
theorem match?_reordered_prefixes :
    let template : Template := ⟨[.literal ⟨['p'], rfl⟩, .expression ⟨.query,
      [⟨['x'], .truncated 1, rfl, rfl⟩, ⟨['x'], .plain, rfl, rfl⟩, ⟨['y'], .plain, rfl, rfl⟩],
      by simp⟩]⟩
    let hints : Hints := { lists := [['y']] }
    let matched := template.match? hints
      ['p', '?', 'y', '=', '1', ',', '2', '&', 'x', '=', 'a', 'b', '&', 'x', '=', 'a']
    template.match? hints
        ['p', '?', 'x', '=', 'a', '&', 'x', '=', 'a', 'b', '&', 'y', '=', '1', ',', '2'] = matched ∧
      matched.toOption.map (Option.map fun found => found.bindings.values.entries) =
        some (some [(['x'], .text ['a', 'b']), (['y'], .list [['1'], ['2']])]) := by
  intro template hints matched
  have perm : [['x', '=', 'a'], ['x', '=', 'a', 'b'], ['y', '=', '1', ',', '2']].Perm
      [['y', '=', '1', ',', '2'], ['x', '=', 'a', 'b'], ['x', '=', 'a']] :=
    (List.reverse_perm _).symm
  have parts : template.parts = Part.literals [⟨['p'], rfl⟩] ++ .expression ⟨.query,
      [⟨['x'], .truncated 1, rfl, rfl⟩, ⟨['x'], .plain, rfl, rfl⟩, ⟨['y'], .plain, rfl, rfl⟩],
      by simp⟩ :: Part.literals [] := rfl
  exact ⟨match?_reordered parts rfl (by decide) hints perm (by decide), by decide +kernel⟩

end Template

end UriTemplates
