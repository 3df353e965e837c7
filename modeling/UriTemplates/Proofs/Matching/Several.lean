import UriTemplates.Proofs.Matching.Retrieval
import UriTemplates.Proofs.Template.Runs
import UriTemplates.Proofs.Template.Segments

/-!
# The round trip of several variables

An expression without names whose variables are distinct and not exploded gives their values back
where the values are told apart (`Expression.TellsSegments`, `Template.match_several`). Texts
with commas between them are read one by one (`Field.whole?_someOf_texts`); labels and path
segments are found again if just those variables are required that have a value, for then the
number of segments says which of them were left out.
-/

namespace UriTemplates

/-- What may follow a text, if anything, starts with the separator. -/
theorem Pattern.stopsAt_optional {κ : Type} (separator : Char) (inner : Pattern κ) :
    Text.StopsAt separator fun back =>
      ((optional (.seq [.literal [separator], inner]) false).readings.whole? back).isSome =
        true := by
  intro back known
  rw [whole?_optional, Option.isSome_or, Bool.or_eq_true] at known
  refine known.elim (fun more => .inr (exists_of_isSome_whole? more)) fun ended => ?_
  split_ifs at ended with nothing
  · exact .inl nothing
  · cases ended

/-- Whether a field may be a text whose reserved characters are percent-encoded. -/
structure Field.TakesText (field : Field) : Prop where
  unnamed : field.operator.isNamed = false
  unreserved : field.operator.allowsReserved = false
  whole : field.occurrence.isExploded = false
  isText : field.forms.text = true

namespace Field

variable {field : Field}

/-- A field that takes a text writes it as it is. -/
theorem TakesText.written_eq (takes : field.TakesText) (text : Text) :
    field.written (.texts [text]) = text := by
  rw [written_of_whole takes.whole, withName_of_unnamed takes.unnamed]
  simp [units]

/-- A field that takes a text records it as its value. -/
theorem TakesText.marks_eq (takes : field.TakesText) (text : Text) :
    field.marks (.texts [text]) = [field.mark .value text] := by
  rw [marks_of_unnamed takes.unnamed]
  rfl

/-- A text is read up to where a character follows that it cannot hold. -/
theorem TakesText.isFirst (takes : field.TakesText) {text : Text}
    (admitted : field.Admits (.texts [text])) {c : Char} (refused : Percent.isKept false c = false)
    (notPercent : c ≠ '%') {able : Text → Prop} {after : Text} (stops : Text.StopsAt c able)
    (ended : able after) :
    field.unnamed.readings.IsFirst (text ++ after) able ⟨[field.mark .value text], after⟩ :=
  isFirst_unnamed_text takes.whole takes.isText admitted ended fun _ _ front =>
    stops.rest_eq ended (notMem_of_unreserved takes.unreserved refused notPercent
      (admitted.2.1 text List.mem_cons_self))
      (notMem_of_unreserved takes.unreserved refused notPercent front)

/-- A field that takes a text reads it whole. -/
theorem TakesText.whole?_unnamed (takes : field.TakesText) {text : Text}
    (admitted : field.Admits (.texts [text])) :
    field.unnamed.readings.whole? text = some [field.mark .value text] := by
  have alone : Text.StopsAt ',' (· = []) := fun _ ended => .inl ended
  have whole := (takes.isFirst admitted (by decide) (by decide) alone rfl).whole?_consumed
    (Pattern.isLocal_readings _)
  rwa [Readings.consumed_append_rest] at whole

/-- A text before a comma is read as the first of several fields, be it required or not. -/
theorem TakesText.whole?_someOf_cons (takes : field.TakesText) {text : Text}
    (admitted : field.Admits (.texts [text])) {next : Field} {rest : List Field} {back : Text}
    {marks : List (Site × Option Text)}
    (read : (someOf (next :: rest)).readings.whole? back = some marks) :
    (someOf (field :: next :: rest)).readings.whole? (text ++ ',' :: back) =
      some (field.mark .value text :: marks) := by
  let more : Pattern Site := .seq [.literal [','], someOf (next :: rest)]
  have following : more.readings.whole? (',' :: back) = some marks := by
    rw [← read, ← Pattern.readings_seq_single (someOf (next :: rest))]
    exact Pattern.whole?_seq_literal [','] _ _
  have stops : Text.StopsAt ',' fun back => (more.readings.whole? back).isSome = true :=
    fun _ known => .inr (Pattern.exists_of_isSome_whole? known)
  have after : ∀ second : Readings (Site × Option Text),
      (Text.StopsAt ',' fun back => (second.whole? back).isSome = true) →
      second.whole? (',' :: back) = some marks →
      (field.unnamed.readings.andThen second).whole? (text ++ ',' :: back) =
        some (field.mark .value text :: marks) := by
    intro second stopsSecond known
    rw [(takes.isFirst admitted (by decide) (by decide) stopsSecond
        (Option.isSome_of_eq_some known)).whole?_andThen,
      known, Option.map_some, List.singleton_append]
  rw [someOf]
  -- a field that is not required may be left out, but to read it with later ones is tried first
  · split_ifs
    · rw [← after _ (Pattern.stopsAt_optional ',' _) (Pattern.whole?_optional_of_whole? following),
        ← Pattern.readings_seq_single (.optional more false)]
      rfl
    · have first :
          (Pattern.seq [field.unnamed, .literal [','], someOf (next :: rest)]).readings.whole?
            (text ++ ',' :: back) = some (field.mark .value text :: marks) :=
        after more.readings stops following
      refine (Pattern.whole?_choice _ _).trans ?_
      rw [List.findSome?_cons, first]
  · simp

/-- **Texts with commas between them** are read one by one. -/
theorem whole?_someOf_texts {fields : List Field} {selection : Selection} (nonempty : fields ≠ [])
    (takes : ∀ field ∈ fields, field.TakesText) (isOf : selection.IsOf fields)
    (texts : ∀ chosen ∈ selection, ∃ text, chosen.2 = some (.texts [text])) :
    selection.contributions ≠ [] ∧
      (someOf fields).readings.whole? (Text.joined ',' selection.contributions) =
        some selection.marks := by
  induction fields generalizing selection with
  | nil => exact (nonempty rfl).elim
  | cons field rest ih =>
    obtain ⟨here, takesLater⟩ := List.forall_mem_cons.mp takes
    obtain ⟨_, later, rfl, admits, isOfLater⟩ := Selection.isOf_cons_iff.mp isOf
    obtain ⟨⟨text, rfl⟩, textsLater⟩ := List.forall_mem_cons.mp texts
    have admitted := admits _ rfl
    refine ⟨List.cons_ne_nil _ _, ?_⟩
    rw [Selection.contributions_cons_some, Selection.marks_cons_some, here.written_eq,
      here.marks_eq]
    cases rest with
    | nil =>
      rw [Selection.isOf_nil_iff.mp isOfLater]
      exact (congrArg _ (Text.joined_singleton text)).trans (here.whole?_unnamed admitted)
    | cons next rest =>
      obtain ⟨some_, read⟩ := ih (List.cons_ne_nil _ _) takesLater isOfLater textsLater
      rw [Text.joined_cons _ some_]
      exact here.whole?_someOf_cons admitted read

end Field

/-- Whether hints name a variable as required just if an expansion keeps something of its value,
and as a list or a map just if it is one. Of an empty list or map they may also say nothing. -/
structure Hints.Describes (hints : Hints) (v : Variable) (value : Value) : Prop where
  list : v.name ∈ hints.lists → ∃ items, value = .list items
  listed : ∀ items, value = .list items → items.isEmpty = false → v.name ∈ hints.lists
  map : v.name ∈ hints.maps → ∃ entries, value = .map entries
  mapped : ∀ entries, value = .map entries → entries.isEmpty = false → v.name ∈ hints.maps
  required : v.name ∈ hints.required ↔ (v.kept? value).isSome = true

/-- Where a value has a contribution, hints that describe it agree with it. -/
theorem Hints.Describes.tellsKept {hints : Hints} {v : Variable} {value : Value}
    (describes : hints.Describes v value) (whole : v.isExploded = false) {operator : Operator}
    {contributed : Option Text} (accepted : operator.contribution v value = .ok contributed) :
    hints.TellsKept v value := by
  have required : v.name ∈ hints.required → value ≠ .undefined ∧ value.isEmptyComposite = false :=
    fun hinted => Variable.isSome_kept?_iff.mp (describes.required.mp hinted)
  have truncated : v.length?.isSome = true → v.name ∉ hints.lists ∧ v.name ∉ hints.maps := by
    intro truncated
    refine ⟨fun hinted => ?_, fun hinted => ?_⟩
    · obtain ⟨items, rfl⟩ := describes.list hinted
      simp [Operator.contribution, truncated] at accepted
    · obtain ⟨entries, rfl⟩ := describes.map hinted
      simp [Operator.contribution, truncated] at accepted
  refine ⟨⟨fun hinted => .inr (describes.list hinted), fun hinted => .inr (describes.map hinted),
    truncated, required⟩, fun kept known => ⟨?_, ?_, ?_, truncated, by simp [whole], required⟩⟩
  · rintro items rfl
    have nonempty := (Variable.isSome_kept?_iff.mp (Option.isSome_of_eq_some known)).2
    refine ⟨describes.listed items rfl nonempty, fun hinted => ?_⟩
    obtain ⟨entries, same⟩ := describes.map hinted
    cases same
  · rintro entries rfl
    have nonempty := (Variable.isSome_kept?_iff.mp (Option.isSome_of_eq_some known)).2
    refine ⟨describes.mapped entries rfl nonempty, fun hinted => ?_⟩
    obtain ⟨items, same⟩ := describes.list hinted
    cases same
  · rintro text rfl
    refine ⟨fun hinted => ?_, fun hinted => ?_⟩
    · obtain ⟨items, same⟩ := describes.list hinted
      cases same
    · obtain ⟨entries, same⟩ := describes.map hinted
      cases same

/-- When the values of several variables are told apart where no names are written. -/
inductive Expression.TellsSegments (expression : Expression) (hints : Hints)
    (environment : Environment) : Prop
  /-- All of them are texts, with commas between them. -/
  | texts : expression.operator = .simple →
      (∀ v ∈ expression.occurrences, (∃ text, environment.value v.name = .text text) ∧
        v.name ∉ hints.lists ∧ v.name ∉ hints.maps) → expression.TellsSegments hints environment
  /-- They are path segments that hints describe. -/
  | path : expression.operator = .path →
      (∀ v ∈ expression.occurrences, hints.Describes v (environment.value v.name)) →
      expression.TellsSegments hints environment
  /-- They are labels that hints describe, and none of them contributes a dot. -/
  | labels : expression.operator = .label →
      (∀ v ∈ expression.occurrences, hints.Describes v (environment.value v.name)) →
      (∀ v ∈ expression.occurrences, ∀ contributed, expression.operator.contribution v
        (environment.value v.name) = .ok (some contributed) → '.' ∉ contributed) →
      expression.TellsSegments hints environment

namespace Expression

variable {expression : Expression} {part : Nat} {hints : Hints} {environment : Environment}
  {text : Text}

/-- A field whose value hints tell to be a text may be one. -/
theorem takesText_field (simple : expression.operator = .simple) {v : Variable} {known : Text}
    (tells : hints.Tells v (.text known)) (index : Nat) :
    (expression.field part hints v index).TakesText := by
  have whole := tells.whole_of_text rfl
  obtain ⟨noList, noMap⟩ := tells.text known rfl
  refine ⟨by simp [field, simple, Operator.isNamed],
    by simp [field, simple, Operator.allowsReserved], whole, ?_⟩
  simp [field, Hints.forms, whole, noList, noMap]

/-- The first reading of texts with commas between them finds them. -/
theorem whole?_texts (simple : expression.operator = .simple)
    (expanded : expression.expand environment = .ok text)
    (tells : ∀ v ∈ expression.occurrences, hints.Tells v (environment.value v.name))
    (texts : ∀ v ∈ expression.occurrences, ∃ text, environment.value v.name = .text text) :
    (patternOf expression.operator (expression.fields part hints)).readings.whole? text =
      some (expression.selection part hints environment).marks := by
  have isOf : (expression.selection part hints environment).IsOf (expression.fields part hints) :=
    isOf_selection expanded fun v occurs => (tells v occurs).fits
  have takes : ∀ field ∈ expression.fields part hints, field.TakesText := by
    intro field member
    obtain ⟨v, occurs, index, rfl⟩ := exists_of_mem_fields member
    obtain ⟨text, known⟩ := texts v occurs
    exact takesText_field simple (known ▸ tells v occurs) index
  have chosen : ∀ chosen ∈ expression.selection part hints environment,
      ∃ text, chosen.2 = some (.texts [text]) := by
    intro chosen member
    obtain ⟨v, occurs, index, rfl⟩ := exists_of_mem_selection member
    obtain ⟨text, known⟩ := texts v occurs
    exact ⟨_, congrArg (expression.field part hints v index).content? known⟩
  obtain ⟨some_, read⟩ :=
    Field.whole?_someOf_texts (expression.fields_ne_nil part hints) takes isOf chosen
  rw [expression.expand_eq part hints expanded, simple]
  refine Pattern.whole?_optional_of_whole? (Eq.trans (congrArg _ ?_) read)
  simp [Operator.assemble, some_, Operator.first, Operator.separator]

/-- Hints that describe the values tell what is kept of them if no variable is exploded. -/
theorem tellsKept_of_describes (whole : ∀ v ∈ expression.occurrences, v.isExploded = false)
    (expanded : expression.expand environment = .ok text)
    (described : ∀ v ∈ expression.occurrences, hints.Describes v (environment.value v.name)) :
    ∀ v ∈ expression.occurrences, hints.TellsKept v (environment.value v.name) := by
  intro v occurs
  obtain ⟨contributed, accepted⟩ := expression.exists_contribution expanded v occurs
  exact (described v occurs).tellsKept (whole v occurs) accepted

/-- Hints that describe the values require just the variables that are expanded. -/
theorem isExact_selection
    (described : ∀ v ∈ expression.occurrences, hints.Describes v (environment.value v.name)) :
    (expression.selection part hints environment).IsExact := by
  intro chosen member
  obtain ⟨v, occurs, index, rfl⟩ := exists_of_mem_selection member
  rw [Field.isSome_content?_eq, Bool.eq_iff_iff]
  exact List.contains_iff_mem.trans (described v occurs).required

/-- What a selection contributes is what the variables contribute. -/
theorem exists_of_mem_contributions (expanded : expression.expand environment = .ok text)
    {contributed : Text}
    (member : contributed ∈ (expression.selection part hints environment).contributions) :
    ∃ v ∈ expression.occurrences, expression.operator.contribution v
      (environment.value v.name) = .ok (some contributed) := by
  obtain ⟨chosen, found, same⟩ := List.mem_filterMap.mp member
  obtain ⟨v, occurs, index, rfl⟩ := exists_of_mem_selection found
  obtain ⟨_, accepted⟩ := expression.exists_contribution expanded v occurs
  refine ⟨v, occurs, ?_⟩
  rw [accepted, ← same]
  exact congrArg _ ((expression.field part hints v index).contribution_eq accepted)

/-- A selected content is the only one that is written as it is. -/
theorem content_eq_of_selection (unnamed : expression.operator.isNamed = false)
    (unreserved : expression.operator.allowsReserved = false)
    (whole : ∀ v ∈ expression.occurrences, v.isExploded = false)
    (expanded : expression.expand environment = .ok text)
    (tells : ∀ v ∈ expression.occurrences, hints.TellsKept v (environment.value v.name)) :
    ∀ chosen ∈ expression.selection part hints environment, ∀ content ∈ chosen.2, ∀ other,
      chosen.1.Admits other → chosen.1.written other = chosen.1.written content →
        other = content := by
  intro chosen member content known other admittedOther same
  have isOf : (expression.selection part hints environment).IsOf (expression.fields part hints) :=
    isOf_selection expanded fun v occurs => (tells v occurs).fits
  have admitted := isOf.admits chosen member content known
  obtain ⟨v, occurs, index, rfl⟩ := exists_of_mem_selection member
  have notExploded : (expression.field part hints v index).occurrence.isExploded = false :=
    whole v occurs
  obtain ⟨kept, keeps⟩ : ∃ kept, v.kept? (environment.value v.name) = some kept := by
    rw [← Option.isSome_iff_exists]
    exact (Field.isSome_content?_eq _ _).symm.trans (Option.isSome_of_mem known)
  have told := (tells v occurs).told kept keeps
  rw [Field.written_of_whole notExploded, Field.written_of_whole notExploded,
    Field.withName_of_unnamed unnamed] at same
  exact Field.content_eq_of_whole unreserved notExploded admitted
    ⟨by simp [notExploded], fun _ listed mapped => told.exists_text known listed mapped⟩
    admittedOther same

/-- **The first reading of segments** that hints describe finds them, if no variable contributes
what stands between them. -/
theorem whole?_described (kind : expression.operator = .label ∨ expression.operator = .path)
    (whole : ∀ v ∈ expression.occurrences, v.isExploded = false)
    (expanded : expression.expand environment = .ok text)
    (described : ∀ v ∈ expression.occurrences, hints.Describes v (environment.value v.name))
    (apart : ∀ v ∈ expression.occurrences, ∀ contributed, expression.operator.contribution v
      (environment.value v.name) = .ok (some contributed) →
        expression.operator.separator ∉ contributed) :
    (patternOf expression.operator (expression.fields part hints)).readings.whole? text =
      some (expression.selection part hints environment).marks := by
  have segments : patternOf expression.operator (expression.fields part hints) =
      .seq ((expression.fields part hints).map Field.segment) := by
    rcases kind with kind | kind <;> rw [kind] <;> rfl
  have single : expression.operator.symbol = [expression.operator.separator] := by
    rcases kind with kind | kind <;> rw [kind] <;> rfl
  have first : expression.operator.first = expression.operator.symbol := by
    rcases kind with kind | kind <;> rw [kind] <;> rfl
  have unnamed : expression.operator.isNamed = false := by
    rcases kind with kind | kind <;> rw [kind] <;> rfl
  have unreserved : expression.operator.allowsReserved = false := by
    rcases kind with kind | kind <;> rw [kind] <;> rfl
  have tells := tellsKept_of_describes whole expanded described
  have isOf : (expression.selection part hints environment).IsOf (expression.fields part hints) :=
    isOf_selection expanded fun v occurs => (tells v occurs).fits
  have undivided : ∀ contributed ∈ (expression.selection part hints environment).contributions,
      expression.operator.separator ∉ contributed := by
    intro contributed member
    obtain ⟨v, occurs, accepted⟩ := exists_of_mem_contributions expanded member
    exact apart v occurs contributed accepted
  rw [expression.expand_eq part hints expanded, assemble_eq_flatMap single first, segments]
  exact whole?_segments single unnamed (expression.isOf_fields part hints) isOf
    (isExact_selection described) undivided
    (content_eq_of_selection unnamed unreserved whole expanded tells)

/-- Path segments hold no slash. -/
theorem slash_notMem (path : expression.operator = .path)
    (whole : ∀ v ∈ expression.occurrences, v.isExploded = false)
    (tells : ∀ v ∈ expression.occurrences, hints.TellsKept v (environment.value v.name)) :
    ∀ v ∈ expression.occurrences, ∀ contributed, expression.operator.contribution v
      (environment.value v.name) = .ok (some contributed) → '/' ∉ contributed := by
  intro v occurs contributed accepted
  let field := expression.field 0 hints v 0
  have written := field.contribution_eq accepted
  obtain ⟨content, known, rfl⟩ := Option.map_eq_some_iff.mp written.symm
  have admitted : field.Admits content :=
    Field.admits_content? rfl (tells v occurs).fits accepted content known
  have apart : field.operator.IsApart '/' := by
    rw [show field.operator = .path from path]
    exact ⟨by decide, by decide, by decide, by decide⟩
  have notExploded : field.occurrence.isExploded = false := whole v occurs
  have items := Field.notMem_item apart admitted
  rw [Field.items_of_whole notExploded] at items
  rw [Field.written_of_whole notExploded]
  exact items _ List.mem_cons_self

end Expression

namespace Template

variable {template : Template} {before after : List Literal} {expression : Expression}
  {environment : Environment} {hints : Hints} {expansion : Text}

/-- **Round trip of several variables.** Where the values of distinct variables are told apart in
an expression without names, with literal text around it, matching an expansion binds just the
values that the expansion keeps, in the order of the variables. -/
theorem match_several
    (parts : template.parts = Part.literals before ++ .expression expression :: Part.literals after)
    (distinct : (expression.occurrences.map Variable.name).Nodup)
    (whole : ∀ v ∈ expression.occurrences, v.isExploded = false)
    (told : expression.TellsSegments hints environment)
    (expanded : template.expand environment = .ok expansion) :
    ∃ bindings : Bindings,
      template.match? hints expansion = .ok (some ⟨template, bindings⟩) ∧
        bindings.values.entries = environment.restricted expression.occurrences := by
  obtain ⟨text, expandedHere, -⟩ := exists_expand_between parts expanded
  cases told with
  | texts simple known =>
    have tells : ∀ v ∈ expression.occurrences, hints.Tells v (environment.value v.name) := by
      intro v occurs
      obtain ⟨⟨text, value⟩, noHint⟩ := known v occurs
      rw [value]
      exact ⟨nofun, nofun, fun _ _ => noHint, fun _ => noHint, by simp [whole v occurs],
        fun _ => ⟨nofun, rfl⟩⟩
    exact match?_between parts distinct (fun v occurs => .of_tells (tells v occurs)) expanded
      fun text expandedText => Expression.whole?_texts simple expandedText tells
        fun v occurs => (known v occurs).1
  | path path described =>
    have tells := Expression.tellsKept_of_describes whole expandedHere described
    refine match?_between parts distinct tells expanded fun text expandedText => ?_
    have slash : expression.operator.separator = '/' := by rw [path]; rfl
    exact Expression.whole?_described (.inr path) whole expandedText described
      (slash ▸ Expression.slash_notMem path whole tells)
  | labels label described undotted =>
    have tells := Expression.tellsKept_of_describes whole expandedHere described
    refine match?_between parts distinct tells expanded fun text expandedText => ?_
    have dot : expression.operator.separator = '.' := by rw [label]; rfl
    exact Expression.whole?_described (.inl label) whole expandedText described (dot ▸ undotted)

/-- Path segments of which one is left out: an empty text, a list with an empty item and a
truncated text, before a literal slash. -/
theorem match_several_segments :
    ∃ found, Template.match?
      ⟨[.expression ⟨.path, [⟨['a'], .plain, rfl, rfl⟩, ⟨['b'], .plain, rfl, rfl⟩,
        ⟨['c'], .plain, rfl, rfl⟩, ⟨['d'], .truncated 1, rfl, rfl⟩], by simp⟩,
        .literal ⟨['/', 'q'], rfl⟩]⟩
      { required := [['a'], ['c'], ['d']], lists := [['c']] }
      ['/', '/', ',', 'x', '/', '%', 'C', '3', '%', 'A', '9', '/', 'q'] = .ok (some found) ∧
      found.bindings.values.entries =
        [(['a'], .text []), (['c'], .list [[], ['x']]), (['d'], .text ['é'])] := by
  let a : Variable := ⟨['a'], .plain, rfl, rfl⟩
  let b : Variable := ⟨['b'], .plain, rfl, rfl⟩
  let c : Variable := ⟨['c'], .plain, rfl, rfl⟩
  let d : Variable := ⟨['d'], .truncated 1, rfl, rfl⟩
  let expression : Expression := ⟨.path, [a, b, c, d], by simp⟩
  let template : Template :=
    ⟨Part.literals [] ++ .expression expression :: Part.literals [⟨['/', 'q'], rfl⟩]⟩
  let hints : Hints := { required := [['a'], ['c'], ['d']], lists := [['c']] }
  let environment : Environment := ⟨[(['a'], .text []), (['c'], .list [[], ['x']]),
    (['d'], .text ['é', 'z'])], by decide⟩
  have occurs : ∀ v ∈ expression.occurrences, v = a ∨ v = b ∨ v = c ∨ v = d := by
    simp [expression]
  have described : ∀ v ∈ expression.occurrences,
      hints.Describes v (environment.value v.name) := by
    intro v member
    rcases occurs v member with rfl | rfl | rfl | rfl
    · exact ⟨fun hinted => absurd hinted (by decide), nofun,
        fun hinted => absurd hinted (by decide), nofun, by decide⟩
    · exact ⟨fun hinted => absurd hinted (by decide), nofun,
        fun hinted => absurd hinted (by decide), nofun, by decide⟩
    · exact ⟨fun _ => ⟨_, rfl⟩, fun _ _ _ => by decide,
        fun hinted => absurd hinted (by decide), nofun, by decide⟩
    · exact ⟨fun hinted => absurd hinted (by decide), nofun,
        fun hinted => absurd hinted (by decide), nofun, by decide⟩
  have whole : ∀ v ∈ expression.occurrences, v.isExploded = false := by
    intro v member
    rcases occurs v member with rfl | rfl | rfl | rfl <;> rfl
  have expanded : template.expand environment = .ok ['/', '/', ',', 'x', '/', '%', 'C', '3', '%',
      'A', '9', '/', 'q'] := by decide +kernel
  obtain ⟨bindings, matched, values⟩ :=
    match_several rfl (by decide) whole (.path rfl described) expanded
  exact ⟨⟨template, bindings⟩, matched, values⟩

end Template

end UriTemplates
