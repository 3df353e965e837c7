import UriTemplates.Proofs.Matching.Findings
import UriTemplates.Proofs.Matching.Several
import UriTemplates.Proofs.Template.Preference

/-!
# Required texts

Texts with commas between them, where just those variables are required that have a text. A
required variable takes the next text (`Field.whole?_someOf_leading`), but so does every other
variable as soon as a text is left (`Field.exists_whole?_someOf_early`). Then there are too few
texts for the required ones (`Expression.bindings_of_early`). So the values are found again where
the variables with a value stand before all others, and else there is no match
(`Template.match?_required`).
-/

namespace UriTemplates

open Captures (textsAt)

namespace Selection

variable {fields : List Field} {selection other : Selection}

theorem contributions_eq_nil_iff :
    selection.contributions = [] ↔ ∀ chosen ∈ selection, chosen.2 = none := by
  simp [contributions, List.filterMap_eq_nil_iff]

/-- Whether the fields with a content stand before all others. -/
def IsLeading (selection : Selection) : Prop :=
  selection.Pairwise fun earlier later => later.2.isSome = true → earlier.2.isSome = true

theorem isLeading_cons_some {field : Field} {content : Content} :
    IsLeading ((field, some content) :: selection) ↔ selection.IsLeading := by
  simp [IsLeading]

/-- After a first field without a content, no other may have one. -/
theorem isLeading_cons_none {field : Field} :
    IsLeading ((field, none) :: selection) ↔ selection.contributions = [] := by
  rw [IsLeading, List.pairwise_cons, contributions_eq_nil_iff]
  constructor
  · rintro ⟨none, -⟩ chosen member
    simpa using none chosen member
  · intro none
    refine ⟨fun chosen member => by simp [none chosen member], ?_⟩
    refine List.pairwise_of_forall_mem_list fun earlier _ later member => ?_
    simp [none later member]

/-- Whether every content is a single text. -/
def HasTexts (selection : Selection) : Prop :=
  ∀ chosen ∈ selection, ∀ content ∈ chosen.2, ∃ text, content = .texts [text]

/-- Texts that fields contribute are written without reserved characters. -/
theorem written_of_mem_contributions (texts : selection.HasTexts)
    (takes : ∀ field ∈ fields, field.TakesText) (isOf : selection.IsOf fields) :
    ∀ text ∈ selection.contributions, Percent.Written false text := by
  intro text member
  obtain ⟨chosen, found, known⟩ := List.mem_filterMap.mp member
  obtain ⟨content, has, rfl⟩ := Option.map_eq_some_iff.mp known
  obtain ⟨text, rfl⟩ := texts chosen found content has
  have here := takes _ (isOf.mem_fields found)
  have written := (isOf.admits chosen found _ has).2.1 text List.mem_cons_self
  rwa [Field.IsWritten, here.unreserved, ← here.written_eq text] at written

/-- A complete selection that writes no more texts than an exact one is exact. -/
theorem IsExact.isExact_of_length_le (isExact : selection.IsExact) (isOf : selection.IsOf fields)
    (complete : other.IsComplete) (isOfOther : other.IsOf fields)
    (few : other.contributions.length ≤ selection.contributions.length) : other.IsExact := by
  induction fields generalizing selection other with
  | nil =>
    rw [isOf_nil_iff.mp isOfOther]
    intro chosen member
    cases member
  | cons field fields ih =>
    obtain ⟨content, later, rfl, -, isOfLater⟩ := isOf_cons_iff.mp isOf
    obtain ⟨known, more, rfl, -, isOfMore⟩ := isOf_cons_iff.mp isOfOther
    obtain ⟨required, exactLater⟩ := List.forall_mem_cons.mp isExact
    obtain ⟨needed, completeMore⟩ := List.forall_mem_cons.mp complete
    have enough := IsExact.length_le exactLater isOfLater completeMore isOfMore
    have following := ih exactLater isOfLater completeMore isOfMore
    cases content with
    | none =>
      cases known with
      | none =>
        rw [contributions_cons_none, contributions_cons_none] at few
        exact List.forall_mem_cons.mpr ⟨required, following few⟩
      | some known =>
        rw [contributions_cons_some, contributions_cons_none, List.length_cons] at few
        omega
    | some content =>
      cases known with
      | none => exact absurd (needed required) Bool.false_ne_true
      | some known =>
        rw [contributions_cons_some, contributions_cons_some, List.length_cons, List.length_cons,
          Nat.succ_le_succ_iff] at few
        exact List.forall_mem_cons.mpr ⟨required, following few⟩

end Selection

/-- Whether a field may be a text, any number of texts or a map. -/
structure Field.TakesTexts (field : Field) : Prop extends field.TakesText where
  plain : field.occurrence.modifier = .plain
  listed : field.forms.list = true

namespace Field

open Readings (Derives)

variable {field : Field} {fields : List Field} {selection : Selection}

/-- A field that takes texts may have any written ones. -/
theorem TakesTexts.admits (takes : field.TakesTexts) {texts : List Text} (nonempty : texts ≠ [])
    (written : ∀ text ∈ texts, Percent.Written false text) : field.Admits (.texts texts) := by
  refine ⟨nonempty, fun text member => ?_, ?_⟩
  · rw [IsWritten, takes.unreserved]
    exact written text member
  · simp only [AdmitsTexts, takes.plain]
    exact .inl takes.listed

/-- A text is taken by the first field, be it required or not. -/
theorem TakesText.whole?_someOf_alone (takes : field.TakesText) {text : Text}
    (admitted : field.Admits (.texts [text])) (rest : List Field) :
    (someOf (field :: rest)).readings.whole? text = some [field.mark .value text] := by
  have alone := takes.whole?_unnamed admitted
  cases rest with
  | nil => exact alone
  | cons next rest =>
    rw [someOf_several]
    split_ifs
    · let more : Pattern Site := .optional (.seq [.literal [','], someOf (next :: rest)]) false
      have ended : more.readings.whole? [] = some [] := by
        have none :
            (Pattern.seq [.literal [','], someOf (next :: rest)]).readings.whole? [] = none := by
          rw [← Option.not_isSome_iff_eq_none]
          intro read
          obtain ⟨back, absurd⟩ := Pattern.exists_of_isSome_whole? read
          cases absurd
        rw [Pattern.whole?_optional, none]
        rfl
      have first : field.unnamed.readings.IsFirst (text ++ [])
          (fun back => (more.readings.whole? back).isSome = true) ⟨[field.mark .value text], []⟩ :=
        takes.isFirst admitted (by decide) (by decide) (Pattern.stopsAt_optional ',' _)
          (by rw [ended]; rfl)
      have read := first.whole?_andThen
      rw [List.append_nil, ended, ← Pattern.readings_seq_single more] at read
      exact read
    · -- the first option reads a comma, and the text holds none
      have none : (Pattern.seq [field.unnamed, .literal [','],
          someOf (next :: rest)]).readings.whole? text = none := by
        refine Readings.whole?_eq_none_iff.mpr fun marks derived => ?_
        obtain ⟨front, _, before, after, rfl, rfl, -, more⟩ := Pattern.derives_seq_cons.mp derived
        obtain ⟨back, rfl, -⟩ := Pattern.derives_seq_literal.mp more
        exact comma_notMem takes.unreserved (admitted.2.1 _ List.mem_cons_self) (by simp)
      refine (Pattern.whole?_choice _ _).trans ?_
      rw [List.findSome?_cons, none, List.findSome?_cons, alone]

/-- Any number of texts can be read, if only as the items of the first field. -/
theorem TakesTexts.exists_whole?_someOf (takes : field.TakesTexts) (rest : List Field)
    {texts : List Text} (nonempty : texts ≠ [])
    (written : ∀ text ∈ texts, Percent.Written false text) :
    ∃ marks, (someOf (field :: rest)).readings.whole? (Text.joined ',' texts) = some marks := by
  have read : Derives field.unnamed.readings (Text.joined ',' texts)
      (field.marks (.texts texts)) := by
    refine (derives_unnamed takes.unnamed).mpr
      ⟨_, takes.admits nonempty written, ?_, rfl⟩
    rw [written_of_whole takes.whole, withName_of_unnamed takes.unnamed]
    rfl
  cases rest with
  | nil => exact Readings.exists_whole?_of_derives read
  | cons next rest => exact Readings.exists_whole?_of_derives (derives_someOf_cons.mpr (.inl read))

/-- **Texts for the first fields** are read one by one. -/
theorem whole?_someOf_leading (takes : ∀ field ∈ fields, field.TakesText)
    (isOf : selection.IsOf fields) (texts : selection.HasTexts) (leading : selection.IsLeading)
    (some_ : selection.contributions ≠ []) :
    (someOf fields).readings.whole? (Text.joined ',' selection.contributions) =
      some selection.marks := by
  induction fields generalizing selection with
  | nil =>
    rw [Selection.isOf_nil_iff.mp isOf] at some_
    exact (some_ rfl).elim
  | cons field rest ih =>
    obtain ⟨here, takesLater⟩ := List.forall_mem_cons.mp takes
    obtain ⟨content, later, rfl, admits, isOfLater⟩ := Selection.isOf_cons_iff.mp isOf
    obtain ⟨textHere, textsLater⟩ := List.forall_mem_cons.mp texts
    cases content with
    | none =>
      rw [Selection.contributions_cons_none] at some_
      exact (some_ (Selection.isLeading_cons_none.mp leading)).elim
    | some content =>
      obtain ⟨text, rfl⟩ := textHere content rfl
      rw [Selection.contributions_cons_some, Selection.marks_cons_some, here.written_eq,
        here.marks_eq]
      by_cases last : later.contributions = []
      · rw [last, Selection.marks_eq_nil last, Text.joined_singleton, List.append_nil]
        exact here.whole?_someOf_alone (admits _ rfl) rest
      · rw [Text.joined_cons _ last]
        cases rest with
        | nil =>
          rw [Selection.isOf_nil_iff.mp isOfLater] at last
          exact (last rfl).elim
        | cons next rest =>
          exact here.whole?_someOf_cons (admits _ rfl) (ih takesLater isOfLater textsLater
            (Selection.isLeading_cons_some.mp leading) last)

/-- **A text is taken early**: where a field without a content stands before one with a content,
some field without a content takes a text. -/
theorem exists_whole?_someOf_early (takes : ∀ field ∈ fields, field.TakesTexts)
    (isOf : selection.IsOf fields) (isExact : selection.IsExact) (texts : selection.HasTexts)
    (early : ¬ selection.IsLeading) :
    ∃ marks, (someOf fields).readings.whole? (Text.joined ',' selection.contributions) =
      some marks ∧
      ∃ field ∈ fields, field.isRequired = false ∧ ∃ text, field.mark .value text ∈ marks := by
  induction fields generalizing selection with
  | nil =>
    rw [Selection.isOf_nil_iff.mp isOf] at early
    exact (early List.Pairwise.nil).elim
  | cons field rest ih =>
    obtain ⟨here, takesLater⟩ := List.forall_mem_cons.mp takes
    obtain ⟨content, later, rfl, admits, isOfLater⟩ := Selection.isOf_cons_iff.mp isOf
    obtain ⟨exactHere, exactLater⟩ := List.forall_mem_cons.mp isExact
    obtain ⟨textHere, textsLater⟩ := List.forall_mem_cons.mp texts
    have some_ : later.contributions ≠ [] := by
      intro nothing
      cases content with
      | none => exact early (Selection.isLeading_cons_none.mpr nothing)
      | some content =>
        rw [Selection.isLeading_cons_some] at early
        apply early
        rw [Selection.contributions_eq_nil_iff] at nothing
        refine List.pairwise_of_forall_mem_list fun earlier _ chosen member => ?_
        simp [nothing chosen member]
    obtain ⟨next, rest, rfl⟩ : ∃ next others, rest = next :: others := by
      refine List.exists_cons_of_ne_nil ?_
      rintro rfl
      rw [Selection.isOf_nil_iff.mp isOfLater] at some_
      exact some_ rfl
    cases content with
    | none =>
      have written := Selection.written_of_mem_contributions textsLater
        (fun known member => (takesLater known member).toTakesText) isOfLater
      rw [Selection.contributions_cons_none]
      obtain ⟨text, others, split⟩ := List.exists_cons_of_ne_nil some_
      rw [split] at written ⊢
      obtain ⟨writtenHere, writtenLater⟩ := List.forall_mem_cons.mp written
      have admitted : field.Admits (.texts [text]) :=
        here.admits (List.cons_ne_nil _ _) (by simpa using writtenHere)
      by_cases last : others = []
      · rw [last, Text.joined_singleton, here.whole?_someOf_alone admitted]
        exact ⟨_, rfl, field, List.mem_cons_self, exactHere, text, List.mem_cons_self⟩
      · obtain ⟨marks, read⟩ := (takesLater next List.mem_cons_self).exists_whole?_someOf rest last
          writtenLater
        rw [Text.joined_cons _ last, here.whole?_someOf_cons admitted read]
        exact ⟨_, rfl, field, List.mem_cons_self, exactHere, text, List.mem_cons_self⟩
    | some content =>
      obtain ⟨text, rfl⟩ := textHere content rfl
      obtain ⟨marks, read, known, member, optional, taken, inside⟩ := ih takesLater isOfLater
        exactLater textsLater (Selection.isLeading_cons_some.not.mp early)
      rw [Selection.contributions_cons_some, here.written_eq, Text.joined_cons _ some_,
        here.whole?_someOf_cons (admits _ rfl) read]
      exact ⟨_, rfl, known, List.mem_cons_of_mem field member, optional, taken,
        List.mem_cons_of_mem _ inside⟩

end Field

namespace Expression

variable {expression : Expression} {part : Nat} {hints : Hints} {captures : Captures Site}
  {marks : List (Site × Option Text)} {selection : Selection}

/-- Where an expression has bindings, no required field is left out. -/
theorem isComplete_of_bindings (isOf : selection.IsOf (expression.fields part hints))
    (shows : ∀ chosen ∈ selection, chosen.1.Shows chosen.2 captures) {bindings : List Binding}
    (bound : expression.bindings part (captures.evidence part) hints = .ok (some bindings)) :
    selection.IsComplete := by
  obtain ⟨-, satisfied, -⟩ := (bindings_of_shows isOf shows).mp bound
  intro chosen member required
  obtain ⟨v, -, index, same⟩ := exists_of_mem_fields (isOf.mem_fields member)
  have met := satisfied _ (List.mem_map_of_mem member)
  have requires : hints.requires chosen.1.occurrence = true := by
    rw [same] at required ⊢
    exact required
  by_contra missing
  have left : chosen.2 = none := by simpa using missing
  simp [left, Binding.satisfies, requires] at met

/-- **Too few texts are left** for the required fields where another one took a text. -/
theorem bindings_of_early (simple : expression.operator = .simple)
    (isOf : selection.IsOf (expression.fields part hints)) (isExact : selection.IsExact)
    (some_ : selection.contributions ≠ []) (apart : ∀ text ∈ selection.contributions, ',' ∉ text)
    (derived : (patternOf expression.operator (expression.fields part hints)).readings.Derives
      (Text.joined ',' selection.contributions) marks)
    (shown : ∀ site, site.part = part → textsAt captures site = textsAt marks site)
    {field : Field} (member : field ∈ expression.fields part hints)
    (optional : field.isRequired = false) {text : Text} (taken : field.mark .value text ∈ marks) :
    expression.bindings part (captures.evidence part) hints = .ok none := by
  obtain ⟨result, bound⟩ := exists_bindings derived shown
  cases result with
  | none => exact bound
  | some bindings =>
    obtain ⟨other, isOfOther, same, rfl⟩ := exists_selection_of_derives (by rw [simple]; rfl)
      (expression.isOf_fields part hints) (expression.fields_ne_nil part hints) derived
    obtain ⟨chosen, found, inside⟩ := List.mem_flatMap.mp taken
    obtain ⟨own, content⟩ := chosen
    cases content with
    | none => cases inside
    | some content =>
      have few : other.contributions.length ≤ selection.contributions.length := by
        have someOther : other.contributions ≠ [] :=
          List.ne_nil_of_mem (List.mem_filterMap.mpr ⟨_, found, rfl⟩)
        apply Text.length_le_of_joined someOther some_ apart
        simpa [Operator.assemble, simple, someOther, Operator.first, Operator.separator]
          using same.symm
      have exactOther := isExact.isExact_of_length_le isOf
        (isComplete_of_bindings isOfOther (shows_selection isOfOther shown) bound) isOfOther few
      obtain ⟨facet, site⟩ := own.site_of_mem_marks content _ inside
      obtain rfl : own = field := List.inj_on_of_nodup_map (expression.nodup_index part hints)
        (isOfOther.mem_fields found) member (congrArg Site.index site).symm
      exact absurd (optional.symm.trans (exactOther _ found)) Bool.false_ne_true

end Expression

/-- Whether the variables with a value stand before all others. -/
def Environment.Leads (environment : Environment) (occurrences : List Variable) : Prop :=
  occurrences.Pairwise fun earlier later =>
    environment.value later.name ≠ .undefined → environment.value earlier.name ≠ .undefined

/-- Whether all values of variables are texts, one of them at least, and just those variables
are required that have a value. -/
structure Hints.RequiresTexts (hints : Hints) (environment : Environment)
    (occurrences : List Variable) : Prop where
  texts : ∀ v ∈ occurrences, environment.value v.name = .undefined ∨
    ∃ text, environment.value v.name = .text text
  defined : ∃ v ∈ occurrences, environment.value v.name ≠ .undefined
  required : ∀ v ∈ occurrences, v.name ∈ hints.required ↔ environment.value v.name ≠ .undefined
  unlisted : hints.lists = []
  unmapped : hints.maps = []

namespace Expression

variable {expression : Expression} {part : Nat} {hints : Hints} {environment : Environment}
  {text : Text}

/-- Required texts are described by the hints. -/
theorem describes_of_requiresTexts
    (requires : hints.RequiresTexts environment expression.occurrences) :
    ∀ v ∈ expression.occurrences, hints.Describes v (environment.value v.name) := by
  intro v occurs
  have required := requires.required v occurs
  have atom : (∀ items, environment.value v.name ≠ .list items) ∧
      (∀ map, environment.value v.name ≠ .map map) ∧
      (v.name ∈ hints.required ↔ (v.kept? (environment.value v.name)).isSome = true) := by
    obtain value | ⟨text, value⟩ := requires.texts v occurs
    · rw [value] at required ⊢
      simpa [Variable.kept?] using required
    · rw [value] at required ⊢
      simpa [Variable.kept?] using required
  exact ⟨by simp [requires.unlisted], fun items same => (atom.1 items same).elim,
    by simp [requires.unmapped], fun map same => (atom.2.1 map same).elim, atom.2.2⟩

/-- In a simple expression of plain variables, every field takes texts if no hint says otherwise. -/
theorem takesTexts_fields (simple : expression.operator = .simple)
    (plain : ∀ v ∈ expression.occurrences, v.modifier = .plain)
    (unlisted : hints.lists = []) (unmapped : hints.maps = []) :
    ∀ field ∈ expression.fields part hints, field.TakesTexts := by
  intro field member
  obtain ⟨v, occurs, index, rfl⟩ := exists_of_mem_fields member
  have whole : v.isExploded = false := by simp [Variable.isExploded, plain v occurs]
  refine ⟨⟨?_, ?_, whole, ?_⟩, plain v occurs, ?_⟩
  · exact congrArg Operator.isNamed simple
  · exact congrArg Operator.allowsReserved simple
  · simp [Expression.field, Hints.forms, whole, unlisted, unmapped]
  · simp [Expression.field, Hints.forms, unmapped]

/-- Where texts are required, every content that is expanded is a single text. -/
theorem hasTexts_selection (requires : hints.RequiresTexts environment expression.occurrences) :
    (expression.selection part hints environment).HasTexts := by
  intro chosen member content known
  obtain ⟨v, occurs, index, rfl⟩ := exists_of_mem_selection member
  obtain value | ⟨text, value⟩ := requires.texts v occurs
  · rw [value] at known
    cases known
  · rw [value] at known
    exact ⟨_, (Option.some.inj known).symm⟩

/-- Where texts are required, a field has a content if its variable is defined. -/
theorem isSome_content?_iff (requires : hints.RequiresTexts environment expression.occurrences) :
    ∀ field ∈ expression.fields part hints,
      (field.content? (environment.value field.occurrence.name)).isSome = true ↔
        environment.value field.occurrence.name ≠ .undefined := by
  intro field member
  obtain ⟨v, occurs, index, rfl⟩ := exists_of_mem_fields member
  rw [Field.isSome_content?_eq]
  exact (describes_of_requiresTexts requires v occurs).required.symm.trans
    (requires.required v occurs)

/-- Some variable has a value, so something is written. -/
theorem contributions_selection_ne_nil
    (requires : hints.RequiresTexts environment expression.occurrences) :
    (expression.selection part hints environment).contributions ≠ [] := by
  obtain ⟨v, occurs, defined⟩ := requires.defined
  rw [← expression.occurrences_eq part hints] at occurs
  obtain ⟨field, member, rfl⟩ := List.mem_map.mp occurs
  intro nothing
  have none : field.content? (environment.value field.occurrence.name) = none :=
    Selection.contributions_eq_nil_iff.mp nothing _ (List.mem_map_of_mem member)
  have has := (isSome_content?_iff requires field member).mpr defined
  rw [none] at has
  cases has

/-- The fields with a content stand first if the defined variables do. -/
theorem isLeading_selection_iff
    (requires : hints.RequiresTexts environment expression.occurrences) :
    (expression.selection part hints environment).IsLeading ↔
      environment.Leads expression.occurrences := by
  have has : ∀ field ∈ expression.fields part hints, _ := isSome_content?_iff requires
  rw [Selection.IsLeading, Environment.Leads, ← expression.occurrences_eq part hints,
    selection, List.pairwise_map, List.pairwise_map]
  exact List.Pairwise.iff_of_mem fun {earlier later} member memberLater => by
    rw [has earlier member, has later memberLater]

end Expression

namespace Template

variable {template : Template} {before after : List Literal} {expression : Expression}
  {environment : Environment} {hints : Hints}

/-- Texts are expanded under every operator and modifier. -/
theorem exists_expand_of_requiresTexts
    (requires : hints.RequiresTexts environment template.occurrences) :
    ∃ expansion, template.expand environment = .ok expansion := by
  refine exists_expand_iff.mpr fun known member =>
    Expression.exists_expand_iff.mpr fun v occurs => ?_
  obtain value | ⟨text, value⟩ := requires.texts v (List.mem_flatMap.mpr ⟨_, member, occurs⟩)
  · exact ⟨_, by rw [value]; rfl⟩
  · exact ⟨_, by rw [value]; rfl⟩

/-- **Required texts.** Of a simple expression with distinct variables, with literal text around
it, just those variables are required that have a value, and their values are texts. If they stand
before all other variables, matching the expansion binds just their values. Otherwise there is no
match: the first variable before them that is not required takes a text that was written for a
required one. -/
theorem match?_required
    (parts : template.parts = Part.literals before ++ .expression expression :: Part.literals after)
    (simple : expression.operator = .simple)
    (plain : ∀ v ∈ expression.occurrences, v.modifier = .plain)
    (distinct : (expression.occurrences.map Variable.name).Nodup)
    (requires : hints.RequiresTexts environment expression.occurrences) :
    ∃ expansion, template.expand environment = .ok expansion ∧
      (environment.Leads expression.occurrences → ∃ bindings : Bindings,
        template.match? hints expansion = .ok (some ⟨template, bindings⟩) ∧
          bindings.values.entries = environment.restricted expression.occurrences) ∧
      (¬ environment.Leads expression.occurrences →
        template.match? hints expansion = .ok none) := by
  obtain ⟨expansion, expanded⟩ := exists_expand_of_requiresTexts
    (occurrences_between parts ▸ requires)
  refine ⟨expansion, expanded, ?_⟩
  obtain ⟨text, expandedHere, split⟩ := exists_expand_between parts expanded
  have described := Expression.describes_of_requiresTexts requires
  have tells := Expression.tellsKept_of_describes
    (fun v occurs => by simp [Variable.isExploded, plain v occurs]) expandedHere described
  have takes : ∀ field ∈ expression.fields before.length hints, field.TakesTexts :=
    Expression.takesTexts_fields simple plain requires.unlisted requires.unmapped
  let selection := expression.selection before.length hints environment
  have isOf : selection.IsOf (expression.fields before.length hints) :=
    Expression.isOf_selection expandedHere fun v occurs => (tells v occurs).fits
  have isExact : selection.IsExact := Expression.isExact_selection described
  have texts : selection.HasTexts := Expression.hasTexts_selection requires
  have leads : selection.IsLeading ↔ environment.Leads expression.occurrences :=
    Expression.isLeading_selection_iff requires
  have some_ : selection.contributions ≠ [] := Expression.contributions_selection_ne_nil requires
  have assembled : ∀ known, expression.expand environment = .ok known →
      known = Text.joined ',' selection.contributions := by
    intro known expandedKnown
    rw [expression.expand_eq before.length hints expandedKnown, simple]
    simp [Operator.assemble, some_, Operator.first, Operator.separator, selection]
  constructor
  · intro leading
    refine match?_between parts distinct tells expanded fun known expandedKnown => ?_
    rw [assembled known expandedKnown, simple]
    exact Pattern.whole?_optional_of_whole? (Field.whole?_someOf_leading
      (fun field member => (takes field member).toTakesText) isOf texts (leads.mpr leading) some_)
  · intro early
    obtain ⟨marks, read, field, member, optional, taken, inside⟩ :=
      Field.exists_whole?_someOf_early takes isOf isExact texts (leads.not.mpr early)
    have readHere : (Expression.patternOf expression.operator
        (expression.fields before.length hints)).readings.whole?
          (Text.joined ',' selection.contributions) = some marks := by
      rw [simple]
      exact Pattern.whole?_optional_of_whole? read
    have apart : ∀ known ∈ selection.contributions, ',' ∉ known := fun known found =>
      (Selection.written_of_mem_contributions texts
        (fun field member => (takes field member).toTakesText) isOf known found).notMem
          (by decide) (by decide)
    have bound : expression.bindings before.length (Captures.evidence marks before.length) hints =
        .ok none :=
      Expression.bindings_of_early simple isOf isExact some_ apart
        (Readings.derives_of_whole? readHere) (fun _ _ => rfl) member optional inside
    rw [split, assembled text expandedHere]
    exact match?_between_eq_none parts
      (fun v occurs => (tells v occurs).fits.contradiction?_eq_none) readHere bound

/-- Two of three variables have a value, the second one an empty text. -/
theorem match?_required_first :
    ∃ found, Template.match?
      ⟨[.literal ⟨['q'], rfl⟩, .expression ⟨.simple, [⟨['x'], .plain, rfl, rfl⟩,
        ⟨['y'], .plain, rfl, rfl⟩, ⟨['z'], .plain, rfl, rfl⟩], by simp⟩]⟩
      { required := [['x'], ['y']] } ['q', '1', ','] = .ok (some found) ∧
      found.bindings.values.entries = [(['x'], .text ['1']), (['y'], .text [])] := by
  let x : Variable := ⟨['x'], .plain, rfl, rfl⟩
  let y : Variable := ⟨['y'], .plain, rfl, rfl⟩
  let z : Variable := ⟨['z'], .plain, rfl, rfl⟩
  let expression : Expression := ⟨.simple, [x, y, z], by simp⟩
  let template : Template :=
    ⟨Part.literals [⟨['q'], rfl⟩] ++ .expression expression :: Part.literals []⟩
  let hints : Hints := { required := [['x'], ['y']] }
  let environment : Environment := ⟨[(['x'], .text ['1']), (['y'], .text [])], by decide⟩
  have occurs : ∀ v ∈ expression.occurrences, v = x ∨ v = y ∨ v = z := by simp [expression]
  have requires : hints.RequiresTexts environment expression.occurrences := by
    refine ⟨fun v member => ?_, ⟨x, by simp [expression], by decide⟩, by decide, rfl, rfl⟩
    rcases occurs v member with rfl | rfl | rfl
    · exact .inr ⟨_, rfl⟩
    · exact .inr ⟨_, rfl⟩
    · exact .inl rfl
  have plain : ∀ v ∈ expression.occurrences, v.modifier = .plain := by
    intro v member
    rcases occurs v member with rfl | rfl | rfl <;> rfl
  obtain ⟨expansion, expanded, matches_, -⟩ :=
    match?_required rfl rfl plain (by decide) requires
  have same : template.expand environment = .ok ['q', '1', ','] := by decide +kernel
  obtain rfl := Except.ok.inj (expanded.symm.trans same)
  have leads : environment.Leads expression.occurrences := by
    unfold Environment.Leads
    decide
  obtain ⟨bindings, matched, values⟩ := matches_ leads
  exact ⟨⟨template, bindings⟩, matched, values⟩

/-- The second of two variables alone has a value and is required, but the first one takes the
text. -/
theorem match?_required_second :
    let template : Template := ⟨[.expression ⟨.simple, [⟨['a'], .plain, rfl, rfl⟩,
      ⟨['b'], .plain, rfl, rfl⟩], by simp⟩]⟩
    template.expand ⟨[(['b'], .text ['x'])], by decide⟩ = .ok ['x'] ∧
      template.match? { required := [['b']] } ['x'] = .ok none := by
  decide +kernel

end Template

end UriTemplates
