import UriTemplates.Proofs.Binding.Distinct
import UriTemplates.Proofs.Matching.Selection
import UriTemplates.Proofs.Matching.Told

/-!
# The round trip of named expressions

Where hints tell the values of an expression with names, matching an expansion gives back what
the expansion keeps of the values (`Template.match_expansion`). The first reading finds what was
written (`Expression.whole?_selection`), and literal text around the expression is read as it
is.
-/

namespace UriTemplates

open Captures (textsAt)

/-- The values of variables that an expansion keeps, in the order of the variables. -/
def Environment.restricted (environment : Environment) (occurrences : List Variable) :
    List (Text × Value) :=
  occurrences.filterMap fun v =>
    (v.kept? (environment.value v.name)).map fun value => (v.name, value)

/-- The bindings of the values that an expansion keeps. -/
def Environment.bindings (environment : Environment) (occurrences : List Variable) :
    List Binding :=
  occurrences.filterMap fun v => (v.kept? (environment.value v.name)).map fun value => ⟨v, value⟩

namespace Expression

variable {expression : Expression} {part : Nat} {hints : Hints} {environment : Environment}
  {captures : Captures Site} {text : Text}

/-- If hints tell what each value is, then the findings are the values, as far as truncations keep
them. -/
theorem findings_selection (expanded : expression.expand environment = .ok text)
    (tells : ∀ v ∈ expression.occurrences, hints.TellsKept v (environment.value v.name)) :
    (expression.selection part hints environment).findings hints =
      expression.occurrences.map fun v =>
        (v, .ofKept (v.kept? (environment.value v.name))) := by
  have each : ∀ field ∈ expression.fields part hints,
      ((field.content? (environment.value field.occurrence.name)).map
        (Content.finding hints field.occurrence)).getD .silent =
          .ofKept (field.occurrence.kept? (environment.value field.occurrence.name)) := by
    intro field member
    obtain ⟨v, occurs, index, rfl⟩ := exists_of_mem_fields member
    obtain ⟨contributed, accepted⟩ := expression.exists_contribution expanded v occurs
    exact Field.finding_of_tellsKept (tells v occurs) accepted
  rw [← expression.occurrences_eq part hints, Selection.findings, selection, List.map_map,
    List.map_map]
  exact List.map_congr_left fun field member => Prod.ext rfl (each field member)

/-- **What is bound of an expansion** is what the expansion keeps. -/
theorem bindings_of_tellsKept (expanded : expression.expand environment = .ok text)
    (tells : ∀ v ∈ expression.occurrences, hints.TellsKept v (environment.value v.name))
    (shown : ∀ site, site.part = part → textsAt captures site =
      textsAt (expression.selection part hints environment).marks site) :
    expression.bindings part (captures.evidence part) hints =
      .ok (some (environment.bindings expression.occurrences)) := by
  have isOf : (expression.selection part hints environment).IsOf
      (expression.fields part hints) :=
    isOf_selection expanded fun v occurs => (tells v occurs).fits
  rw [bindings_of_shows isOf (shows_selection isOf shown), findings_selection expanded tells]
  simp only [List.forall_mem_map]
  refine ⟨fun v _ => ?_, fun v occurs => ?_, ?_⟩
  · cases v.kept? (environment.value v.name) <;> exact nofun
  · cases required : hints.requires v with
    | true =>
      obtain ⟨kept, same, nonempty⟩ := (tells v occurs).isSome_kept? required
      simp [same, Binding.Finding.ofKept, Binding.satisfies, nonempty]
    | false => cases v.kept? (environment.value v.name) <;>
        simp [Binding.Finding.ofKept, Binding.satisfies, required]
  · rw [List.filterMap_map, Environment.bindings]
    apply List.filterMap_congr
    intro v _
    rw [Function.comp_apply]
    cases v.kept? (environment.value v.name) <;> rfl

/-- Captures that show the expanded values bind each variable to its value. -/
theorem bindings_expansion (expanded : expression.expand environment = .ok text)
    (tells : ∀ v ∈ expression.occurrences, hints.Tells v (environment.value v.name))
    (shown : ∀ site, site.part = part → textsAt captures site =
      textsAt (expression.selection part hints environment).marks site) :
    expression.bindings part (captures.evidence part) hints =
      .ok (some (environment.bindings expression.occurrences)) :=
  bindings_of_tellsKept expanded (fun v occurs => .of_tells (tells v occurs)) shown

end Expression

namespace Part

/-- Literal parts with the given texts. -/
def literals (parts : List Literal) : List Part :=
  parts.map .literal

/-- Parts without an expression are literal. -/
theorem exists_literals {parts : List Part} (none : parts.filterMap Part.expression? = []) :
    ∃ literals, parts = Part.literals literals := by
  induction parts with
  | nil => exact ⟨[], rfl⟩
  | cons part parts ih =>
    cases part with
    | literal part =>
      obtain ⟨literals, rfl⟩ := ih none
      exact ⟨part :: literals, rfl⟩
    | expression part => cases none

/-- Literal parts in front are read as literal texts in front. -/
theorem patterns_literals {parts : List Literal} {index : Nat} {hints : Hints}
    {more : List Part} {patterns : List (Pattern Site)}
    (built : Part.patterns (index + parts.length) hints more = .ok patterns) :
    Part.patterns index hints (literals parts ++ more) =
      .ok (Pattern.literals (parts.map Literal.text) ++ patterns) := by
  induction parts generalizing index with
  | nil => exact built
  | cons part parts ih =>
    refine Part.patterns_cons.mpr ⟨_, _, rfl, rfl, ih ?_⟩
    rwa [List.length_cons, ← Nat.add_assoc, Nat.add_right_comm] at built

/-- Literal parts bind nothing and move the other parts on. -/
theorem bindingsFrom_literals (captures : Captures Site) (hints : Hints) (parts : List Literal)
    (more : List Part) (index : Nat) :
    Template.bindingsFrom captures hints index (literals parts ++ more) =
      Template.bindingsFrom captures hints (index + parts.length) more := by
  induction parts generalizing index with
  | nil => rfl
  | cons part parts ih =>
    rw [List.length_cons, ← Nat.add_assoc, Nat.add_right_comm]
    exact ih (index + 1)

/-- Literal parts expand to their own texts. -/
theorem mapM_expand_literals (environment : Environment) (parts : List Literal) :
    (literals parts).mapM (Part.expand environment) = .ok (parts.map Literal.text) := by
  rw [literals, List.mapM_map]
  exact List.mapM_pure

end Part

/-- Distinct variables have bindings with distinct names. -/
theorem Environment.nodup_bindings {environment : Environment} {occurrences : List Variable}
    (distinct : (occurrences.map Variable.name).Nodup) :
    ((environment.bindings occurrences).map fun binding => binding.occurrence.name).Nodup := by
  refine List.Sublist.nodup ?_ distinct
  clear distinct
  induction occurrences with
  | nil => exact .slnil
  | cons v occurrences ih =>
    rw [Environment.bindings, List.filterMap_cons]
    cases v.kept? (environment.value v.name) with
    | none => exact ih.cons _
    | some value => exact ih.cons_cons _

/-- Bindings by name have the values that the expansion keeps. -/
theorem Bindings.entries_values {environment : Environment} {occurrences : List Variable}
    {merged : Bindings}
    (entries : merged.entries = (environment.bindings occurrences).map Bindings.entry) :
    merged.values.entries = environment.restricted occurrences := by
  simp only [Bindings.values, OrderedMap.mapValues, entries, Environment.bindings,
    Environment.restricted, List.map_filterMap, Option.map_map]
  rfl

namespace Template

variable {template : Template} {before after : List Literal} {expression : Expression}
  {environment : Environment} {hints : Hints} {expansion : Text}

/-- A template around one expression expands to the expansion of the expression between the
literal texts. -/
theorem exists_expand_between
    (parts : template.parts = Part.literals before ++ .expression expression :: Part.literals after)
    (expanded : template.expand environment = .ok expansion) :
    ∃ text, expression.expand environment = .ok text ∧
      expansion = (before.map Literal.text).flatten ++
        (text ++ (after.map Literal.text).flatten) := by
  obtain ⟨texts, each, rfl⟩ := Template.expand_eq_ok_iff.mp expanded
  rw [parts, List.mapM_append, List.mapM_cons, Part.mapM_expand_literals,
    Part.mapM_expand_literals, Part.expand] at each
  obtain ⟨_, first, following⟩ := bind_eq_ok_iff.mp each
  obtain ⟨_, last, put⟩ := bind_eq_ok_iff.mp following
  obtain ⟨text, expandedHere, final⟩ := bind_eq_ok_iff.mp last
  cases first
  cases final
  cases put
  exact ⟨text, expandedHere, by simp⟩

/-- **Round trip of named expressions.** Where hints tell the values and the entries of an
expression with names, whose variables are distinct, matching an expansion binds just the values
that the expansion keeps, in the order of the variables. -/
theorem match_expansion
    (parts : template.parts = Part.literals before ++ .expression expression :: Part.literals after)
    (named : expression.operator.isNamed = true)
    (distinct : (expression.occurrences.map Variable.name).Nodup)
    (tells : ∀ v ∈ expression.occurrences, hints.Tells v (environment.value v.name))
    (entries : expression.TellsEntries hints environment)
    (expanded : template.expand environment = .ok expansion) :
    ∃ bindings : Bindings,
      template.match? hints expansion = .ok (some ⟨template, bindings⟩) ∧
        bindings.values.entries = environment.restricted expression.occurrences := by
  obtain ⟨text, expandedHere, rfl⟩ := exists_expand_between parts expanded
  have fits := fun v occurs => (tells v occurs).fits
  have isOf : (expression.selection before.length hints environment).IsOf
      (expression.fields before.length hints) := Expression.isOf_selection expandedHere fits
  have each := expression.isOf_fields before.length hints
  have built : Part.patterns 0 hints template.parts =
      .ok (Pattern.literals (before.map Literal.text) ++
        Expression.patternOf expression.operator (expression.fields before.length hints) ::
          Pattern.literals (after.map Literal.text)) := by
    rw [parts]
    refine Part.patterns_literals (Part.patterns_cons.mpr ⟨_, _, rfl, ?_, ?_⟩)
    · rw [Nat.zero_add]
      exact Expression.pattern_eq_ok_iff.mpr
        ⟨fun v occurs => (fits v occurs).contradiction?_eq_none, rfl⟩
    · have ended : Part.patterns (0 + before.length + 1) hints (Part.literals after ++ []) =
          .ok (Pattern.literals (after.map Literal.text) ++ []) := Part.patterns_literals rfl
      rwa [List.append_nil, List.append_nil] at ended
  have captured : template.capture hints ((before.map Literal.text).flatten ++
      (text ++ (after.map Literal.text).flatten)) =
        .ok (some (expression.selection before.length hints environment).marks) := by
    have pattern := pattern_eq_ok_iff.mpr ⟨_, built, rfl⟩
    rw [capture, pattern]
    refine (captures?_pattern pattern _).trans (congrArg Except.ok ?_)
    rw [Pattern.whole?_between, expression.expand_eq before.length hints expandedHere]
    exact Expression.whole?_selection named each isOf
      (Expression.isTold_steps distinct tells entries)
  have bound : bindingsFrom (expression.selection before.length hints environment).marks hints 0
      template.parts = .ok (some (environment.bindings expression.occurrences)) := by
    rw [parts, Part.bindingsFrom_literals, Nat.zero_add, bindingsFrom_expression]
    refine ⟨_, [], (List.append_nil _).symm,
      Expression.bindings_expansion expandedHere tells fun _ _ => rfl, ?_⟩
    rw [← (Part.literals after).append_nil]
    exact Part.bindingsFrom_literals _ hints after [] _
  obtain ⟨merged, kept, same⟩ := Bindings.ofList_of_nodup (Environment.nodup_bindings distinct)
  exact ⟨merged, match?_eq_some_iff.mpr ⟨_, _, captured, bound, rfl, kept⟩,
    Bindings.entries_values same⟩

/-- A truncated text, a list with an empty item, and a map with an empty item, exploded. -/
theorem match_expansion_parameters :
    ∃ found, Template.match?
      ⟨[.literal ⟨['p'], rfl⟩, .expression ⟨.parameter, [⟨['t'], .truncated 2, rfl, rfl⟩,
        ⟨['l'], .exploded, rfl, rfl⟩, ⟨['m'], .exploded, rfl, rfl⟩], by simp⟩,
        .literal ⟨['/'], rfl⟩]⟩ { required := [['t']], lists := [['l']], maps := [['m']] }
      ['p', ';', 't', '=', 'x', '%', 'C', '3', '%', 'A', '9', ';', 'l', '=', 'a', ';', 'l', ';',
        'k', '/'] = .ok (some found) ∧
      found.bindings.values.entries = [(['t'], .text ['x', 'é']), (['l'], .list [['a'], []]),
        (['m'], .map ⟨[(['k'], [])], by simp⟩)] := by
  let t : Variable := ⟨['t'], .truncated 2, rfl, rfl⟩
  let l : Variable := ⟨['l'], .exploded, rfl, rfl⟩
  let m : Variable := ⟨['m'], .exploded, rfl, rfl⟩
  let expression : Expression := ⟨.parameter, [t, l, m], by simp⟩
  let template : Template :=
    ⟨Part.literals [⟨['p'], rfl⟩] ++ .expression expression :: Part.literals [⟨['/'], rfl⟩]⟩
  let hints : Hints := { required := [['t']], lists := [['l']], maps := [['m']] }
  let environment : Environment := ⟨[(['t'], .text ['x', 'é', 'y']), (['l'], .list [['a'], []]),
    (['m'], .map ⟨[(['k'], [])], by simp⟩)], by decide⟩
  have occurs : ∀ v ∈ expression.occurrences, v = t ∨ v = l ∨ v = m := by
    simp [expression]
  have tells : ∀ v ∈ expression.occurrences, hints.Tells v (environment.value v.name) := by
    intro v member
    rcases occurs v member with rfl | rfl | rfl
    · exact ⟨nofun, nofun, fun _ _ => by decide, fun _ => by decide, nofun,
        fun _ => ⟨by decide, rfl⟩⟩
    · exact ⟨fun _ _ => by decide, nofun, nofun, nofun, fun _ => by decide,
        fun hinted => absurd hinted (by decide)⟩
    · exact ⟨nofun, fun _ _ => by decide, nofun, nofun, fun _ => by decide,
        fun hinted => absurd hinted (by decide)⟩
  have exploded : ∀ v ∈ expression.occurrences, v.isExploded = true → v.name ∈ hints.maps →
      v = m := by
    intro v member _ hinted
    rcases occurs v member with rfl | rfl | rfl
    · exact absurd hinted (by decide)
    · exact absurd hinted (by decide)
    · rfl
  have entries : expression.TellsEntries hints environment := by
    refine ⟨fun v member apart hinted => ?_, fun v member apart hinted map same => ?_⟩
    · rw [exploded v member apart hinted]
      rfl
    · obtain rfl := exploded v member apart hinted
      cases same
      decide
  have expanded : template.expand environment = .ok ['p', ';', 't', '=', 'x', '%', 'C', '3', '%',
      'A', '9', ';', 'l', '=', 'a', ';', 'l', ';', 'k', '/'] := by decide +kernel
  obtain ⟨bindings, matched, values⟩ :=
    match_expansion rfl rfl (by decide) tells entries expanded
  exact ⟨⟨template, bindings⟩, matched, values⟩

end Template

end UriTemplates
