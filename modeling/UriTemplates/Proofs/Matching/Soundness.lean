import UriTemplates.Proofs.Binding.Distinct
import UriTemplates.Proofs.Matching.Selection
import UriTemplates.Proofs.Template.Pattern

/-!
# Matches expand to what was matched

The values of a match expand to the URI that was matched, up to the order of the items of
expressions with names (`Template.expand_match`). This needs every captured text that is decoded
to be canonical: encoding undoes its decoding (`Template.IsCanonical`).
-/

namespace UriTemplates

open Captures (textsAt textsAt_append)

/-- Whether encoding undoes the decoding of every captured text of an expression. -/
def Expression.IsCanonical (expression : Expression) (evidence : Evidence) : Prop :=
  ∀ v ∈ expression.occurrences.zipIdx, ∀ text ∈ Binding.decodedTexts v.1 evidence v.2,
    expression.operator.encode (Percent.decode text) = text

instance (expression : Expression) (evidence : Evidence) :
    Decidable (expression.IsCanonical evidence) :=
  inferInstanceAs (Decidable (∀ v ∈ expression.occurrences.zipIdx,
    ∀ text ∈ Binding.decodedTexts v.1 evidence v.2,
      expression.operator.encode (Percent.decode text) = text))

/-- Whether all texts that are decoded in a match of a URI are canonical. -/
def Template.IsCanonical (template : Template) (hints : Hints) (uri : Text) : Prop :=
  ∀ captures, template.capture hints uri = .ok (some captures) →
    ∀ (index : Nat) (expression : Expression),
      template.parts[index]? = some (.expression expression) →
        expression.IsCanonical (captures.evidence index)

/-- Whether a part could have written two texts with the same items. -/
def Part.Rearranges : Part → Text × Text → Prop
  | .literal part, texts => texts = (part.text, part.text)
  | .expression part, texts => part.operator.Rearranges texts.1 texts.2

/-- Whether two texts are the same up to the order of the items inside each expression with
names. -/
def Template.Rearranges (template : Template) (first second : Text) : Prop :=
  ∃ spans : List (Text × Text), List.Forall₂ Part.Rearranges template.parts spans ∧
    first = (spans.map Prod.fst).flatten ∧ second = (spans.map Prod.snd).flatten

/-- Where no expression writes names, nothing can be rearranged. -/
theorem Template.Rearranges.eq_of_unnamed {template : Template} {first second : Text}
    (rearranges : template.Rearranges first second)
    (unnamed : ∀ expression, .expression expression ∈ template.parts →
      expression.operator.isNamed = false) : second = first := by
  obtain ⟨parts⟩ := template
  obtain ⟨spans, each, rfl, rfl⟩ := rearranges
  change List.Forall₂ Part.Rearranges parts spans at each
  change ∀ expression, .expression expression ∈ parts → _ at unnamed
  have same : spans.map Prod.snd = spans.map Prod.fst := by
    induction each with
    | nil => rfl
    | @cons part span parts spans here _ ih =>
      rw [List.map_cons, List.map_cons,
        ih fun expression member => unnamed expression (List.mem_cons_of_mem _ member)]
      congr 1
      cases part with
      | literal part => rw [here]
      | expression part =>
        rcases here with same | ⟨named, -⟩
        · exact same.symm
        · rw [unnamed part List.mem_cons_self] at named
          cases named
  rw [same]

namespace Expression

variable {expression : Expression} {part : Nat} {hints : Hints} {environment : Environment}
  {selection : Selection}

/-- What is found of a canonical selection expands to what the selection writes. -/
theorem expand_of_findings (isOf : selection.IsOf (expression.fields part hints))
    (possible : ∀ result ∈ selection.findings hints, result.2 ≠ .impossible)
    (canonical : ∀ chosen ∈ selection, ∀ text ∈ chosen.2.toList.flatMap Content.decoded,
      expression.operator.encode (Percent.decode text) = text)
    (agrees : ∀ result ∈ selection.findings hints,
      environment.value result.1.name = result.2.toValue) :
    expression.expand environment =
      .ok (expression.operator.assemble selection.contributions) := by
  have occurrences : expression.occurrences = selection.map fun chosen => chosen.1.occurrence := by
    rw [← map_fst_findings isOf, Selection.findings, List.map_map]
    rfl
  have contributes : ∀ chosen ∈ selection,
      expression.operator.contribution chosen.1.occurrence
        (environment.value chosen.1.occurrence.name) =
          .ok (chosen.2.map chosen.1.written) := by
    intro chosen member
    have found : (chosen.1.occurrence, _) ∈ selection.findings hints :=
      List.mem_map_of_mem member
    rw [agrees _ found]
    have operator := (expression.isOf_fields part hints _ (isOf.mem_fields member)).operator_eq
    obtain ⟨field, _ | content⟩ := chosen
    · rfl
    · have admitted := isOf.admits _ member content rfl
      obtain ⟨value, known⟩ := Field.exists_value_of_finding admitted (possible _ found)
      simp only [Option.map_some, Option.getD_some, known]
      rw [← operator]
      refine Field.contribution_of_finding admitted (fun text inside => ?_) known
      rw [operator]
      exact canonical _ member text (by simpa using inside)
  have contributions : expression.occurrences.mapM (fun v =>
      expression.operator.contribution v (environment.value v.name)) =
        .ok (selection.map fun chosen => chosen.2.map chosen.1.written) := by
    rw [mapM_eq_ok_iff, occurrences, List.forall₂_map_left_iff, List.forall₂_map_right_iff,
      List.forall₂_same]
    exact contributes
  refine expand_eq_ok_iff.mpr ⟨_, contributions, ?_⟩
  rw [List.filterMap_map]
  rfl

/-- What is found in an expression expands to what was read, up to the order of items. -/
theorem exists_findings {captures : Captures Site} {text : Text}
    {marks : List (Site × Option Text)} {bindings : List Binding}
    (derived : (patternOf expression.operator (expression.fields part hints)).readings.Derives text
      marks)
    (shown : ∀ site, site.part = part → textsAt captures site = textsAt marks site)
    (formed : expression.operator.isNamed = true → ∀ v ∈ expression.occurrences,
      v.isExploded = true → (v.name ∈ hints.lists ↔ v.name ∉ hints.maps))
    (canonical : expression.IsCanonical (captures.evidence part))
    (bound : expression.bindings part (captures.evidence part) hints = .ok (some bindings)) :
    ∃ findings : List (Variable × Binding.Finding),
      findings.map Prod.fst = expression.occurrences ∧
      bindings = findings.filterMap Binding.ofFinding? ∧
      ∀ environment : Environment,
        (∀ result ∈ findings, environment.value result.1.name = result.2.toValue) →
        ∃ expansion, expression.expand environment = .ok expansion ∧
          expression.operator.Rearranges text expansion := by
  obtain ⟨selection, isOf, shows, rearranges⟩ :=
    exists_shown_selection derived shown formed bound
  obtain ⟨possible, -, rfl⟩ := (bindings_of_shows isOf shows).mp bound
  refine ⟨selection.findings hints, map_fst_findings isOf, rfl, fun environment agrees =>
    ⟨_, expand_of_findings isOf possible ?_ agrees, rearranges⟩⟩
  intro chosen member text inside
  have among := isOf.mem_fields member
  rw [← Field.decodedTexts_of_shows (shows chosen member) (isOf.admits chosen member),
    part_of_mem_fields among] at inside
  rw [fields_eq_map] at among
  obtain ⟨v, occurs, same⟩ := List.mem_map.mp among
  rw [← same] at inside
  exact canonical v occurs text inside

end Expression

/-- What a part reads is captured at its own place in the template. -/
theorem Part.part_of_derives {part : Part} {index : Nat} {hints : Hints}
    {pattern : Pattern Site} {text : Text} {marks : List (Site × Option Text)}
    (built : part.pattern index hints = .ok pattern)
    (derived : pattern.readings.Derives text marks) : ∀ mark ∈ marks, mark.1.part = index := by
  cases part with
  | literal part =>
    cases built
    obtain ⟨rfl, -⟩ := Pattern.derives_literal.mp derived
    simp
  | expression part =>
    obtain ⟨-, rfl⟩ := Expression.pattern_eq_ok_iff.mp built
    exact Expression.part_of_derives derived

/-- What parts read is captured at their places in the template. -/
theorem Part.le_part_of_derives {parts : List Part} {index : Nat} {hints : Hints}
    {patterns : List (Pattern Site)} {text : Text} {marks : List (Site × Option Text)}
    (built : Part.patterns index hints parts = .ok patterns)
    (derived : (Pattern.seq patterns).readings.Derives text marks) :
    ∀ mark ∈ marks, index ≤ mark.1.part := by
  induction parts generalizing index patterns text marks with
  | nil =>
    cases built
    obtain ⟨rfl, rfl⟩ := Pattern.derives_seq_nil.mp derived
    simp
  | cons part parts ih =>
    obtain ⟨first, rest, rfl, here, later⟩ := Part.patterns_cons.mp built
    obtain ⟨front, back, before, after, rfl, rfl, read, readLater⟩ :=
      Pattern.derives_seq_cons.mp derived
    rw [List.forall_mem_append]
    exact ⟨fun mark member => Nat.le_of_eq (Part.part_of_derives here read mark member).symm,
      fun mark member => Nat.le_of_succ_le (ih later readLater mark member)⟩

/-- Captures that agree with two readings after one another agree at the place of the first
with the first, and beyond it with the second. -/
theorem Captures.agree_of_append {captures before after : Captures Site} {index : Nat}
    (own : ∀ mark ∈ before, mark.1.part = index) (beyond : ∀ mark ∈ after, index < mark.1.part)
    (shown : ∀ site, index ≤ site.part →
      textsAt captures site = textsAt (before ++ after) site) :
    (∀ site, site.part = index → textsAt captures site = textsAt before site) ∧
      ∀ site, index < site.part → textsAt captures site = textsAt after site := by
  constructor
  · intro site here
    have nothing : textsAt after site = [] := by
      apply Captures.textsAt_eq_nil
      intro mark member same
      have later := beyond mark member
      rw [same, here] at later
      exact Nat.lt_irrefl _ later
    rw [shown site (Nat.le_of_eq here.symm), textsAt_append, nothing, List.append_nil]
  · intro site later
    have nothing : textsAt before site = [] := by
      apply Captures.textsAt_eq_nil
      intro mark member same
      have here := own mark member
      rw [same] at here
      exact Nat.lt_irrefl _ (here ▸ later)
    rw [shown site (Nat.le_of_lt later), textsAt_append, nothing, List.nil_append]

/-- What is found in the parts of a template expands to what was read, up to the order of
items. The induction is on the parts; each sees its own captures only. -/
theorem Part.exists_findings {parts : List Part} {index : Nat} {hints : Hints}
    {patterns : List (Pattern Site)} {text : Text} {marks : List (Site × Option Text)}
    {captures : Captures Site} {bindings : List Binding}
    (built : Part.patterns index hints parts = .ok patterns)
    (derived : (Pattern.seq patterns).readings.Derives text marks)
    (shown : ∀ site, index ≤ site.part → textsAt captures site = textsAt marks site)
    (formed : ∀ expression, Part.expression expression ∈ parts →
      expression.operator.isNamed = true → ∀ v ∈ expression.occurrences, v.isExploded = true →
        (v.name ∈ hints.lists ↔ v.name ∉ hints.maps))
    (canonical : ∀ (offset : Nat) (expression : Expression),
      parts[offset]? = some (.expression expression) →
        expression.IsCanonical (captures.evidence (index + offset)))
    (bound : Template.bindingsFrom captures hints index parts = .ok (some bindings)) :
    ∃ findings : List (Variable × Binding.Finding),
      findings.map Prod.fst = parts.flatMap Part.occurrences ∧
      bindings = findings.filterMap Binding.ofFinding? ∧
      ∀ environment : Environment,
        (∀ result ∈ findings, environment.value result.1.name = result.2.toValue) →
        ∃ spans : List (Text × Text), List.Forall₂ Part.Rearranges parts spans ∧
          text = (spans.map Prod.fst).flatten ∧
          parts.mapM (Part.expand environment) = .ok (spans.map Prod.snd) := by
  induction parts generalizing index patterns text marks bindings with
  | nil =>
    cases built
    cases bound
    obtain ⟨rfl, rfl⟩ := Pattern.derives_seq_nil.mp derived
    exact ⟨[], rfl, rfl, fun _ _ => ⟨[], .nil, rfl, rfl⟩⟩
  | cons part parts ih =>
    obtain ⟨first, rest, rfl, here, later⟩ := Part.patterns_cons.mp built
    obtain ⟨front, back, before, after, rfl, rfl, read, readLater⟩ :=
      Pattern.derives_seq_cons.mp derived
    obtain ⟨shownHere, shownLater⟩ := Captures.agree_of_append (Part.part_of_derives here read)
      (Part.le_part_of_derives later readLater) shown
    have formedLater := fun expression member =>
      formed expression (List.mem_cons_of_mem part member)
    have canonicalLater : ∀ (offset : Nat) (expression : Expression),
        parts[offset]? = some (.expression expression) →
          expression.IsCanonical (captures.evidence (index + 1 + offset)) := by
      intro offset expression found
      have known := canonical (offset + 1) expression (by simpa using found)
      rwa [show index + 1 + offset = index + (offset + 1) by omega]
    cases part with
    | literal part =>
      cases here
      obtain ⟨rfl, rfl⟩ := Pattern.derives_literal.mp read
      obtain ⟨findings, occurrences, rfl, expands⟩ :=
        ih later readLater shownLater formedLater canonicalLater bound
      refine ⟨findings, occurrences, rfl, fun environment agrees => ?_⟩
      obtain ⟨spans, each, rfl, expanded⟩ := expands environment agrees
      refine ⟨(part.text, part.text) :: spans, .cons rfl each, rfl, ?_⟩
      rw [List.mapM_cons, expanded]
      rfl
    | expression part =>
      obtain ⟨-, rfl⟩ := Expression.pattern_eq_ok_iff.mp here
      obtain ⟨bindings, more, rfl, boundHere, boundLater⟩ :=
        Template.bindingsFrom_expression.mp bound
      obtain ⟨findings, occurrences, rfl, expands⟩ := Expression.exists_findings read shownHere
        (formed part List.mem_cons_self) (canonical 0 part rfl) boundHere
      obtain ⟨found, occurrencesLater, rfl, expandsLater⟩ :=
        ih later readLater shownLater formedLater canonicalLater boundLater
      refine ⟨findings ++ found, ?_, (List.filterMap_append ..).symm, fun environment agrees => ?_⟩
      · rw [List.map_append, occurrences, occurrencesLater]
        rfl
      · rw [List.forall_mem_append] at agrees
        obtain ⟨expansion, expanded, rearranges⟩ := expands environment agrees.1
        obtain ⟨spans, each, rfl, expandedLater⟩ := expandsLater environment agrees.2
        refine ⟨(front, expansion) :: spans, .cons rearranges each, rfl, ?_⟩
        rw [List.mapM_cons, expandedLater, Part.expand, expanded]
        rfl

namespace Template

variable {template : Template} {hints : Hints} {uri : Text} {found : Match}

/-- What is captured is recorded along a way in which the patterns of the parts read the URI. -/
theorem exists_derives_of_capture {captures : Captures Site}
    (captured : template.capture hints uri = .ok (some captures)) :
    ∃ patterns, Part.patterns 0 hints template.parts = .ok patterns ∧
      (Pattern.seq patterns).readings.Derives uri captures := by
  obtain ⟨pattern, built, read⟩ := bind_eq_ok_iff.mp captured
  obtain ⟨patterns, each, rfl⟩ := pattern_eq_ok_iff.mp built
  have first := (captures?_pattern built uri).symm.trans read
  exact ⟨patterns, each, Readings.derives_of_whole? (Except.ok.inj first)⟩

/-- **Matches expand to what was matched.** Where no variable occurs twice and hints say of the
exploded variables of expressions with names whether they are lists or maps, the values of a
match with canonical texts expand to the URI, up to the order of the items inside expressions
with names. -/
theorem expand_match (distinct : (template.occurrences.map Variable.name).Nodup)
    (formed : ∀ expression, Part.expression expression ∈ template.parts →
      expression.operator.isNamed = true → ∀ v ∈ expression.occurrences, v.isExploded = true →
        (v.name ∈ hints.lists ↔ v.name ∉ hints.maps))
    (canonical : template.IsCanonical hints uri)
    (matched : template.match? hints uri = .ok (some found)) :
    ∃ expansion, template.expand found.bindings.values = .ok expansion ∧
      template.Rearranges uri expansion ∧
      ((∀ expression, Part.expression expression ∈ template.parts →
        expression.operator.isNamed = false) → expansion = uri) := by
  obtain ⟨captures, bindings, captured, bound, -, merged⟩ := match?_eq_some_iff.mp matched
  obtain ⟨patterns, built, derived⟩ := exists_derives_of_capture captured
  have canonicalAt : ∀ (offset : Nat) (expression : Expression),
      template.parts[offset]? = some (.expression expression) →
        expression.IsCanonical (captures.evidence (0 + offset)) := by
    intro offset expression known
    rw [Nat.zero_add]
    exact canonical captures captured offset expression known
  obtain ⟨findings, occurrences, rfl, expands⟩ :=
    Part.exists_findings built derived (fun _ _ => rfl) formed canonicalAt bound
  have names : (findings.map fun result => result.1.name).Nodup := by
    rw [Template.occurrences, ← occurrences, List.map_map] at distinct
    exact distinct
  obtain ⟨kept, same, entries⟩ := Bindings.ofList_of_nodup (Binding.nodup_ofFinding? names)
  obtain rfl : kept = found.bindings := Except.ok.inj (same.symm.trans merged)
  obtain ⟨spans, each, rfl, expanded⟩ :=
    expands found.bindings.values (Bindings.value_of_findings names entries)
  have rearranges : template.Rearranges (spans.map Prod.fst).flatten (spans.map Prod.snd).flatten :=
    ⟨spans, each, rfl, rfl⟩
  refine ⟨(spans.map Prod.snd).flatten, ?_, rearranges, rearranges.eq_of_unnamed⟩
  rw [expand, expanded]
  rfl

/-- The items of a list around another parameter: they come together in the expansion. -/
theorem expand_match_parameters :
    ∃ expansion, Template.expand
      ⟨[.expression ⟨.parameter, [⟨['x'], .plain, rfl, rfl⟩, ⟨['y'], .exploded, rfl, rfl⟩],
        by simp⟩]⟩ ⟨[(['x'], .text ['2']), (['y'], .list [['1'], []])], by decide⟩ =
          .ok expansion ∧
      Rearranges
        ⟨[.expression ⟨.parameter, [⟨['x'], .plain, rfl, rfl⟩, ⟨['y'], .exploded, rfl, rfl⟩],
          by simp⟩]⟩ [';', 'y', '=', '1', ';', 'x', '=', '2', ';', 'y'] expansion := by
  let x : Variable := ⟨['x'], .plain, rfl, rfl⟩
  let y : Variable := ⟨['y'], .exploded, rfl, rfl⟩
  let template : Template := ⟨[.expression ⟨.parameter, [x, y], by simp⟩]⟩
  let hints : Hints := { lists := [['y']] }
  let uri : Text := [';', 'y', '=', '1', ';', 'x', '=', '2', ';', 'y']
  let bindings : Bindings :=
    ⟨[(['x'], ⟨x, .text ['2']⟩), (['y'], ⟨y, .list [['1'], []]⟩)], by decide⟩
  have matched : template.match? hints uri = .ok (some ⟨template, bindings⟩) := by decide +kernel
  have captured : template.capture hints uri = .ok (some
      [(⟨0, 1, .name⟩, some ['y']), (⟨0, 1, .value⟩, some ['1']), (⟨0, 0, .name⟩, some ['x']),
        (⟨0, 0, .value⟩, some ['2']), (⟨0, 1, .name⟩, some ['y']),
        (⟨0, 1, .value⟩, some [])]) := by decide +kernel
  have canonical : template.IsCanonical hints uri := by
    intro captures known index expression found
    obtain rfl := Option.some.inj (Except.ok.inj (captured.symm.trans known))
    obtain ⟨here, same⟩ := List.getElem?_eq_some_iff.mp found
    obtain rfl : index = 0 := by simpa [template] using here
    cases same
    decide +kernel
  obtain ⟨expansion, expanded, rearranges, -⟩ := expand_match (by decide)
    (by
      intro expression member _ v occurs exploded
      obtain rfl : expression = ⟨.parameter, [x, y], by simp⟩ := by simpa [template] using member
      rcases List.mem_pair.mp occurs with rfl | rfl
      · cases exploded
      · decide) canonical matched
  exact ⟨expansion, expanded, rearranges⟩

end Template

end UriTemplates
