import UriTemplates.Proofs.Binding.Agreement
import UriTemplates.Proofs.Matching.Several

/-!
# The round trip of delimited templates

In a delimited template every expression writes a single text, and the literal text up to the
next expression starts with a character that no written text holds (`Part.IsDelimited`). So each
text is read up to where it ends (`Part.whole?_expectedMarks`). A variable may occur several
times with different truncations: as truncations of one text these agree
(`Environment.allAgree_bindings`), and a longest one is bound
(`Environment.get?_values_of_texts`). Main statement: matching an expansion gives back the
longest truncations of the texts (`Template.match_delimited`).
-/

namespace UriTemplates

/-- Whether an expression writes a single text with reserved characters percent-encoded. -/
structure Expression.WritesText (expression : Expression) : Prop where
  simple : expression.operator = .simple
  single : ∃ v, expression.occurrences = [v] ∧ v.isExploded = false

/-- Whether every expression among parts writes a single text, and the literal text after it
starts with a character that texts are not written with, unless only literal text is left. -/
inductive Part.IsDelimited : List Part → Prop
  | nil : IsDelimited []
  | literal (part : Literal) {parts : List Part} : IsDelimited parts →
    IsDelimited (.literal part :: parts)
  | last {part : Expression} (literals : List Literal) : part.WritesText →
    IsDelimited (.expression part :: Part.literals literals)
  | before {part : Expression} {delimiter : Literal} {c : Char} {text : Text}
    {parts : List Part} : part.WritesText → delimiter.text = c :: text →
    Text.isUnreserved c = false → c ≠ '%' → IsDelimited parts →
    IsDelimited (.expression part :: .literal delimiter :: parts)

namespace Expression

variable {expression : Expression} {hints : Hints} {environment : Environment}
  {text : Text}

/-- A single text is read up to where a character follows that it cannot hold. -/
theorem WritesText.isFirst (writes : expression.WritesText) (part : Nat)
    (expanded : expression.expand environment = .ok text)
    (tells : ∀ v ∈ expression.occurrences, hints.Tells v (environment.value v.name))
    (texts : ∀ v ∈ expression.occurrences, ∃ known, environment.value v.name = .text known)
    {c : Char} (refused : Percent.isKept false c = false) (notPercent : c ≠ '%')
    {able : Text → Prop} {after : Text} (stops : Text.StopsAt c able) (ended : able after) :
    (patternOf expression.operator (expression.fields part hints)).readings.IsFirst
      (text ++ after) able ⟨(expression.selection part hints environment).marks, after⟩ := by
  obtain ⟨v, single, -⟩ := writes.single
  have occurs : v ∈ expression.occurrences := by simp [single]
  obtain ⟨known, value⟩ := texts v occurs
  have told := value ▸ tells v occurs
  let field := expression.field part hints v 0
  let content : Content := .texts [field.operator.encode (v.kept known)]
  have takes : field.TakesText := takesText_field writes.simple told 0
  have content_eq : field.content? (.text known) = some content := rfl
  have admitted := Field.admits_content? rfl told.fits rfl content content_eq
  have selected : expression.selection part hints environment = [(field, some content)] := by
    rw [selection_single part hints single, value]
    rfl
  have written : text = field.operator.encode (v.kept known) := by
    rw [expression.expand_eq part hints expanded, selected, writes.simple]
    simp [Selection.contributions, Operator.assemble, Operator.first, content, takes.written_eq]
  have marks : (expression.selection part hints environment).marks = [field.mark .value text] := by
    rw [selected, written]
    simp [Selection.marks, content, takes.marks_eq]
  rw [fields_single part hints single, writes.simple, marks]
  refine Pattern.isFirst_optional (takes.isFirst ?_ refused notPercent stops ended)
  rwa [written]

end Expression

namespace Part

variable {hints : Hints} {environment : Environment}

/-- The pattern of parts that start with an expression. -/
theorem exists_of_patterns_expression {part : Expression} {parts : List Part} {index : Nat}
    {patterns : List (Pattern Site)}
    (built : Part.patterns index hints (.expression part :: parts) = .ok patterns) :
    ∃ rest, Part.patterns (index + 1) hints parts = .ok rest ∧
      patterns = Expression.patternOf part.operator (part.fields index hints) :: rest := by
  obtain ⟨_, rest, rfl, here, later⟩ := Part.patterns_cons.mp built
  obtain ⟨-, rfl⟩ := Expression.pattern_eq_ok_iff.mp here
  exact ⟨rest, later, rfl⟩

/-- **Delimited texts are read one by one.** The induction is on the parts: each text is read up
to the literal text after it, which starts with a character that the text cannot hold. -/
theorem whole?_expectedMarks {parts : List Part} (delimited : IsDelimited parts) {index : Nat}
    {patterns : List (Pattern Site)} {texts : List Text}
    (built : Part.patterns index hints parts = .ok patterns)
    (expanded : parts.mapM (Part.expand environment) = .ok texts)
    (tells : ∀ v ∈ parts.flatMap Part.occurrences, hints.Tells v (environment.value v.name))
    (values : ∀ v ∈ parts.flatMap Part.occurrences,
      ∃ known, environment.value v.name = .text known) :
    (Pattern.seq patterns).readings.whole? texts.flatten =
      some (expectedMarks hints environment index parts) := by
  induction delimited generalizing index patterns texts with
  | nil =>
    cases built
    cases expanded
    exact Pattern.whole?_seq_nil
  | literal part _ ih =>
    obtain ⟨_, rest, rfl, ⟨⟩, builtLater⟩ := Part.patterns_cons.mp built
    obtain ⟨_, later, ⟨⟩, expandedLater, rfl⟩ := mapM_cons_eq_ok_iff.mp expanded
    refine (Pattern.whole?_seq_literal part.text rest later.flatten).trans ?_
    exact ih builtLater expandedLater tells values
  | @last part literals writes =>
    rw [List.flatMap_cons, occurrences_literals, List.append_nil] at tells values
    obtain ⟨_, builtLater, rfl⟩ := exists_of_patterns_expression built
    obtain ⟨text, _, expandedHere, expandedLater, rfl⟩ := mapM_cons_eq_ok_iff.mp expanded
    cases (patterns_only_literals literals).symm.trans builtLater
    cases (mapM_expand_literals environment literals).symm.trans expandedLater
    rw [expectedMarks, expectedMarks_only_literals, List.append_nil]
    refine (Pattern.whole?_between [] (literals.map Literal.text) _ text).trans ?_
    exact Expression.whole?_texts writes.simple expandedHere tells values
  | @before part delimiter c start parts writes starts reserved notPercent _ ih =>
    rw [List.flatMap_cons, List.forall_mem_append] at tells values
    obtain ⟨_, builtLater, rfl⟩ := exists_of_patterns_expression built
    obtain ⟨_, rest, rfl, ⟨⟩, builtRest⟩ := Part.patterns_cons.mp builtLater
    obtain ⟨text, _, expandedHere, expandedLater, rfl⟩ := mapM_cons_eq_ok_iff.mp expanded
    obtain ⟨_, later, ⟨⟩, expandedRest, rfl⟩ := mapM_cons_eq_ok_iff.mp expandedLater
    have following := (Pattern.whole?_seq_literal delimiter.text rest later.flatten).trans
      (ih builtRest expandedRest tells.2 values.2)
    -- what is read after the text starts with the delimiter, so the text cannot end earlier
    have stops : Text.StopsAt c fun back =>
        ((Pattern.seq (.literal delimiter.text :: rest)).readings.whole? back).isSome = true := by
      intro back known
      obtain ⟨more, rfl⟩ := Pattern.exists_of_isSome_whole? known
      exact .inr ⟨start ++ more, by rw [starts]; rfl⟩
    have found := writes.isFirst index expandedHere tells.1 values.1
      (by simpa [Percent.isKept] using reserved) notPercent stops
      (Option.isSome_of_eq_some following)
    refine found.whole?_andThen.trans ?_
    rw [following]
    rfl

/-- No variable of delimited parts is exploded. -/
theorem IsDelimited.isExploded_eq_false {parts : List Part} (delimited : IsDelimited parts) :
    ∀ v ∈ parts.flatMap Part.occurrences, v.isExploded = false := by
  have alone : ∀ {part : Expression}, part.WritesText →
      ∀ v ∈ part.occurrences, v.isExploded = false := by
    intro part writes v occurs
    obtain ⟨only, single, whole⟩ := writes.single
    rw [single, List.mem_singleton] at occurs
    rwa [occurs]
  induction delimited with
  | nil => exact nofun
  | literal part _ ih => exact ih
  | last literals writes =>
    rw [List.flatMap_cons, occurrences_literals, List.append_nil]
    exact alone writes
  | before writes _ _ _ _ ih =>
    rw [List.flatMap_cons, List.forall_mem_append]
    exact ⟨alone writes, ih⟩

end Part

/-- A variable keeps a beginning of what one that reaches as far or further keeps. -/
theorem Variable.kept_prefix_of_le {v w : Variable} (shorter : v.reach ≤ w.reach) (text : Text) :
    v.kept text <+: w.kept text := by
  unfold reach at shorter
  unfold kept
  cases short : v.length? with
  | none =>
    cases long : w.length? with
    | none => exact List.prefix_refl text
    | some length => simp [short, long] at shorter
  | some length =>
    cases long : w.length? with
    | none => exact List.take_prefix length text
    | some further =>
      rw [short, long] at shorter
      exact List.take_prefix_take_left (by simpa using shorter)

/-- Variables that reach equally far keep the same. -/
theorem Variable.kept_eq_of_reach {v w : Variable} (equal : v.reach = w.reach) (text : Text) :
    v.kept text = w.kept text :=
  (kept_prefix_of_le equal.le text).eq_of_length_le (kept_prefix_of_le equal.ge text).length_le

namespace Environment

variable {environment : Environment} {occurrences : List Variable}

/-- What is bound of texts: what each occurrence keeps of the text of its name. -/
theorem mem_bindings_of_texts
    (texts : ∀ v ∈ occurrences, ∃ text, environment.value v.name = .text text)
    {binding : Binding} :
    binding ∈ environment.bindings occurrences ↔ binding.occurrence ∈ occurrences ∧
      ∃ text, environment.value binding.name = .text text ∧
        binding.value = .text (binding.occurrence.kept text) := by
  rw [bindings, List.mem_filterMap]
  constructor
  · rintro ⟨v, occurs, known⟩
    obtain ⟨text, value⟩ := texts v occurs
    rw [value] at known
    cases known
    exact ⟨occurs, text, value, rfl⟩
  · rintro ⟨occurs, text, value, kept⟩
    obtain ⟨v, known⟩ := binding
    refine ⟨v, occurs, ?_⟩
    rw [show environment.value v.name = .text text from value]
    exact congrArg (fun value => some (Binding.mk v value)) kept.symm

/-- Truncations of one text agree. -/
theorem allAgree_bindings
    (texts : ∀ v ∈ occurrences, ∃ text, environment.value v.name = .text text) :
    Bindings.AllAgree (environment.bindings occurrences) := by
  intro first member second memberOther named
  obtain ⟨-, text, value, known⟩ := (mem_bindings_of_texts texts).mp member
  obtain ⟨-, other, valueOther, knownOther⟩ := (mem_bindings_of_texts texts).mp memberOther
  obtain rfl : text = other := by
    rw [named, valueOther] at value
    exact (Value.text.inj value).symm
  refine ⟨fun equal => ?_, fun shorter => ?_, fun longer => ?_⟩
  · rw [known, knownOther, Variable.kept_eq_of_reach equal]
    exact Value.same_refl _
  · exact ⟨_, _, known, knownOther, Variable.kept_prefix_of_le shorter.le text⟩
  · exact ⟨_, _, knownOther, known, Variable.kept_prefix_of_le longer.le text⟩

/-- **What is bound of texts**: what an occurrence keeps that reaches furthest. -/
theorem get?_values_of_texts
    (texts : ∀ v ∈ occurrences, ∃ text, environment.value v.name = .text text)
    {merged : Bindings} (kept : Bindings.ofList (environment.bindings occurrences) = .ok merged)
    {name : Text} {value : Value} :
    merged.values.get? name = some value ↔ ∃ longest ∈ occurrences, longest.name = name ∧
      (∀ v ∈ occurrences, v.name = name → v.reach ≤ longest.reach) ∧
      ∃ text, environment.value name = .text text ∧ value = .text (longest.kept text) := by
  have represent := Bindings.represent_ofList kept
  have shown {v : Variable} {text : Text} (occurs : v ∈ occurrences)
      (known : environment.value v.name = .text text) :
      (⟨v, .text (v.kept text)⟩ : Binding) ∈ environment.bindings occurrences :=
    (mem_bindings_of_texts texts).mpr ⟨occurs, text, known, rfl⟩
  rw [Bindings.values, OrderedMap.get?_mapValues, Option.map_eq_some_iff]
  constructor
  · rintro ⟨binding, found, rfl⟩
    obtain ⟨rfl, represents⟩ := represent.present name binding found
    obtain ⟨occurs, text, known, keeps⟩ := (mem_bindings_of_texts texts).mp represents.mem
    refine ⟨binding.occurrence, occurs, rfl, fun v member named => ?_, text, known, keeps⟩
    have same := (congrArg environment.value named).trans known
    exact represents.reach_le _ (shown member same) named
  · rintro ⟨longest, occurs, rfl, furthest, text, known, rfl⟩
    have member := shown occurs known
    cases found : merged.get? longest.name with
    | none => exact (represent.absent _ found _ member rfl).elim
    | some binding =>
      obtain ⟨named, represents⟩ := represent.present _ binding found
      obtain ⟨occursToo, -⟩ := (mem_bindings_of_texts texts).mp represents.mem
      -- another occurrence may be kept, but only one that reaches as far
      have equal : binding.reach = longest.reach := le_antisymm
        (furthest binding.occurrence occursToo named) (represents.reach_le _ member named.symm)
      exact ⟨binding, rfl, Value.eq_text_of_same
        (Value.same_symm (represents.same _ member named.symm equal))⟩

end Environment

namespace Template

variable {template : Template} {environment : Environment}

/-- A template of texts expands. -/
theorem exists_expand_of_texts
    (texts : ∀ v ∈ template.occurrences, ∃ text, environment.value v.name = .text text) :
    ∃ expansion, template.expand environment = .ok expansion := by
  refine exists_expand_iff.mpr fun expression member =>
    Expression.exists_expand_iff.mpr fun v occurs => ?_
  obtain ⟨text, value⟩ := texts v (List.mem_flatMap.mpr ⟨_, member, occurs⟩)
  rw [value]
  exact ⟨_, rfl⟩

/-- **Round trip of delimited templates.** A template whose expressions write one text each, with
delimiters between them, matches each of its expansions without hints, however often names
recur. A name is bound to what an occurrence keeps that reaches furthest. -/
theorem match_delimited (delimited : Part.IsDelimited template.parts)
    (texts : ∀ v ∈ template.occurrences, ∃ text, environment.value v.name = .text text) :
    ∃ (expansion : Text) (bindings : Bindings), template.expand environment = .ok expansion ∧
      template.match? {} expansion = .ok (some ⟨template, bindings⟩) ∧
      ∀ name value, bindings.values.get? name = some value ↔
        ∃ longest ∈ template.occurrences, longest.name = name ∧
          (∀ v ∈ template.occurrences, v.name = name → v.reach ≤ longest.reach) ∧
          ∃ text, environment.value name = .text text ∧ value = .text (longest.kept text) := by
  have tells : ∀ v ∈ template.occurrences, Hints.Tells {} v (environment.value v.name) := by
    intro v occurs
    obtain ⟨text, value⟩ := texts v occurs
    rw [value]
    exact ⟨nofun, nofun, fun _ _ => ⟨nofun, nofun⟩, fun _ => ⟨nofun, nofun⟩,
      by simp [delimited.isExploded_eq_false v occurs], nofun⟩
  obtain ⟨_, expanded⟩ := exists_expand_of_texts texts
  obtain ⟨written, each, rfl⟩ := expand_eq_ok_iff.mp expanded
  obtain ⟨patterns, -, built, -⟩ : ∃ patterns marks, Part.patterns 0 {} template.parts =
      .ok patterns ∧ (Pattern.seq patterns).readings.Derives written.flatten marks :=
    Part.exists_derives_expansions each fun v occurs => (tells v occurs).fits
  have read := Part.whole?_expectedMarks delimited built each tells texts
  obtain ⟨merged, kept⟩ := Bindings.exists_ofList_of_allAgree (Environment.allAgree_bindings texts)
  refine ⟨written.flatten, merged, expanded, ?_,
    fun _ _ => Environment.get?_values_of_texts texts kept⟩
  exact match?_of_whole? expanded (fun v occurs => .of_tells (tells v occurs)) built read kept

/-- A name with several truncations around an empty text. The longest truncation is not the last
one. -/
theorem match_delimited_prefixes :
    ∃ found, Template.match?
      ⟨[.expression ⟨.simple, [⟨['v'], .truncated 1, rfl, rfl⟩], by simp⟩, .literal ⟨['/'], rfl⟩,
        .expression ⟨.simple, [⟨['v'], .truncated 2, rfl, rfl⟩], by simp⟩, .literal ⟨['/'], rfl⟩,
        .expression ⟨.simple, [⟨['w'], .plain, rfl, rfl⟩], by simp⟩, .literal ⟨['/'], rfl⟩,
        .expression ⟨.simple, [⟨['v'], .truncated 1, rfl, rfl⟩], by simp⟩]⟩ {}
      ['%', 'C', '3', '%', 'A', '9', '/', '%', 'C', '3', '%', 'A', '9', 'a', '/', '/',
        '%', 'C', '3', '%', 'A', '9'] = .ok (some found) ∧
      found.bindings.values.get? ['v'] = some (.text ['é', 'a']) ∧
      found.bindings.values.get? ['w'] = some (.text []) := by
  let once : Variable := ⟨['v'], .truncated 1, rfl, rfl⟩
  let twice : Variable := ⟨['v'], .truncated 2, rfl, rfl⟩
  let other : Variable := ⟨['w'], .plain, rfl, rfl⟩
  let writing (v : Variable) : Expression := ⟨.simple, [v], by simp⟩
  let slash : Literal := ⟨['/'], rfl⟩
  let template : Template := ⟨[.expression (writing once), .literal slash,
    .expression (writing twice), .literal slash, .expression (writing other), .literal slash,
    .expression (writing once)]⟩
  let environment : Environment := ⟨[(['v'], .text ['é', 'a', 'b']), (['w'], .text [])], by decide⟩
  have delimited : Part.IsDelimited template.parts :=
    .before ⟨rfl, once, rfl, rfl⟩ rfl (by decide) (by decide) <|
      .before ⟨rfl, twice, rfl, rfl⟩ rfl (by decide) (by decide) <|
        .before ⟨rfl, other, rfl, rfl⟩ rfl (by decide) (by decide) <|
          .last [] ⟨rfl, once, rfl, rfl⟩
  have occurs : ∀ v ∈ template.occurrences, v = once ∨ v = twice ∨ v = other ∨ v = once := by
    simp [template, occurrences, Part.occurrences, writing]
  have texts : ∀ v ∈ template.occurrences, ∃ text, environment.value v.name = .text text := by
    intro v member
    rcases occurs v member with rfl | rfl | rfl | rfl <;> exact ⟨_, rfl⟩
  have expanded : template.expand environment = .ok ['%', 'C', '3', '%', 'A', '9', '/',
      '%', 'C', '3', '%', 'A', '9', 'a', '/', '/', '%', 'C', '3', '%', 'A', '9'] := by
    decide +kernel
  obtain ⟨expansion, bindings, same, matched, values⟩ := match_delimited delimited texts
  obtain rfl := Except.ok.inj (same.symm.trans expanded)
  refine ⟨⟨template, bindings⟩, matched, (values _ _).mpr ⟨twice, ?_, rfl, ?_, _, rfl, rfl⟩,
    (values _ _).mpr ⟨other, ?_, rfl, ?_, _, rfl, rfl⟩⟩
  · decide
  · decide
  · decide
  · decide

end Template

end UriTemplates
