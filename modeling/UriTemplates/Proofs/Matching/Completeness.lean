import UriTemplates.OneShot
import UriTemplates.Proofs.Matching.FirstReading
import UriTemplates.Proofs.Matching.Retrieval

/-!
# Matching what was expanded

An expansion is always in the language of its template, but the first reading of it need not be
the one that it was expanded by. Without hints it still gives bindings to every expression of a
template that keeps its names apart (`Template.IsPlain.exists_bindings`), and bindings can only
contradict each other where a name occurs twice (`Template.ofCaptures_of_bindings`). So matching an
expansion has three outcomes (`OneShot.isMatch_expansion`), and the two in which it does not match
do occur (`OneShot.isMatch_expansion_refused`).
-/

namespace UriTemplates

open Captures (textsAt)

namespace Template

/-- The expressions of a template in order. -/
def expressions (template : Template) : List Expression :=
  template.parts.filterMap Part.expression?

/-- The expressions of a template are those among its parts. -/
theorem mem_expressions {template : Template} {expression : Expression} :
    expression ∈ template.expressions ↔ Part.expression expression ∈ template.parts := by
  rw [expressions, List.mem_filterMap]
  constructor
  · rintro ⟨part | part, member, known⟩
    · cases known
    · cases known
      exact member
  · exact fun member => ⟨_, member, rfl⟩

variable {template : Template} {environment : Environment} {expansion : Text}

/-- The first reading of an expansion, by the patterns of the parts. -/
theorem exists_whole?_of_expand (expanded : template.expand environment = .ok expansion) :
    ∃ patterns marks, Part.patterns 0 {} template.parts = .ok patterns ∧
      (Pattern.seq patterns).readings.whole? expansion = some marks ∧
      template.match? {} expansion = template.ofCaptures {} (some marks) := by
  obtain ⟨captures, captured⟩ : ∃ captures, template.capture {} expansion = .ok (some captures) :=
    exists_capture expanded fun v _ => Hints.fits_none v _
  obtain ⟨pattern, built, read⟩ := bind_eq_ok_iff.mp captured
  obtain ⟨patterns, each, rfl⟩ := pattern_eq_ok_iff.mp built
  have first := (captures?_pattern built expansion).symm.trans read
  refine ⟨patterns, captures, each, Except.ok.inj first, ?_⟩
  simp only [match?, built, bind, Except.bind, matchWith, read]

/-- Whether the first reading of an expansion is sure to give bindings. -/
structure IsPlain (template : Template) : Prop where
  /-- No expression explodes a variable whose items it encodes. -/
  flat : ∀ expression ∈ template.expressions, expression.IsFlat
  /-- The names that an expression writes are distinct. -/
  distinct : ∀ expression ∈ template.expressions, expression.operator.isNamed = true →
    (expression.occurrences.map Variable.name).Nodup
  /-- An expression that writes names is the only expression, or it writes ampersands between them,
  and no other expression may write ampersands. -/
  apart : ∀ expression ∈ template.expressions, expression.operator.isNamed = true →
    template.expressions = [expression] ∨ expression.operator.separator = '&' ∧
      ∀ other ∈ template.expressions.erase expression,
        other.operator.mayWriteAmpersands = false

variable {before after : List Part} {expression : Expression} {patterns : List (Pattern Site)}
  {marks : List (Site × Option Text)}

/-- **The first reading gives bindings** to the only expression, if it is flat and writes distinct
names. -/
theorem exists_bindings_alone (parts : template.parts = before ++ .expression expression :: after)
    (alone : template.expressions = [expression]) (named : expression.operator.isNamed = true)
    (flat : expression.IsFlat) (distinct : (expression.occurrences.map Variable.name).Nodup)
    (expanded : template.expand environment = .ok expansion)
    (built : Part.patterns 0 {} template.parts = .ok patterns)
    (read : (Pattern.seq patterns).readings.whole? expansion = some marks) :
    ∃ bindings, expression.bindings before.length
      (Captures.evidence marks before.length) {} = .ok (some bindings) := by
  have around : before.filterMap Part.expression? = [] ∧ after.filterMap Part.expression? = [] := by
    rw [expressions, parts, List.filterMap_append, List.filterMap_cons] at alone
    have lengths := congrArg List.length alone
    simp only [Part.expression?, List.length_append, List.length_cons, List.length_nil] at lengths
    exact ⟨List.eq_nil_of_length_eq_zero (by omega), List.eq_nil_of_length_eq_zero (by omega)⟩
  obtain ⟨literalsBefore, rfl⟩ := Part.exists_literals around.1
  obtain ⟨literalsAfter, rfl⟩ := Part.exists_literals around.2
  obtain ⟨text, expandedHere, rfl⟩ := exists_expand_between parts expanded
  have fits : ∀ v ∈ expression.occurrences, Expression.contradiction? {} v = none := fun v _ =>
    (Hints.fits_none v (environment.value v.name)).contradiction?_eq_none
  rw [parts] at built
  obtain rfl := Except.ok.inj ((Part.patterns_between _ _ fits).symm.trans built)
  rw [Pattern.whole?_between] at read
  have length : (Part.literals literalsBefore).length = literalsBefore.length := List.length_map _
  rw [length]
  exact Expression.exists_bindings_alone named flat distinct expandedHere read fun _ _ => rfl

/-- Expansions of parts without a query have as many ampersands and question marks as their literal
texts. -/
theorem count_of_expand {parts : List Part} {texts : List Text} {c : Char}
    (quiet : ∀ expression, Part.expression expression ∈ parts →
      expression.operator.mayWriteAmpersands = false) (mark : isQueryMark c = true)
    (expanded : parts.mapM (Part.expand environment) = .ok texts) :
    texts.flatten.count c = (parts.flatMap Part.literalText).count c := by
  obtain ⟨patterns, marks, built, derived⟩ : ∃ patterns marks,
      Part.patterns 0 {} parts = .ok patterns ∧
        (Pattern.seq patterns).readings.Derives texts.flatten marks :=
    Part.exists_derives_expansions expanded fun v _ => Hints.fits_none v _
  exact Part.count_of_derives quiet mark built derived

/-- **The first reading gives bindings** to a flat query with distinct names, if no other expression
may write ampersands. -/
theorem exists_bindings_query (parts : template.parts = before ++ .expression expression :: after)
    (quiet : ∀ other, Part.expression other ∈ before ++ after →
      other.operator.mayWriteAmpersands = false)
    (ampersand : expression.operator.separator = '&') (flat : expression.IsFlat)
    (distinct : (expression.occurrences.map Variable.name).Nodup)
    (expanded : template.expand environment = .ok expansion)
    (built : Part.patterns 0 {} template.parts = .ok patterns)
    (read : (Pattern.seq patterns).readings.whole? expansion = some marks) :
    ∃ bindings, expression.bindings before.length
      (Captures.evidence marks before.length) {} = .ok (some bindings) := by
  obtain ⟨quietBefore, quietAfter⟩ : (∀ other, Part.expression other ∈ before →
      other.operator.mayWriteAmpersands = false) ∧ ∀ other, Part.expression other ∈ after →
        other.operator.mayWriteAmpersands = false :=
    ⟨fun other member => quiet other (List.mem_append_left _ member),
      fun other member => quiet other (List.mem_append_right _ member)⟩
  obtain ⟨texts, each, rfl⟩ := expand_eq_ok_iff.mp expanded
  rw [parts, List.mapM_append, List.mapM_cons] at each
  obtain ⟨textsBefore, expandedBefore, following⟩ := bind_eq_ok_iff.mp each
  obtain ⟨_, last, put⟩ := bind_eq_ok_iff.mp following
  obtain ⟨text, expandedHere, final⟩ := bind_eq_ok_iff.mp last
  obtain ⟨textsAfter, expandedAfter, putLast⟩ := bind_eq_ok_iff.mp final
  cases putLast
  cases put
  rw [parts] at built
  obtain ⟨patternsBefore, pattern, patternsAfter, front, span, back, marksBefore, marksHere,
    marksAfter, builtBefore, builtHere, builtAfter, same, derivedBefore, readHere, derivedAfter,
    shown⟩ := exists_whole?_of_append built read fun _ _ => rfl
  obtain ⟨-, rfl⟩ := Expression.pattern_eq_ok_iff.mp builtHere
  rw [Nat.zero_add] at readHere shown
  have counts : ∀ c, isQueryMark c = true →
      front.count c = textsBefore.flatten.count c ∧ back.count c = textsAfter.flatten.count c := by
    intro c mark
    rw [count_of_expand quietBefore mark expandedBefore,
      count_of_expand quietAfter mark expandedAfter]
    exact ⟨Part.count_of_derives quietBefore mark builtBefore derivedBefore,
      Part.count_of_derives quietAfter mark builtAfter derivedAfter⟩
  have whole : front ++ (span ++ back) =
      textsBefore.flatten ++ (text ++ textsAfter.flatten) := by
    rw [← same]
    simp
  exact Expression.exists_bindings_query ampersand flat distinct expandedHere whole counts
    readHere shown

/-- **The first reading of a plain template's expansion** gives bindings to every expression. -/
theorem IsPlain.exists_bindings (plain : template.IsPlain)
    (parts : template.parts = before ++ .expression expression :: after)
    (expanded : template.expand environment = .ok expansion)
    (built : Part.patterns 0 {} template.parts = .ok patterns)
    (read : (Pattern.seq patterns).readings.whole? expansion = some marks) :
    ∃ bindings, expression.bindings before.length
      (Captures.evidence marks before.length) {} = .ok (some bindings) := by
  have member : expression ∈ template.expressions :=
    mem_expressions.mpr (parts ▸ List.mem_append_right _ List.mem_cons_self)
  have flat := plain.flat _ member
  cases named : expression.operator.isNamed with
  | false =>
    rw [parts] at built
    obtain ⟨_, pattern, _, _, span, _, _, marksHere, _, -, builtHere, -, -, -, readHere, -,
      shown⟩ := exists_whole?_of_append built read fun _ _ => rfl
    obtain ⟨-, rfl⟩ := Expression.pattern_eq_ok_iff.mp builtHere
    rw [Nat.zero_add] at readHere shown
    exact Expression.exists_bindings_unnamed named flat readHere shown
  | true =>
    have distinct := plain.distinct _ member named
    rcases plain.apart _ member named with alone | ⟨ampersand, others⟩
    · exact exists_bindings_alone parts alone named flat distinct expanded built read
    · have around : (template.expressions.erase expression).Perm
          ((before ++ after).filterMap Part.expression?) := by
        rw [expressions, parts, List.filterMap_append, List.filterMap_append]
        have moved : (before.filterMap Part.expression? ++
            expression :: after.filterMap Part.expression?).Perm
            (expression :: (before.filterMap Part.expression? ++
              after.filterMap Part.expression?)) := List.perm_middle
        have erased := moved.erase expression
        rwa [List.erase_cons_head] at erased
      refine exists_bindings_query parts (fun other found => others other ?_) ampersand flat
        distinct expanded built read
      exact around.mem_iff.mpr (List.mem_filterMap.mpr ⟨_, found, rfl⟩)

/-- **Matching an expansion** without hints gives a match, or none, or bindings that contradict
each other; and the template tells which of these can be. -/
theorem match?_of_expand (expanded : template.expand environment = .ok expansion) :
    (∃ found, template.match? {} expansion = .ok (some found)) ∨
      (template.match? {} expansion = .ok none ∧ ¬template.IsPlain) ∨
      ∃ name, template.match? {} expansion = .error (.inconsistentBinding name) ∧
        2 ≤ (template.occurrences.map Variable.name).count name := by
  obtain ⟨patterns, marks, built, read, matched⟩ := exists_whole?_of_expand expanded
  obtain ⟨result, bound, inOrder, isSome⟩ :=
    exists_bindingsFrom built (Readings.derives_of_whole? read) fun _ _ => rfl
  rw [matched]
  cases result with
  | some bindings =>
    exact (ofCaptures_of_bindings bound (inOrder bindings rfl)).imp_right .inr
  | none =>
    refine .inr (.inl ⟨by rw [ofCaptures, bound]; rfl, fun plain => ?_⟩)
    have given := isSome fun before expression after parts => by
      rw [Nat.zero_add]
      exact plain.exists_bindings parts expanded built read
    cases given

end Template

namespace OneShot

open Template

/-- **Whether an expansion matches its template.** It matches; or its first reading stems from no
expansion, which does not happen to plain templates; or its first reading gives different values to
a variable that occurs twice. -/
theorem isMatch_expansion {text expansion : Text} {template : Template}
    {pairs : List (Datum × Datum)} (parsed : Template.parse text = .ok template)
    (expanded : template.expandData pairs = .ok expansion) :
    isMatch expansion text = .ok true ∨
      (isMatch expansion text = .ok false ∧ ¬template.IsPlain) ∨
      ∃ name, isMatch expansion text = .error (.inconsistentBinding name) ∧
        2 ≤ (template.occurrences.map Variable.name).count name := by
  obtain ⟨environment, -, expandedHere⟩ := bind_eq_ok_iff.mp expanded
  have told : isMatch expansion text = (template.match? {} expansion).map Option.isSome := by
    simp only [isMatch, parsed, bind, Except.bind]
    cases template.match? {} expansion <;> rfl
  rw [told]
  rcases match?_of_expand expandedHere with ⟨found, matched⟩ | ⟨none, notPlain⟩ |
    ⟨name, refused, twice⟩
  · exact .inl (by rw [matched]; rfl)
  · exact .inr (.inl ⟨by rw [none]; rfl, notPlain⟩)
  · exact .inr (.inr ⟨name, by rw [refused]; rfl, twice⟩)

/-- A value and a query after it, with distinct variables: what is expanded matches. -/
theorem isMatch_expansion_query :
    isMatch ['1', '?', 'b', '=', '2', '&', 'c', '=', '3']
      ['\x7b', 'a', '\x7d', '\x7b', '?', 'b', ',', 'c', '\x7d'] = .ok true := by
  let path : Expression := ⟨.simple, [⟨['a'], .plain, rfl, rfl⟩], by simp⟩
  let query : Expression := ⟨.query, [⟨['b'], .plain, rfl, rfl⟩, ⟨['c'], .plain, rfl, rfl⟩],
    by simp⟩
  let template : Template := ⟨[.expression path, .expression query]⟩
  have plain : template.IsPlain := by
    have each : ∀ expression ∈ template.expressions, expression = path ∨ expression = query :=
      fun expression member => List.mem_pair.mp member
    refine ⟨fun expression member _ => ?_, fun expression member named => ?_,
      fun expression member named => .inr ?_⟩
    · rcases each expression member with rfl | rfl <;> decide
    · rcases each expression member with rfl | rfl <;> decide
    · rcases each expression member with rfl | rfl
      · cases named
      · exact ⟨rfl, by decide⟩
  have parsed : Template.parse ['\x7b', 'a', '\x7d', '\x7b', '?', 'b', ',', 'c', '\x7d'] =
      .ok template := by decide +kernel
  have expanded : template.expandData [(.text ['a'], .text ['1']), (.text ['b'], .text ['2']),
      (.text ['c'], .text ['3'])] = .ok ['1', '?', 'b', '=', '2', '&', 'c', '=', '3'] := by
    decide +kernel
  rcases isMatch_expansion parsed expanded with matched | ⟨-, notPlain⟩ | ⟨name, -, twice⟩
  · exact matched
  · exact (notPlain plain).elim
  · have distinct : (template.occurrences.map Variable.name).Nodup := by decide
    have once := List.nodup_iff_count_le_one.mp distinct name
    omega

/-- **Not every expansion matches.** A variable without an explosion that an expression with names
holds twice is read as if a single occurrence were written twice; and the first of two adjacent
variables takes all the text that it can. -/
theorem isMatch_expansion_refused :
    expand ['\x7b', '?', 'x', ',', 'x', '\x7d'] [(.text ['x'], .text ['1'])] =
        .ok ['?', 'x', '=', '1', '&', 'x', '=', '1'] ∧
      isMatch ['?', 'x', '=', '1', '&', 'x', '=', '1'] ['\x7b', '?', 'x', ',', 'x', '\x7d'] =
        .ok false ∧
      expand ['\x7b', 'x', '\x7d', '\x7b', 'y', '\x7d', '/', '\x7b', 'x', '\x7d']
          [(.text ['x'], .text ['a']), (.text ['y'], .text ['b'])] = .ok ['a', 'b', '/', 'a'] ∧
      isMatch ['a', 'b', '/', 'a']
          ['\x7b', 'x', '\x7d', '\x7b', 'y', '\x7d', '/', '\x7b', 'x', '\x7d'] =
        .error (.inconsistentBinding ['x']) := by
  decide +kernel

end OneShot

end UriTemplates
