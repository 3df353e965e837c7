import UriTemplates.Proofs.Matching.RoundTrip
import UriTemplates.Proofs.Matching.Soundness

/-!
# Retrieving what was expanded

What an expansion should record when it is read again: at every expression the contents that
its variables contributed (`Part.expectedMarks`). Where the first reading of an expansion records
just this, matching binds what the expansion keeps of the values
(`Template.match?_of_whole?`). So a round trip is a fact about the first reading of a pattern,
and for an expression between literal texts one about the pattern of the expression alone
(`Template.match?_between`).
-/

namespace UriTemplates

open Captures (textsAt)

/-- What an expression records belongs to its position in the template. -/
theorem Expression.part_of_mem_selection {expression : Expression} {part : Nat} {hints : Hints}
    {environment : Environment} :
    ∀ mark ∈ (expression.selection part hints environment).marks, mark.1.part = part := by
  intro mark member
  obtain ⟨chosen, found, inside⟩ := List.mem_flatMap.mp member
  obtain ⟨field, among, rfl⟩ := List.mem_map.mp found
  cases known : field.content? (environment.value field.occurrence.name) with
  | none => simp [known] at inside
  | some content =>
    rw [known, Option.map_some, Option.getD_some] at inside
    obtain ⟨facet, same⟩ := field.site_of_mem_marks content mark inside
    rw [same]
    exact part_of_mem_fields among

namespace Part

/-- What an expansion of parts from a position on should record when it is read again. -/
def expectedMarks (hints : Hints) (environment : Environment) (index : Nat) :
    List Part → Captures Site
  | [] => []
  | .literal _ :: parts => expectedMarks hints environment (index + 1) parts
  | .expression part :: parts =>
    (part.selection index hints environment).marks ++
      expectedMarks hints environment (index + 1) parts

/-- What parts record belongs to their positions and to none before them. -/
theorem le_part_of_mem_expectedMarks {hints : Hints} {environment : Environment} {index : Nat}
    {parts : List Part} :
    ∀ mark ∈ expectedMarks hints environment index parts, index ≤ mark.1.part := by
  induction parts generalizing index with
  | nil => simp [expectedMarks]
  | cons part parts ih =>
    have later : ∀ mark ∈ expectedMarks hints environment (index + 1) parts,
        index ≤ mark.1.part := fun mark member => Nat.le_of_succ_le (ih mark member)
    cases part with
    | literal part => exact later
    | expression part =>
      rw [expectedMarks, List.forall_mem_append]
      exact ⟨fun mark member => Nat.le_of_eq (Expression.part_of_mem_selection mark member).symm,
        later⟩

end Part

namespace Template

/-- **What is bound of the parts of a template** where their captures show what was expanded.
The induction is on the parts; each sees its own captures only. -/
theorem bindingsFrom_expectedMarks {hints : Hints} {environment : Environment} {index : Nat}
    {parts : List Part} {captures : Captures Site}
    (expanded : ∀ expression, Part.expression expression ∈ parts →
      ∃ text, expression.expand environment = .ok text)
    (tells : ∀ v ∈ parts.flatMap Part.occurrences,
      hints.TellsKept v (environment.value v.name))
    (shown : ∀ site, index ≤ site.part → textsAt captures site =
      textsAt (Part.expectedMarks hints environment index parts) site) :
    bindingsFrom captures hints index parts =
      .ok (some (environment.bindings (parts.flatMap Part.occurrences))) := by
  induction parts generalizing index with
  | nil => rfl
  | cons part parts ih =>
    rw [List.flatMap_cons, List.forall_mem_append] at tells
    have expandedLater := fun expression member =>
      expanded expression (List.mem_cons_of_mem part member)
    cases part with
    | literal part =>
      exact ih expandedLater tells.2 fun site later => shown site (Nat.le_of_succ_le later)
    | expression part =>
      obtain ⟨shownHere, shownLater⟩ := Captures.agree_of_append
        Expression.part_of_mem_selection Part.le_part_of_mem_expectedMarks shown
      obtain ⟨text, expandedHere⟩ := expanded part List.mem_cons_self
      refine bindingsFrom_expression.mpr ⟨_, _, ?_,
        Expression.bindings_of_tellsKept expandedHere tells.1 shownHere,
        ih expandedLater tells.2 shownLater⟩
      rw [List.flatMap_cons, Environment.bindings, List.filterMap_append]
      rfl

variable {template : Template} {hints : Hints} {environment : Environment} {expansion : Text}

/-- **Retrieving what was expanded.** Where the first reading of an expansion records the
contents that were expanded, matching binds what the expansion keeps of the values. -/
theorem match?_of_whole? {patterns : List (Pattern Site)} {merged : Bindings}
    (expanded : template.expand environment = .ok expansion)
    (tells : ∀ v ∈ template.occurrences, hints.TellsKept v (environment.value v.name))
    (built : Part.patterns 0 hints template.parts = .ok patterns)
    (read : (Pattern.seq patterns).readings.whole? expansion =
      some (Part.expectedMarks hints environment 0 template.parts))
    (kept : Bindings.ofList (environment.bindings template.occurrences) = .ok merged) :
    template.match? hints expansion = .ok (some ⟨template, merged⟩) := by
  have pattern := pattern_eq_ok_iff.mpr ⟨_, built, rfl⟩
  have captured : template.capture hints expansion =
      .ok (some (Part.expectedMarks hints environment 0 template.parts)) := by
    rw [capture, pattern, ← read]
    exact captures?_pattern pattern expansion
  exact match?_eq_some_iff.mpr ⟨_, _, captured,
    bindingsFrom_expectedMarks (exists_expand_iff.mp ⟨_, expanded⟩) tells fun _ _ => rfl, rfl, kept⟩

end Template

namespace Part

variable {hints : Hints} {environment : Environment} {index : Nat}

/-- Literal text in front records nothing and moves the other parts on. -/
theorem expectedMarks_literals (before : List Literal) (parts : List Part) :
    expectedMarks hints environment index (literals before ++ parts) =
      expectedMarks hints environment (index + before.length) parts := by
  induction before generalizing index with
  | nil => rfl
  | cons part before ih =>
    rw [List.length_cons, ← Nat.add_assoc, Nat.add_right_comm]
    exact ih

/-- Literal texts record nothing. -/
theorem expectedMarks_only_literals (parts : List Literal) :
    expectedMarks hints environment index (literals parts) = [] := by
  rw [← List.append_nil (literals parts), expectedMarks_literals]
  rfl

/-- Literal parts are read as literal texts. -/
theorem patterns_only_literals (parts : List Literal) :
    Part.patterns index hints (literals parts) =
      .ok (Pattern.literals (parts.map Literal.text)) := by
  rw [← List.append_nil (literals parts), ← List.append_nil (Pattern.literals _)]
  exact Part.patterns_literals rfl

theorem occurrences_literals (parts : List Literal) :
    (literals parts).flatMap Part.occurrences = [] := by
  simp [literals, Part.occurrences, List.flatMap_map]

/-- The pattern of an expression between literal texts. -/
theorem patterns_between (before after : List Literal) {expression : Expression}
    (fits : ∀ v ∈ expression.occurrences, Expression.contradiction? hints v = none) :
    Part.patterns 0 hints (literals before ++ .expression expression :: literals after) =
      .ok (Pattern.literals (before.map Literal.text) ++
        Expression.patternOf expression.operator (expression.fields before.length hints) ::
          Pattern.literals (after.map Literal.text)) := by
  refine Part.patterns_literals
    (Part.patterns_cons.mpr ⟨_, _, rfl, ?_, patterns_only_literals after⟩)
  rw [Nat.zero_add]
  exact Expression.pattern_eq_ok_iff.mpr ⟨fits, rfl⟩

end Part

namespace Template

variable {template : Template} {hints : Hints} {environment : Environment} {expansion : Text}
  {before after : List Literal} {expression : Expression}

/-- Literal text around an expression adds no variable. -/
theorem occurrences_between
    (parts : template.parts =
      Part.literals before ++ .expression expression :: Part.literals after) :
    template.occurrences = expression.occurrences := by
  rw [occurrences, parts, List.flatMap_append, List.flatMap_cons, Part.occurrences_literals,
    Part.occurrences_literals, List.nil_append, List.append_nil]
  rfl

/-- **Retrieving what one expression was expanded from.** Only the expression itself has to be
read back: literal texts around it are read as they are. -/
theorem match?_between
    (parts : template.parts = Part.literals before ++ .expression expression :: Part.literals after)
    (distinct : (expression.occurrences.map Variable.name).Nodup)
    (tells : ∀ v ∈ expression.occurrences, hints.TellsKept v (environment.value v.name))
    (expanded : template.expand environment = .ok expansion)
    (read : ∀ text, expression.expand environment = .ok text →
      (Expression.patternOf expression.operator
        (expression.fields before.length hints)).readings.whole? text =
          some (expression.selection before.length hints environment).marks) :
    ∃ bindings : Bindings,
      template.match? hints expansion = .ok (some ⟨template, bindings⟩) ∧
        bindings.values.entries = environment.restricted expression.occurrences := by
  obtain ⟨text, expandedHere, rfl⟩ := exists_expand_between parts expanded
  have occurrences := occurrences_between parts
  obtain ⟨merged, kept, same⟩ := Bindings.ofList_of_nodup (Environment.nodup_bindings distinct)
  have built := Part.patterns_between before after fun v occurs =>
    (tells v occurs).fits.contradiction?_eq_none
  refine ⟨merged, match?_of_whole? expanded (occurrences ▸ tells) (parts ▸ built) ?_
    (occurrences ▸ kept), Bindings.entries_values same⟩
  rw [Pattern.whole?_between, read text expandedHere, parts, Part.expectedMarks_literals,
    Nat.zero_add, Part.expectedMarks, Part.expectedMarks_only_literals, List.append_nil]

/-- Where the first reading of the text of an expression between literals has no bindings, there is
no match, since no other reading is tried. -/
theorem match?_between_eq_none {text : Text} {captures : Captures Site}
    (parts : template.parts = Part.literals before ++ .expression expression :: Part.literals after)
    (fits : ∀ v ∈ expression.occurrences, Expression.contradiction? hints v = none)
    (read : (Expression.patternOf expression.operator
      (expression.fields before.length hints)).readings.whole? text = some captures)
    (bound : expression.bindings before.length (captures.evidence before.length) hints =
      .ok none) :
    template.match? hints ((before.map Literal.text).flatten ++
      (text ++ (after.map Literal.text).flatten)) = .ok none := by
  have built := pattern_eq_ok_iff.mpr ⟨_, parts ▸ Part.patterns_between before after fits, rfl⟩
  rw [match?_eq_ofCaptures built, Pattern.whole?_between, read, ofCaptures, parts,
    Part.bindingsFrom_literals, Nat.zero_add, bindingsFrom, bound]
  rfl

end Template

end UriTemplates
