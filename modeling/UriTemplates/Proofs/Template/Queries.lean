import UriTemplates.Proofs.Expansion.Content
import UriTemplates.Proofs.Template.Determined
import UriTemplates.Proofs.Template.Pattern

/-!
# Queries among other expressions

The items of a query stand between ampersands, and few expressions write ampersands or question
marks (`Operator.mayWriteAmpersands`). What the others read holds none of them
(`Expression.notMem_of_derives`), so among such expressions the literal texts tell by counting
where a query starts and how many items it has. Then all readings of the query have items of the
same names (`Operator.map_itemName_of_append`).
-/

namespace UriTemplates

namespace Text

/-- What stands before one of several separators is determined by how many come earlier. -/
theorem append_cons_inj_of_count {c : Char} {first second rest more : Text}
    (same : first ++ c :: rest = second ++ c :: more) (counts : first.count c = second.count c) :
    first = second ∧ rest = more := by
  induction first generalizing second with
  | nil =>
    cases second with
    | nil => exact ⟨rfl, (List.cons.inj same).2⟩
    | cons d second =>
      obtain rfl : c = d := (List.cons.inj same).1
      simp at counts
  | cons d first ih =>
    cases second with
    | nil =>
      obtain rfl : d = c := (List.cons.inj same).1
      simp at counts
    | cons e second =>
      obtain ⟨rfl, later⟩ := List.cons.inj same
      obtain ⟨rfl, following⟩ := ih later (by simpa [List.count_cons] using counts)
      exact ⟨rfl, following⟩

/-- There is one separator less than there are joined items. -/
theorem count_joined {separator : Char} {items : List Text}
    (apart : ∀ item ∈ items, separator ∉ item) :
    (joined separator items).count separator = items.length - 1 := by
  cases items with
  | nil => rfl
  | cons item items =>
    obtain ⟨first, later⟩ := List.forall_mem_cons.mp apart
    rw [joined_cons_eq, List.count_append, List.count_eq_zero_of_not_mem first, ← List.flatMap_def,
      count_eq_length_iff.mpr later, List.length_cons]
    omega

end Text

/-- What stands before the equals sign of an item, if there is one. -/
def itemName (item : Text) : Text :=
  item.takeWhile (· != '=')

/-- The name of an item with an equals sign does not depend on what follows. -/
theorem itemName_append {item : Text} (named : '=' ∈ item) (after : Text) :
    itemName (item ++ after) = itemName item := by
  rw [itemName, List.takeWhile_append, if_neg]
  · rfl
  · intro all
    have kept : ∀ c ∈ item.takeWhile (· != '='), (c != '=') = true :=
      List.all_eq_true.mp List.all_takeWhile
    rw [(List.takeWhile_prefix (· != '=')).eq_of_length all] at kept
    exact absurd (kept '=' named) (by decide)

/-- What a character of a query is that stands between its items or before them. -/
def isQueryMark (c : Char) : Bool :=
  c == '&' || c == '?'

/-- Whether a text can be an item of a query. -/
structure IsQueryItem (item : Text) : Prop where
  equals : '=' ∈ item
  apart : ∀ c, isQueryMark c = true → c ∉ item

/-- Joined items have the same names if as many of them start the same text. -/
theorem map_itemName_of_joined {items others : List Text} {back more : Text}
    (each : ∀ item ∈ items, IsQueryItem item) (eachOther : ∀ item ∈ others, IsQueryItem item)
    (lengths : items.length = others.length)
    (same : Text.joined '&' items ++ back = Text.joined '&' others ++ more) :
    items.map itemName = others.map itemName := by
  induction items generalizing others with
  | nil =>
    obtain rfl := List.eq_nil_of_length_eq_zero lengths.symm
    rfl
  | cons item items ih =>
    obtain ⟨other, others, rfl⟩ := List.exists_cons_of_length_eq_add_one lengths.symm
    obtain ⟨here, later⟩ := List.forall_mem_cons.mp each
    obtain ⟨hereOther, laterOther⟩ := List.forall_mem_cons.mp eachOther
    have lengthsLater : items.length = others.length := Nat.succ.inj lengths
    cases items with
    | nil =>
      obtain rfl := List.eq_nil_of_length_eq_zero lengthsLater.symm
      rw [Text.joined_singleton, Text.joined_singleton] at same
      rw [List.map_singleton, List.map_singleton, ← itemName_append here.equals back, same,
        itemName_append hereOther.equals]
    | cons next items =>
      obtain ⟨nextOther, others, rfl⟩ := List.exists_cons_of_length_eq_add_one lengthsLater.symm
      simp only [Text.joined_cons_cons, List.append_assoc, List.cons_append] at same
      obtain ⟨rfl, following⟩ := Text.append_cons_inj (here.apart '&' rfl)
        (hereOther.apart '&' rfl) same
      rw [List.map_cons, ih later laterOther lengthsLater following]
      rfl

namespace Operator

variable {operator : Operator} {c : Char}

/-- Whether an expression of a kind may write an ampersand or a question mark. -/
def mayWriteAmpersands (operator : Operator) : Bool :=
  operator.allowsReserved || operator.separator == '&'

/-- Where reserved characters are encoded, the marks of a query are no characters of values. -/
theorem isApart_of_isQueryMark (unreserved : operator.allowsReserved = false)
    (mark : isQueryMark c = true) : operator.IsApart c := by
  rw [isQueryMark, Bool.or_eq_true, beq_iff_eq, beq_iff_eq] at mark
  have refused : Percent.isKept operator.allowsReserved c = false := by
    rw [unreserved]
    rcases mark with rfl | rfl <;> decide
  rcases mark with rfl | rfl
  · exact ⟨refused, by decide, by decide, by decide⟩
  · exact ⟨refused, by decide, by decide, by decide⟩

/-- Names are written where ampersands separate items. -/
theorem isNamed_of_ampersand (ampersand : operator.separator = '&') :
    operator.isNamed = true := by
  revert ampersand
  cases operator <;> decide

/-- A query or its continuation writes a character of its own before its items. -/
theorem exists_first_of_ampersand (ampersand : operator.separator = '&') :
    ∃ c, isQueryMark c = true ∧ operator.first = [c] := by
  cases operator with
  | query => exact ⟨'?', rfl, rfl⟩
  | continuation => exact ⟨'&', rfl, rfl⟩
  | _ => exact absurd ampersand (by decide)

/-- An operator that writes no ampersands does not start with the mark of a query or separate by it.
-/
theorem notMem_first (quiet : operator.mayWriteAmpersands = false) (mark : isQueryMark c = true) :
    c ∉ operator.first ∧ c ≠ operator.separator := by
  rw [isQueryMark, Bool.or_eq_true, beq_iff_eq, beq_iff_eq] at mark
  rcases mark with rfl | rfl <;> revert quiet <;> cases operator <;> decide

/-- Without ampersands of the operator, contributions are put together without marks of a query. -/
theorem notMem_assemble (quiet : operator.mayWriteAmpersands = false)
    (mark : isQueryMark c = true) {items : List Text} (each : ∀ item ∈ items, c ∉ item) :
    c ∉ operator.assemble items := by
  obtain ⟨notFirst, other⟩ := notMem_first quiet mark
  unfold assemble
  split
  · exact List.not_mem_nil
  · rw [List.mem_append, not_or]
    exact ⟨notFirst, Text.notMem_joined other each⟩

/-- **The names of the items of a query** are determined by the text around it, if it is known how
many ampersands and question marks stand before and after the query. -/
theorem map_itemName_of_append (ampersand : operator.separator = '&') {items others : List Text}
    (each : ∀ item ∈ items, IsQueryItem item) (eachOther : ∀ item ∈ others, IsQueryItem item)
    {front other back more : Text}
    (counts : ∀ c, isQueryMark c = true →
      front.count c = other.count c ∧ back.count c = more.count c)
    (same : front ++ (operator.assemble items ++ back) =
      other ++ (operator.assemble others ++ more)) :
    items.map itemName = others.map itemName := by
  have inside : ∀ c, isQueryMark c = true →
      (operator.assemble items).count c = (operator.assemble others).count c := by
    intro c mark
    have total := congrArg (List.count c) same
    simp only [List.count_append] at total
    obtain ⟨before, after⟩ := counts c mark
    omega
  obtain ⟨c, mark, first⟩ := exists_first_of_ampersand ampersand
  have started : ∀ {items : List Text}, items ≠ [] →
      operator.assemble items = c :: Text.joined '&' items := by
    intro items nonempty
    simp [assemble, nonempty, first, ampersand]
  have empty : operator.assemble [] = [] := rfl
  by_cases none : items = []
  · by_cases noneOther : others = []
    · rw [none, noneOther]
    · have counted := inside c mark
      rw [none, empty, started noneOther] at counted
      simp at counted
  · by_cases noneOther : others = []
    · have counted := inside c mark
      rw [noneOther, empty, started none] at counted
      simp at counted
    · rw [started none, started noneOther] at same
      obtain ⟨-, following⟩ := Text.append_cons_inj_of_count same (counts c mark).1
      have ampersands := inside '&' rfl
      rw [started none, started noneOther, List.count_cons, List.count_cons,
        Text.count_joined fun item member => (each item member).apart '&' rfl,
        Text.count_joined fun item member => (eachOther item member).apart '&' rfl] at ampersands
      have some_ := List.length_pos_of_ne_nil none
      have someOther := List.length_pos_of_ne_nil noneOther
      exact map_itemName_of_joined each eachOther (by omega) following

end Operator

namespace Field

variable {field : Field} {content : Content} {c : Char}

/-- What a field writes does not hold a character that is apart from its values and is not its
separator. -/
theorem notMem_written (apart : field.operator.IsApart c) (other : c ≠ field.operator.separator)
    (admitted : field.Admits content) : c ∉ field.written content :=
  Text.notMem_joined other (notMem_item apart admitted)

/-- What a field of a query writes as one item is an item of a query. -/
theorem isQueryItem_written (ampersand : field.operator.separator = '&')
    (whole : field.occurrence.isExploded = false) (admitted : field.Admits content) :
    IsQueryItem (field.written content) := by
  have named := Operator.isNamed_of_ampersand ampersand
  have other : field.operator ≠ .parameter := by
    intro parameter
    rw [parameter] at ampersand
    cases ampersand
  refine ⟨?_, fun c mark => ?_⟩
  · rw [written_of_whole whole, withName_of_query named other]
    simp
  · have item : field.items content = [field.written content] := by
      rw [items_of_whole whole, written_of_whole whole]
    refine notMem_item (Operator.isApart_of_isQueryMark
      (Operator.allowsReserved_of_named named) mark) admitted _ ?_
    rw [item]
    exact List.mem_singleton_self _

end Field

/-- What other expressions read holds no ampersand and no question mark. -/
theorem Expression.notMem_of_derives {expression : Expression} {part : Nat} {hints : Hints}
    {text : Text} {marks : List (Site × Option Text)} {c : Char}
    (quiet : expression.operator.mayWriteAmpersands = false) (mark : isQueryMark c = true)
    (derived : (patternOf expression.operator (expression.fields part hints)).readings.Derives text
      marks) : c ∉ text := by
  have each := expression.isOf_fields part hints
  have nonempty := expression.fields_ne_nil part hints
  have unreserved : expression.operator.allowsReserved = false := (Bool.or_eq_false_iff.mp quiet).1
  have written : ∀ field ∈ expression.fields part hints, ∀ content, field.Admits content →
      c ∉ field.written content := by
    intro field member content admitted
    have operator := (each field member).operator_eq
    rw [← operator] at quiet unreserved
    exact Field.notMem_written (Operator.isApart_of_isQueryMark unreserved mark)
      (Operator.notMem_first quiet mark).2 admitted
  cases named : expression.operator.isNamed with
  | false =>
    obtain ⟨selection, isOf, rfl, -⟩ := exists_selection_of_derives named each nonempty derived
    refine Operator.notMem_assemble quiet mark fun item member => ?_
    obtain ⟨⟨field, content⟩, found, contributed⟩ := List.mem_filterMap.mp member
    obtain ⟨content, rfl, rfl⟩ := Option.map_eq_some_iff.mp contributed
    exact written field (isOf.mem_fields found) content (isOf.admits _ found content rfl)
  | true =>
    obtain ⟨steps, known, rfl, -⟩ := (derives_patternOf_named named each).mp derived
    refine Operator.notMem_assemble quiet mark fun item member => ?_
    obtain ⟨step, found, rfl⟩ := List.mem_map.mp member
    exact written step.1 (known step found).1 step.2 (known step found).2.1

namespace Part

/-- The text of a literal part. -/
def literalText : Part → Text
  | .literal part => part.text
  | .expression _ => []

/-- **The literal texts tell how many ampersands and question marks** parts without a query have
read. -/
theorem count_of_derives {parts : List Part} {index : Nat} {hints : Hints}
    {patterns : List (Pattern Site)} {text : Text} {marks : List (Site × Option Text)} {c : Char}
    (quiet : ∀ expression, Part.expression expression ∈ parts →
      expression.operator.mayWriteAmpersands = false) (mark : isQueryMark c = true)
    (built : Part.patterns index hints parts = .ok patterns)
    (derived : (Pattern.seq patterns).readings.Derives text marks) :
    text.count c = (parts.flatMap literalText).count c := by
  induction parts generalizing index patterns text marks with
  | nil =>
    cases built
    rw [(Pattern.derives_seq_nil.mp derived).1]
    rfl
  | cons part parts ih =>
    obtain ⟨first, rest, rfl, here, later⟩ := Part.patterns_cons.mp built
    obtain ⟨front, back, before, after, rfl, -, derivedHere, derivedLater⟩ :=
      Pattern.derives_seq_cons.mp derived
    have following := ih (fun expression member => quiet expression (List.mem_cons_of_mem _ member))
      later derivedLater
    rw [List.count_append, List.flatMap_cons, List.count_append, following]
    congr 1
    cases part with
    | literal part =>
      cases here
      rw [(Pattern.derives_literal.mp derivedHere).2]
      rfl
    | expression part =>
      obtain ⟨-, rfl⟩ := Expression.pattern_eq_ok_iff.mp here
      exact List.count_eq_zero_of_not_mem (Expression.notMem_of_derives
        (quiet part List.mem_cons_self) mark derivedHere)

end Part

end UriTemplates
