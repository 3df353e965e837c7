import UriTemplates.Proofs.Template.Selection

/-!
# Items and separators

Where names are written, nothing that a field writes as one item holds the separator of the
items (`Field.separator_notMem_written`): names and values are percent-encoded, and the
characters between them are others.
-/

namespace UriTemplates

open Text

/-- A name is made of characters that stand for themselves and triplets. -/
theorem Percent.written_of_completesName {allowReserved afterChar : Bool} {text : Text}
    (completes : completesName afterChar text = true) : Percent.Written allowReserved text := by
  induction afterChar, text using completesName.induct with
  | case1 => exact .nil
  | case2 afterChar rest ih =>
    rw [completesName, Bool.and_eq_true] at completes
    exact .kept (by cases allowReserved <;> decide) (ih completes.2)
  | case3 afterChar high low rest ih =>
    simp only [completesName, Bool.and_eq_true] at completes
    exact .triplet completes.1.1 completes.1.2 (ih completes.2)
  | case4 afterChar c rest noDot noPercent ih =>
    rw [completesName, Bool.and_eq_true] at completes
    · refine .kept ?_ (ih completes.2)
      have known := completes.1
      simp only [isNameChar, Bool.or_eq_true, beq_iff_eq] at known
      simp only [Percent.isKept, isUnreserved, Bool.or_eq_true]
      rcases known with known | rfl
      · exact .inl (.inl known)
      · exact .inl (.inr (by decide))
    · exact noDot
    · exact noPercent

/-- A name is written in characters of values. -/
theorem Variable.written_name (v : Variable) (allowReserved : Bool) :
    Percent.Written allowReserved v.name :=
  Percent.written_of_completesName v.name_valid

/-- What a character is that names, values and the characters between them never hold. -/
structure Operator.IsApart (operator : Operator) (c : Char) : Prop where
  refused : Percent.isKept operator.allowsReserved c = false
  percent : c ≠ '%'
  equals : c ≠ '='
  comma : c ≠ ','

/-- Where names are written, the separator is no character of values. -/
theorem Operator.isApart_separator {operator : Operator} (named : operator.isNamed = true) :
    operator.IsApart operator.separator := by
  cases operator with
  | parameter => exact ⟨by decide, by decide, by decide, by decide⟩
  | query => exact ⟨by decide, by decide, by decide, by decide⟩
  | continuation => exact ⟨by decide, by decide, by decide, by decide⟩
  | _ => cases named

namespace Field

variable {field : Field} {content : Content} {c : Char}

/-- A text after a name holds no character that neither of them holds and that is apart. -/
theorem notMem_withName (apart : field.operator.IsApart c) {name text : Text}
    (notName : c ∉ name) (notText : c ∉ text) : c ∉ field.operator.withName name text := by
  have suffix : c ∉ field.operator.emptySuffix := by
    intro member
    apply apart.equals
    cases operator : field.operator <;> simp_all [Operator.emptySuffix]
  unfold Operator.withName
  split_ifs
  · simp [notName, suffix]
  · simp [notName, notText, apart.equals]
  · exact notText

theorem notMem_of_isWritten (apart : field.operator.IsApart c) {text : Text}
    (written : field.IsWritten text) : c ∉ text :=
  written.notMem apart.refused apart.percent

/-- A written entry does not hold a character that is apart. -/
theorem notMem_entryText (apart : field.operator.IsApart c) {entry : Text × Text}
    (key : field.IsWritten entry.1) (item : field.IsWritten entry.2) :
    c ∉ field.entryText entry := by
  have notKey := notMem_of_isWritten apart key
  have notItem := notMem_of_isWritten apart item
  rw [entryText, Operator.entryContribution]
  split_ifs
  · exact notMem_withName apart notKey notItem
  · simp [notKey, notItem, apart.equals]
  · simp [notKey, notItem, apart.comma]

/-- The values of a content do not hold a character that is apart. -/
theorem notMem_units (apart : field.operator.IsApart c) (admitted : field.Admits content) :
    ∀ unit ∈ field.units content, c ∉ unit := by
  intro unit member
  cases content with
  | texts written => exact notMem_of_isWritten apart (admitted.2.1 unit member)
  | entries written =>
    obtain ⟨entry, found, rfl⟩ := List.mem_map.mp member
    obtain ⟨key, item⟩ := admitted.2.1 entry found
    exact notMem_entryText apart key item

/-- What a field writes as one item holds none of the characters that stand apart. -/
theorem notMem_item (apart : field.operator.IsApart c) (admitted : field.Admits content) :
    ∀ item ∈ field.items content, c ∉ item := by
  have name : c ∉ field.occurrence.name :=
    notMem_of_isWritten apart (field.occurrence.written_name _)
  have units := notMem_units apart admitted
  intro item member
  cases exploded : field.occurrence.isExploded with
  | false =>
    rw [items_of_whole exploded, List.mem_singleton] at member
    rw [member]
    exact notMem_withName apart name (Text.notMem_joined apart.comma units)
  | true =>
    cases content with
    | texts written =>
      simp only [items, exploded, ↓reduceIte, List.mem_map] at member
      obtain ⟨text, found, rfl⟩ := member
      exact notMem_withName apart name (units text found)
    | entries written =>
      simp only [items, exploded, ↓reduceIte] at member
      exact units item member

/-- A content that is read as one item is written as one. -/
theorem items_of_single (admitted : field.AdmitsItem content) :
    field.items content = [field.written content] := by
  cases exploded : field.occurrence.isExploded with
  | false => rw [items_of_whole exploded, written_of_whole exploded]
  | true =>
    have single := admitted.2 exploded
    cases content with
    | texts written =>
      obtain ⟨text, rfl⟩ := List.length_eq_one_iff.mp single
      simp [Field.written, items, exploded]
    | entries written =>
      obtain ⟨entry, rfl⟩ := List.length_eq_one_iff.mp single
      simp [Field.written, items, exploded]

/-- **No item holds the separator of the items.** -/
theorem separator_notMem_written (named : field.operator.isNamed = true)
    (admitted : field.AdmitsItem content) : field.operator.separator ∉ field.written content := by
  apply notMem_item (Operator.isApart_separator named) admitted.1 _
  rw [items_of_single admitted]
  exact List.mem_singleton_self _

/-- No item of a field of an expression holds the separator of the expression. -/
theorem IsOf.separator_notMem {operator : Operator} (isOf : field.IsOf operator)
    (named : operator.isNamed = true) (admitted : field.AdmitsItem content) :
    operator.separator ∉ field.written content := by
  have same := isOf.operator_eq
  rw [← same] at named ⊢
  exact separator_notMem_written named admitted

end Field

end UriTemplates
