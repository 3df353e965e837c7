import UriTemplates.Proofs.Template.Determined

/-!
# Segments that were left out

Labels and path segments each follow the symbol of their operator, and any of them may be left
out unless it is required. If just those fields are required that have a content, and no content
holds the symbol, then there are as many symbols as required fields, so no other field was
written (`Selection.IsExact.eq_of_contributions`). So the selection that was written is the only
one that is read (`Expression.whole?_segments`).
-/

namespace UriTemplates

namespace Selection

/-- Whether just the fields with a content are required. -/
def IsExact (selection : Selection) : Prop :=
  ∀ chosen ∈ selection, chosen.1.isRequired = chosen.2.isSome

/-- Whether a selection leaves out no required field. -/
def IsComplete (selection : Selection) : Prop :=
  ∀ chosen ∈ selection, chosen.1.isRequired = true → chosen.2.isSome = true

variable {fields : List Field} {selection other : Selection}

/-- A selection with just the required fields leaves out none of them. -/
theorem IsExact.isComplete (isExact : selection.IsExact) : selection.IsComplete :=
  fun chosen member required => isExact chosen member ▸ required

/-- No complete selection writes fewer texts than an exact one. -/
theorem IsExact.length_le (isExact : selection.IsExact) (isOf : selection.IsOf fields)
    (complete : other.IsComplete) (isOfOther : other.IsOf fields) :
    selection.contributions.length ≤ other.contributions.length := by
  induction fields generalizing selection other with
  | nil =>
    rw [isOf_nil_iff.mp isOf]
    exact Nat.zero_le _
  | cons field fields ih =>
    obtain ⟨content, later, rfl, -, isOfLater⟩ := isOf_cons_iff.mp isOf
    obtain ⟨known, more, rfl, -, isOfMore⟩ := isOf_cons_iff.mp isOfOther
    obtain ⟨required, exactLater⟩ := List.forall_mem_cons.mp isExact
    obtain ⟨needed, completeMore⟩ := List.forall_mem_cons.mp complete
    have shorter := ih exactLater isOfLater completeMore isOfMore
    cases content with
    | none =>
      cases known with
      | none => exact shorter
      | some known => exact Nat.le_succ_of_le shorter
    | some content =>
      cases known with
      | none => exact absurd (needed required) Bool.false_ne_true
      | some known => exact Nat.succ_le_succ shorter

/-- **An exact selection** is determined by what it writes among the complete ones. The induction
is on the fields: a content where the exact selection has none would leave too few texts for the
fields after it. -/
theorem IsExact.eq_of_contributions (isExact : selection.IsExact) (isOf : selection.IsOf fields)
    (complete : other.IsComplete) (isOfOther : other.IsOf fields)
    (determined : ∀ chosen ∈ selection, ∀ content ∈ chosen.2, ∀ known, chosen.1.Admits known →
      chosen.1.written known = chosen.1.written content → known = content)
    (same : other.contributions = selection.contributions) : other = selection := by
  induction fields generalizing selection other with
  | nil => rw [isOf_nil_iff.mp isOf, isOf_nil_iff.mp isOfOther]
  | cons field fields ih =>
    obtain ⟨content, later, rfl, -, isOfLater⟩ := isOf_cons_iff.mp isOf
    obtain ⟨known, more, rfl, admits, isOfMore⟩ := isOf_cons_iff.mp isOfOther
    obtain ⟨required, exactLater⟩ := List.forall_mem_cons.mp isExact
    obtain ⟨needed, completeMore⟩ := List.forall_mem_cons.mp complete
    obtain ⟨determinedHere, determinedLater⟩ := List.forall_mem_cons.mp determined
    have following := ih exactLater isOfLater completeMore isOfMore determinedLater
    cases content with
    | none =>
      cases known with
      | none => rw [following same]
      | some known =>
        have shorter := IsExact.length_le exactLater isOfLater completeMore isOfMore
        rw [contributions_cons_none] at same
        rw [← same, contributions_cons_some, List.length_cons] at shorter
        omega
    | some content =>
      cases known with
      | none => exact absurd (needed required) Bool.false_ne_true
      | some known =>
        obtain ⟨first, rest⟩ := List.cons.inj same
        rw [determinedHere content rfl known (admits known rfl) first, following rest]

end Selection

namespace Expression

variable {operator : Operator} {fields : List Field} {selection : Selection}

/-- **The first reading of segments** finds the selection that was written, if just the fields
are required that were written, and none of them holds the symbol of the operator. -/
theorem whole?_segments {symbol : Char} (single : operator.symbol = [symbol])
    (unnamed : operator.isNamed = false) (each : ∀ field ∈ fields, field.IsOf operator)
    (isOf : selection.IsOf fields) (isExact : selection.IsExact)
    (apart : ∀ text ∈ selection.contributions, symbol ∉ text)
    (determined : ∀ chosen ∈ selection, ∀ content ∈ chosen.2, ∀ known, chosen.1.Admits known →
      chosen.1.written known = chosen.1.written content → known = content) :
    (Pattern.seq (fields.map Field.segment)).readings.whole?
        (selection.contributions.flatMap (operator.symbol ++ ·)) = some selection.marks := by
  refine Readings.whole?_eq_of_unique ((Field.derives_segments unnamed each).mpr
    ⟨selection, isOf, isExact.isComplete, rfl, rfl⟩) fun marks derived => ?_
  obtain ⟨other, isOfOther, complete, same, rfl⟩ :=
    (Field.derives_segments unnamed each).mp derived
  rw [single] at same
  have enough := isExact.length_le isOf complete isOfOther
  have contributions := Text.eq_of_flatMap_cons enough apart same.symm
  rw [isExact.eq_of_contributions isOf complete isOfOther determined contributions]

end Expression

end UriTemplates
