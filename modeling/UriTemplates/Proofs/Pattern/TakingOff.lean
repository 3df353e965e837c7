import UriTemplates.Proofs.Pattern.Peeling

/-!
# Taking an element off a repetition

What is written to take the first element off a repetition (`Pattern.peeled`) and how a text is
divided by that. Main statements: a division is found just where the expression matches, and it
leaves less than was divided, whether or not another element has to follow
(`Pattern.takesOff_firstElement?`, `Pattern.takesOff_firstOfSeveral?`). So peeling ends. Only the
separator has to read something; bars may divide it.
-/

namespace UriTemplates

/-- The last alternative of an expression that reads something reads something. -/
theorem Regex.consumes_last_alternative {regex : Regex} (nonempty : regex.isMatch [] = false) :
    (regex.alternatives.2.readings : Readings Unit).Consumes := by
  apply consumes_of_isMatch_nil
  induction regex with
  | alt first second _ ih =>
    rw [Bool.eq_false_iff, Ne, isMatch_alt, not_or] at nonempty
    exact ih (Bool.eq_false_iff.mpr nonempty.2)
  | _ => exact nonempty

namespace Pattern

open Readings

/-- What is written to take the first element off a repetition. Where another element has to
follow, no group holds the separator together. -/
def peeled (element separator : Regex) (isLazy requiresMore : Bool) : Regex :=
  let rest := separator.splice (.group (remainder element separator isLazy))
  if requiresMore then element.splice rest
  else element.andThen (.loop (.group rest) .optional isLazy)

/-- Whether divisions are found just where an expression matches, and leave less than they
divide. -/
structure TakesOff (divide? : Text → Option Division) (regex : Regex) : Prop where
  isSome_iff : ∀ text, (divide? text).isSome = true ↔ regex.isMatch text = true
  shortens : ∀ text division, divide? text = some division →
    ∀ rest ∈ division.rest, rest.length < text.length

variable {element separator : Regex} {isLazy : Bool} {head : Option Text} {division : Division}

/-- Where a repetition stops, nothing is left to peel. -/
theorem rest_of_stop {able : Prop} [Decidable able]
    (found : (if able then some (⟨head, none⟩ : Division) else none) = some division) :
    division.rest = none := by
  split at found
  · cases found
    rfl
  · cases found

/-- A remainder is all of the text that is left. -/
theorem rest_of_asRemainder? {remainder : Regex} {cursor : Cursor}
    (found : asRemainder? head remainder cursor = some division) :
    division.rest = some cursor.rest := by
  obtain ⟨reading, -, ended⟩ := Regex.exists_of_search found
  split at ended
  · rename_i nothing
    cases ended
    simp [Cursor.textTo, nothing, cursor.left_eq]
  · cases ended

/-- The last alternative of a separator leaves less to peel. -/
theorem length_rest_lt_of_search (nonempty : separator.isMatch [] = false) {remainder : Regex}
    {cursor : Cursor}
    (found : (separator.alternatives.2.search cursor fun later =>
      asRemainder? head remainder later) = some division) :
    ∀ rest ∈ division.rest, rest.length < cursor.rest.length := by
  intro rest left
  obtain ⟨reading, read, remains⟩ := Regex.exists_of_search found
  rw [rest_of_asRemainder? remains] at left
  cases left
  exact Regex.consumes_last_alternative nonempty cursor.rest reading read

/-- What remains after an element and a separator is shorter than what the element left. -/
theorem length_rest_lt_of_afterElement? (nonempty : separator.isMatch [] = false)
    {remainder : Regex} {cursor : Cursor}
    (found : afterElement? head separator remainder cursor = some division) :
    ∀ rest ∈ division.rest, rest.length < cursor.rest.length := by
  simp only [afterElement?, Option.orElse_eq_or, Option.or_eq_some_iff] at found
  rcases found with stopped | ⟨-, more⟩
  · obtain ⟨alternative, -, searched⟩ := List.exists_of_findSome?_eq_some stopped
    obtain ⟨reading, -, ended⟩ := Regex.exists_of_search searched
    simp [rest_of_stop ended]
  · exact length_rest_lt_of_search nonempty more

/-- What is searched for after an element is what is written there. -/
theorem isSome_afterElement?_iff {remainder : Regex} {cursor : Cursor} :
    (afterElement? head separator remainder cursor).isSome = true ↔
      (separator.splice (.group remainder)).isMatch cursor.rest = true := by
  induction separator with
  | alt first second _ ih =>
    rw [Regex.splice, Regex.isMatch_alt, ← ih,
      ← Regex.isSome_search_whole_iff fun _ => (⟨head, none⟩ : Division)]
    simp only [afterElement?, Regex.alternatives, List.findSome?_cons]
    cases first.search cursor _ <;> simp
  | _ =>
    rw [Regex.splice_eq_andThen rfl rfl, Regex.isMatch_andThen_iff_exists]
    refine Regex.isSome_search_iff.trans ?_
    simp only [asRemainder?, Regex.isSome_search_whole_iff]
    rfl

/-- What remains after a division is shorter than what the first element left. -/
theorem length_rest_lt_of_divisionAt? (nonempty : separator.isMatch [] = false)
    {span rest : Text} (found : divisionAt? element separator isLazy span rest = some division) :
    ∀ later ∈ division.rest, later.length < rest.length := by
  have either : division.rest = none ∨ ∀ later ∈ division.rest, later.length < rest.length := by
    simp only [divisionAt?] at found
    split at found <;> rw [Option.or_eq_some_iff] at found
    · exact found.imp rest_of_stop fun more => length_rest_lt_of_afterElement? nonempty more.2
    · exact found.symm.imp (fun stopped => rest_of_stop stopped.2)
        (length_rest_lt_of_afterElement? nonempty)
  rcases either with nothing | shorter
  · simp [nothing]
  · exact shorter

/-- **Taking an element off** divides what its expression matches, and leaves less. -/
theorem takesOff_firstElement? (nonempty : separator.isMatch [] = false) :
    TakesOff (firstElement? element separator isLazy) (peeled element separator isLazy false) where
  isSome_iff text := by
    rw [firstElement?_eq (β := Unit), List.findSome?_isSome_iff, peeled, if_neg (by simp),
      Regex.isMatch_andThen_iff_exists]
    refine exists_congr fun rest => and_congr_right fun _ => ?_
    rw [isSome_divisionAt?_iff, isSome_afterElement?_iff, Regex.isMatch_loop_optional]
    rfl
  shortens text division found := by
    rw [firstElement?_eq (β := Unit)] at found
    obtain ⟨rest, left, divided⟩ := List.exists_of_findSome?_eq_some found
    obtain ⟨marks, read⟩ := mem_ends.mp left
    have bound := element.isLocal_readings.rest_length_le read
    exact fun later peels =>
      Nat.lt_of_lt_of_le (length_rest_lt_of_divisionAt? nonempty divided later peels) bound

/-- Without bars, what is written for a required element is the element, the separator and a
remainder. -/
theorem peeled_of_undivided (undividedElement : element.isUndivided = true)
    (undivided : separator.isUndivided = true) :
    peeled element separator isLazy true =
      element.andThen (separator.splice (.group (remainder element separator isLazy))) := by
  rw [peeled, if_pos rfl, Regex.splice_eq_andThen undivided rfl]
  exact Regex.splice_eq_andThen undividedElement (Regex.isUndivided_andThen undivided rfl)

/-- A separator with a bar has two alternatives. -/
theorem exists_alt_of_divided (divided : ¬ separator.isUndivided = true) :
    ∃ first second, separator = .alt first second := by
  cases separator with
  | alt first second => exact ⟨first, second, rfl⟩
  | _ => exact (divided rfl).elim

/-- What is written directly before alternatives belongs to the first one. -/
theorem splice_alt (undivided : element.isUndivided = true) (first second : Regex) :
    element.splice (.alt first second) = .alt (element.andThen first) second := by
  cases element with
  | alt => cases undivided
  | _ => rfl

/-- Alternatives that stand by themselves leave nothing to peel if one of them is all of a text. -/
theorem findSome?_search_whole (alternatives : List Regex) (text : Text) :
    (alternatives.findSome? fun alternative =>
      alternative.search (Cursor.start text) fun ended =>
        if ended.left = 0 then some (⟨head, none⟩ : Division) else none) =
      if alternatives.any (·.isMatch text) then some ⟨head, none⟩ else none := by
  simp only [Regex.search_whole]
  induction alternatives with
  | nil => rfl
  | cons alternative alternatives ih =>
    rw [List.findSome?_cons, ih, List.any_cons]
    cases matched : alternative.isMatch text <;> simp [Cursor.start, matched]

/-- Where a bar divides the separator, its first alternative ends what the first element begins, and
the others stand by themselves. -/
theorem firstOfSeveral?_alt (first second : Regex) (text : Text) :
    firstOfSeveral? element (.alt first second) isLazy text =
      (element.search (Cursor.start text) fun cursor => first.search cursor fun ended =>
        if ended.left = 0 then some ⟨some ((Cursor.start text).textTo cursor), none⟩ else none).or
      (afterElement? none second (remainder element (.alt first second) isLazy)
        (Cursor.start text)) := by
  simp only [firstOfSeveral?, Regex.alternatives, afterElement?, findSome?_search_whole,
    Option.orElse_eq_or, Option.or_assoc]

/-- **Taking an element off that another one has to follow** divides what its expression matches,
and leaves less. -/
theorem takesOff_firstOfSeveral? (nonempty : separator.isMatch [] = false)
    (undividedElement : element.isUndivided = true) :
    TakesOff (firstOfSeveral? element separator isLazy)
      (peeled element separator isLazy true) := by
  by_cases undivided : separator.isUndivided = true
  · constructor
    · intro text
      rw [firstOfSeveral?_of_undivided undivided,
        peeled_of_undivided undividedElement undivided, Regex.isMatch_andThen_iff_exists,
        Regex.isSome_search_iff]
      simp only [isSome_afterElement?_iff]
      rfl
    · intro text division found
      rw [firstOfSeveral?_of_undivided undivided] at found
      obtain ⟨reading, read, divided⟩ := Regex.exists_of_search found
      have bound := element.isLocal_readings.rest_length_le read
      exact fun rest left =>
        Nat.lt_of_lt_of_le (length_rest_lt_of_afterElement? nonempty divided rest left) bound
  · obtain ⟨first, second, rfl⟩ := exists_alt_of_divided undivided
    constructor
    · intro text
      rw [firstOfSeveral?_alt, Option.isSome_or, Bool.or_eq_true, isSome_afterElement?_iff, peeled,
        if_pos rfl, Regex.splice, splice_alt undividedElement, Regex.isMatch_alt,
        Regex.isMatch_andThen_iff_exists, Regex.isSome_search_iff]
      simp only [Regex.isSome_search_whole_iff]
      rfl
    · intro text division found
      rw [Bool.eq_false_iff, Ne, Regex.isMatch_alt, not_or] at nonempty
      rw [firstOfSeveral?_alt, Option.or_eq_some_iff] at found
      rcases found with fromFirst | ⟨-, fromOthers⟩
      · obtain ⟨reading, -, divided⟩ := Regex.exists_of_search fromFirst
        obtain ⟨ended, -, stopped⟩ := Regex.exists_of_search divided
        simp [rest_of_stop stopped]
      · exact length_rest_lt_of_afterElement? (Bool.eq_false_iff.mpr nonempty.2) fromOthers

end Pattern

end UriTemplates
