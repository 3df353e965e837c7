import UriTemplates.Proofs.Pattern.Derivation
import UriTemplates.Proofs.Text.Fields

/-!
# The first reading of joined items

What the first way to read a text records, where it is known how the text is divided
(`Readings.whole?_append`). A greedy repetition whose elements never read the separator takes
joined items one by one, and each item is read as it is alone (`Pattern.whole?_elements`).
-/

namespace UriTemplates

namespace Readings

variable {β : Type}

/-- Where only one beginning of a text can be continued to the end, both parts are read as they
are alone. -/
theorem whole?_append {first second : Readings β} (isLocal : first.IsLocal) {span after : Text}
    (only : ∀ reading ∈ first (span ++ after), (second.whole? reading.rest).isSome = true →
      reading.rest = after) :
    (first.andThen second).whole? (span ++ after) =
      (first.whole? span).bind fun before => (second.whole? after).map (before ++ ·) := by
  rw [whole?_andThen]
  cases ended : second.whole? after with
  | none =>
    simp only [Option.map_none, Option.bind_fun_none]
    rw [List.findSome?_eq_none_iff]
    intro reading member
    have stuck : second.whole? reading.rest = none := by
      rw [← Option.not_isSome_iff_eq_none]
      intro continued
      rw [only reading member continued, ended] at continued
      cases continued
    rw [stuck, Option.map_none]
  | some later =>
    have each : ∀ reading ∈ first (span ++ after),
        (second.whole? reading.rest).map (reading.marks ++ ·) =
          (if reading.rest = after then some reading.marks else none).map (· ++ later) := by
      intro reading member
      by_cases same : reading.rest = after
      · simp [same, ended]
      · have stuck : second.whole? reading.rest = none := by
          rw [← Option.not_isSome_iff_eq_none]
          exact mt (only reading member) same
        simp [same, stuck]
    rw [← List.head?_filterMap, List.filterMap_congr each, List.head?_filterMap,
      ← Function.comp_def, ← List.map_findSome?, isLocal.findSome?_leaving, Option.map_eq_bind]
    rfl

end Readings

namespace Pattern

open Readings (Derives)

variable {κ : Type}

/-- The first option that reads a whole text does so. -/
theorem whole?_choice (options : List (Pattern κ)) (text : Text) :
    (choice options).readings.whole? text =
      options.findSome? fun option => option.readings.whole? text := by
  rw [readings]
  induction options with
  | nil => rfl
  | cons option options ih =>
    rw [readingsOfEither, Readings.whole?_orElse, ih, List.findSome?_cons]
    cases option.readings.whole? text <;> rfl

theorem whole?_amongst (options : List (Pattern κ)) (text : Text) :
    (amongst options).readings.whole? text =
      options.findSome? fun option => option.readings.whole? text := by
  rw [readings_amongst, whole?_choice]

/-- A greedy optional pattern reads nothing only if it cannot read the text itself. -/
theorem whole?_optional (inner : Pattern κ) (text : Text) :
    (optional inner false).readings.whole? text =
      (inner.readings.whole? text).or (if text = [] then some [] else none) := by
  rw [readings, Readings.loop_optional, Readings.perhaps, if_neg (by simp),
    Readings.whole?_orElse, Readings.whole?_stop]

/-- What an optional pattern can read, it does read. -/
theorem whole?_optional_of_whole? {inner : Pattern κ} {text : Text}
    {marks : List (κ × Option Text)} (read : inner.readings.whole? text = some marks) :
    (optional inner false).readings.whole? text = some marks := by
  rw [whole?_optional, read, Option.some_or]

/-- A literal text is read whole, and nothing is recorded. -/
theorem whole?_literal (written : Text) :
    (literal written : Pattern κ).readings.whole? written = some [] :=
  Readings.whole?_eq_of_unique (derives_literal.mpr ⟨rfl, rfl⟩) fun _ derived =>
    (derives_literal.mp derived).1

/-- What follows a literal text is read as it is alone. -/
theorem whole?_literal_andThen (written : Text) (second : Readings (κ × Option Text))
    (back : Text) :
    ((literal written : Pattern κ).readings.andThen second).whole? (written ++ back) =
      second.whole? back := by
  have isLocal := (literal written : Pattern κ).isLocal_readings
  rw [Readings.whole?_append isLocal, whole?_literal]
  · simp
  · intro reading member _
    have split := isLocal.consumed_append member
    rw [(derives_literal.mp (isLocal.derives_consumed member)).2] at split
    exact List.append_cancel_left split

/-- After a literal text in front, the other nodes read what is left. -/
theorem whole?_seq_literal (written : Text) (nodes : List (Pattern κ)) (back : Text) :
    (seq (literal written :: nodes)).readings.whole? (written ++ back) =
      (seq nodes).readings.whole? back :=
  whole?_literal_andThen written _ back

/-- A text that does not start with a literal text is not read after it. -/
theorem exists_of_isSome_whole? {written : Text} {second : Readings (κ × Option Text)}
    {text : Text}
    (read : (((literal written : Pattern κ).readings.andThen second).whole? text).isSome = true) :
    ∃ back, text = written ++ back := by
  obtain ⟨marks, first⟩ := Option.isSome_iff_exists.mp read
  obtain ⟨front, back, before, after, rfl, rfl, derived, -⟩ :=
    (Readings.derives_andThen (literal written : Pattern κ).isLocal_readings).mp
      (Readings.derives_of_whole? first)
  rw [(derives_literal.mp derived).2]
  exact ⟨back, rfl⟩

/-- A repetition takes an element and perhaps, after a separator, all of this once more. -/
theorem readings_elements (element : Pattern κ) (separator : Char) (isLazy : Bool) :
    (elements element separator isLazy false).readings =
      element.readings.andThen (((literal [separator] : Pattern κ).readings.andThen
        (elements element separator isLazy false).readings).perhaps isLazy) := by
  have repetition : (elements element separator isLazy false).readings =
      Readings.repetition element.readings (literal [separator] : Pattern κ).readings isLazy := by
    rw [elements, readings]
    exact congrArg _ (Readings.loop_star _ _)
  have consumes : (literal [separator] : Pattern κ).readings.Consumes := by
    rw [(literal [separator] : Pattern κ).isLocal_readings.consumes_iff]
    intro marks derived
    cases (derives_literal.mp derived).2
  rw [repetition]
  exact Readings.repetition_eq consumes element.isLocal_readings isLazy

/-- **The first reading of joined items** reads every item as it is read alone, provided that
an element never reads the separator. -/
theorem whole?_elements {element : Pattern κ} {separator : Char}
    (apart : ∀ text marks, Derives element.readings text marks → separator ∉ text)
    {items : List Text} (nonempty : items ≠ []) (each : ∀ item ∈ items, separator ∉ item) :
    (elements element separator false false).readings.whole? (Text.joined separator items) =
      (items.mapM element.readings.whole?).map List.flatten := by
  have isLocal := element.isLocal_readings
  -- what may follow an element: nothing, or a separator and further elements
  have following : ∀ rest, ((((literal [separator] : Pattern κ).readings.andThen
      (elements element separator false false).readings).perhaps false).whole? rest).isSome = true →
        rest = [] ∨ ∃ back, rest = separator :: back := by
    intro rest read
    rcases Readings.isSome_whole?_perhaps.mp read with ended | continued
    · exact .inl ended
    · exact .inr (exists_of_isSome_whole? continued)
  have continued : ∀ back, (((literal [separator] : Pattern κ).readings.andThen
      (elements element separator false false).readings).perhaps false).whole? (separator :: back) =
        (elements element separator false false).readings.whole? back := by
    intro back
    rw [Readings.perhaps, if_neg (by simp), Readings.whole?_orElse, Readings.whole?_stop,
      if_neg (List.cons_ne_nil _ _), Option.or_none]
    exact whole?_literal_andThen [separator] _ back
  have ended : (((literal [separator] : Pattern κ).readings.andThen
      (elements element separator false false).readings).perhaps false).whole? [] = some [] := by
    have nothing : ((literal [separator] : Pattern κ).readings.andThen
        (elements element separator false false).readings).whole? [] = none := by
      rw [← Option.not_isSome_iff_eq_none]
      intro read
      obtain ⟨back, absurd⟩ := exists_of_isSome_whole? read
      cases absurd
    rw [Readings.perhaps, if_neg (by simp), Readings.whole?_orElse, nothing, Readings.whole?_stop]
    rfl
  induction items with
  | nil => exact (nonempty rfl).elim
  | cons item items ih =>
    obtain ⟨first, later⟩ := List.forall_mem_cons.mp each
    rw [readings_elements]
    by_cases last : items = []
    · subst last
      rw [Text.joined_singleton, ← item.append_nil, Readings.whole?_append isLocal, ended]
      · cases read : element.readings.whole? item <;> simp [read]
      · intro reading member read
        apply (following _ read).resolve_right
        rintro ⟨back, same⟩
        have split := isLocal.consumed_append member
        rw [same, List.append_nil] at split
        exact first (split ▸ List.mem_append_right _ List.mem_cons_self)
    · rw [Text.joined_cons item last, Readings.whole?_append isLocal, continued, ih last later]
      · cases read : element.readings.whole? item with
        | none => simp [read]
        | some before => cases more : items.mapM element.readings.whole? <;> simp [read, more]
      · intro reading member read
        have split := isLocal.consumed_append member
        have unseparated := apart _ _ (isLocal.derives_consumed member)
        rcases following _ read with same | ⟨back, same⟩
        · rw [same, List.append_nil] at split
          rw [split] at unseparated
          exact (unseparated (List.mem_append_right _ List.mem_cons_self)).elim
        · rw [same] at split ⊢
          rw [(Text.append_cons_inj unseparated first split).2]

/-- The patterns of literal texts. -/
def literals (texts : List Text) : List (Pattern κ) :=
  texts.map literal

/-- What follows literal texts is read as it is alone. -/
theorem whole?_literals (texts : List Text) (nodes : List (Pattern κ)) (back : Text) :
    (seq (literals texts ++ nodes)).readings.whole? (texts.flatten ++ back) =
      (seq nodes).readings.whole? back := by
  induction texts with
  | nil => rfl
  | cons text texts ih =>
    rw [List.flatten_cons, List.append_assoc]
    exact (whole?_seq_literal text (literals texts ++ nodes) _).trans ih

theorem whole?_seq_nil : (seq [] : Pattern κ).readings.whole? [] = some [] :=
  Readings.whole?_stop []

/-- Literal texts one after the other read nothing but these texts. -/
theorem eq_flatten_of_literals {texts : List Text} {rest : Text}
    {marks : List (κ × Option Text)}
    (derived : (seq (literals texts) : Pattern κ).readings.Derives rest marks) :
    rest = texts.flatten := by
  induction texts generalizing rest with
  | nil => exact (derives_seq_nil.mp derived).1
  | cons text texts ih =>
    obtain ⟨back, rfl, later⟩ := derives_seq_literal.mp derived
    rw [ih later, List.flatten_cons]

/-- A pattern between literal texts reads what stands between them as it is alone. -/
theorem whole?_between (before after : List Text) (node : Pattern κ) (text : Text) :
    (seq (literals before ++ node :: literals after)).readings.whole?
        (before.flatten ++ (text ++ after.flatten)) =
      node.readings.whole? text := by
  have ended : (seq (literals after) : Pattern κ).readings.whole? after.flatten = some [] := by
    have read := whole?_literals after ([] : List (Pattern κ)) []
    rwa [List.append_nil, List.append_nil, whole?_seq_nil] at read
  have sequence : (seq (node :: literals after)).readings =
      node.readings.andThen (seq (literals after)).readings := rfl
  rw [whole?_literals, sequence, Readings.whole?_append node.isLocal_readings, ended]
  · cases node.readings.whole? text <;> simp
  · intro reading _ read
    obtain ⟨marks, first⟩ := Option.isSome_iff_exists.mp read
    exact eq_flatten_of_literals (Readings.derives_of_whole? first)

end Pattern

end UriTemplates
