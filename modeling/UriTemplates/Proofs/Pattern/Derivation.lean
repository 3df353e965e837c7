import UriTemplates.Proofs.Regex.Language
import UriTemplates.Proofs.Text.Fields
import UriTemplates.Template.Language

/-!
# What patterns read

The texts that a pattern reads whole, and what is captured on the way, node by node. The
elements of a repetition are joined with its separator (`Pattern.derives_elements`).
-/

namespace UriTemplates

/-- Items that each stem from a source stem from a list of sources. -/
theorem exists_eq_map {α δ : Type} (image : α → δ) (able : α → Prop) {items : List δ}
    (each : ∀ item ∈ items, ∃ source, able source ∧ item = image source) :
    ∃ sources : List α, items = sources.map image ∧ ∀ source ∈ sources, able source := by
  induction items with
  | nil => exact ⟨[], rfl, by simp⟩
  | cons item items ih =>
    obtain ⟨⟨source, known, rfl⟩, later⟩ := List.forall_mem_cons.mp each
    obtain ⟨sources, rfl, others⟩ := ih later
    exact ⟨source :: sources, rfl, List.forall_mem_cons.mpr ⟨known, others⟩⟩

namespace Pattern

open Readings (Derives)

variable {κ : Type} {text : Text} {marks : List (κ × Option Text)}

theorem derives_plain {regex : Regex} :
    Derives (plain regex : Pattern κ).readings text marks ↔
      marks = [] ∧ regex.isMatch text = true :=
  Regex.derives_readings

theorem derives_literal {written : Text} :
    Derives (literal written : Pattern κ).readings text marks ↔ marks = [] ∧ text = written := by
  rw [literal, derives_plain, Regex.isMatch_ofText]

theorem derives_nothing :
    Derives (nothing : Pattern κ).readings text marks ↔ marks = [] ∧ text = [] := by
  rw [nothing, derives_plain, Regex.isMatch_empty]

/-- A capture records what it spans before what is captured inside of it. -/
theorem derives_capture {key : κ} {inner : Pattern κ} :
    Derives (capture key inner).readings text marks ↔
      ∃ inside, Derives inner.readings text inside ∧ marks = (key, some text) :: inside :=
  Readings.derives_marked

theorem derives_seq_nil :
    Derives (seq [] : Pattern κ).readings text marks ↔ text = [] ∧ marks = [] :=
  Readings.derives_stop

/-- A sequence reads a text whole in two parts: the first node one, the others the other. -/
theorem derives_seq_cons {node : Pattern κ} {nodes : List (Pattern κ)} :
    Derives (seq (node :: nodes)).readings text marks ↔
      ∃ front back before after, text = front ++ back ∧ marks = before ++ after ∧
        Derives node.readings front before ∧ Derives (seq nodes).readings back after :=
  Readings.derives_andThen node.isLocal_readings

theorem readings_seq_single (node : Pattern κ) : (seq [node]).readings = node.readings :=
  Readings.andThen_stop _

theorem derives_seq_single {node : Pattern κ} :
    Derives (seq [node]).readings text marks ↔ Derives node.readings text marks := by
  rw [readings_seq_single]

/-- A sequence that starts with a literal text. -/
theorem derives_seq_literal {written : Text} {nodes : List (Pattern κ)} :
    Derives (seq (literal written :: nodes)).readings text marks ↔
      ∃ back, text = written ++ back ∧ Derives (seq nodes).readings back marks := by
  simp only [derives_seq_cons, derives_literal]
  constructor
  · rintro ⟨_, back, _, _, rfl, rfl, ⟨rfl, rfl⟩, derived⟩
    exact ⟨back, rfl, derived⟩
  · rintro ⟨back, rfl, derived⟩
    exact ⟨written, back, [], marks, rfl, rfl, ⟨rfl, rfl⟩, derived⟩

/-- What a choice reads whole is what one of its options does. -/
theorem derives_choice {options : List (Pattern κ)} :
    Derives (choice options).readings text marks ↔
      ∃ option ∈ options, Derives option.readings text marks := by
  rw [readings]
  induction options with
  | nil => simp [readingsOfEither, Readings.never, Derives]
  | cons option options ih =>
    rw [readingsOfEither, Readings.derives_orElse, ih]
    simp only [List.mem_cons, exists_eq_or_imp]

/-- One option alone is read as a choice of nothing else. -/
theorem readings_amongst {options : List (Pattern κ)} :
    (amongst options).readings = (choice options).readings := by
  unfold amongst
  split
  · rw [readings, readingsOfEither, readingsOfEither, Readings.orElse_never]
  · rfl

theorem derives_amongst {options : List (Pattern κ)} :
    Derives (amongst options).readings text marks ↔
      ∃ option ∈ options, Derives option.readings text marks := by
  rw [readings_amongst, derives_choice]

/-- An optional pattern reads the empty text besides what it reads itself. -/
theorem derives_optional {inner : Pattern κ} {isLazy : Bool} :
    Derives (optional inner isLazy).readings text marks ↔
      text = [] ∧ marks = [] ∨ Derives inner.readings text marks := by
  rw [readings, Readings.loop_optional, Readings.derives_perhaps]

/-- Texts and what is recorded on them, joined and put together. -/
structure Joins (separator : Char) (pieces : List (Text × List (κ × Option Text))) (text : Text)
    (marks : List (κ × Option Text)) : Prop where
  nonempty : pieces ≠ []
  text_eq : text = Text.joined separator (pieces.map Prod.fst)
  marks_eq : marks = (pieces.map Prod.snd).flatten

theorem isLocal_separated (element : Pattern κ) (separator : Char) :
    Readings.IsLocal ((Regex.ofText [separator]).readings.andThen element.readings) :=
  (Regex.isLocal_readings _).andThen element.isLocal_readings

/-- An element after a separator reads something, since the separator does. -/
theorem consumes_separated (element : Pattern κ) (separator : Char) :
    Readings.Consumes ((Regex.ofText [separator]).readings.andThen element.readings) := by
  refine Readings.Consumes.andThen ?_ element.isLocal_readings
  rw [(Regex.isLocal_readings _).consumes_iff]
  intro marks derived
  have matched := (Regex.derives_readings.mp derived).2
  rw [Regex.isMatch_ofText] at matched
  cases matched

/-- An element after a separator reads a text that starts with the separator. -/
theorem derives_separated {element : Pattern κ} {separator : Char} :
    Derives ((Regex.ofText [separator]).readings.andThen element.readings) text marks ↔
      ∃ back, text = separator :: back ∧ Derives element.readings back marks := by
  rw [Readings.derives_andThen (Regex.isLocal_readings _)]
  simp only [Regex.derives_readings, Regex.isMatch_ofText]
  constructor
  · rintro ⟨_, back, _, _, rfl, rfl, ⟨rfl, rfl⟩, derived⟩
    exact ⟨back, rfl, derived⟩
  · rintro ⟨back, rfl, derived⟩
    exact ⟨[separator], back, [], marks, rfl, rfl, ⟨rfl, rfl⟩, derived⟩

/-- **A repetition reads joined elements**, at least two of them if more than one is
required. -/
theorem derives_elements {element : Pattern κ} {separator : Char} {isLazy requiresMore : Bool} :
    Derives (elements element separator isLazy requiresMore).readings text marks ↔
      ∃ pieces, Joins separator pieces text marks ∧
        (requiresMore = true → 2 ≤ pieces.length) ∧
        ∀ piece ∈ pieces, Derives element.readings piece.1 piece.2 := by
  have isLocal := isLocal_separated element separator
  have consumes := consumes_separated element separator
  rw [elements, readings, Readings.derives_andThen element.isLocal_readings]
  simp only [Readings.derives_loop isLocal consumes]
  constructor
  · rintro ⟨front, back, before, after, rfl, rfl, first, pieces, enough, -, rfl, rfl, each⟩
    obtain ⟨later, rfl, derives⟩ := exists_eq_map
      (fun piece : Text × List (κ × Option Text) => (separator :: piece.1, piece.2))
      (fun piece => Derives element.readings piece.1 piece.2) fun piece member => by
        obtain ⟨back, same, inside⟩ := derives_separated.mp (each piece member)
        exact ⟨(back, piece.2), inside, Prod.ext same rfl⟩
    refine ⟨(front, before) :: later, ⟨by simp, ?_, ?_⟩, ?_,
      List.forall_mem_cons.mpr ⟨first, derives⟩⟩
    · rw [List.map_cons, Text.joined_cons_eq, List.map_map, List.map_map]
      rfl
    · rw [List.map_cons, List.flatten_cons, List.map_map]
      rfl
    · rintro rfl
      simp only [moreQuantifier, ↓reduceIte, Quantifier.least, List.length_map] at enough
      simpa using enough
  · rintro ⟨pieces, ⟨nonempty, rfl, rfl⟩, enough, each⟩
    obtain ⟨⟨front, before⟩, later, rfl⟩ := List.exists_cons_of_ne_nil nonempty
    obtain ⟨first, derives⟩ := List.forall_mem_cons.mp each
    refine ⟨front, _, before, _, ?_, ?_, first,
      later.map (fun piece => (separator :: piece.1, piece.2)), ?_, ?_, rfl, rfl, ?_⟩
    · rw [List.map_cons, Text.joined_cons_eq, List.map_map, List.map_map]
      rfl
    · rw [List.map_cons, List.flatten_cons, List.map_map]
      rfl
    · cases requiresMore
      · exact Nat.zero_le _
      · have := enough rfl
        simp only [moreQuantifier, ↓reduceIte, Quantifier.least, List.length_map]
        simpa using this
    · cases requiresMore <;> simp [moreQuantifier, Quantifier.further]
    · intro piece member
      obtain ⟨original, found, rfl⟩ := List.mem_map.mp member
      exact derives_separated.mpr ⟨original.1, rfl, derives original found⟩

/-- If an element reads the texts that items are written as, then a repetition reads lists of
items. -/
theorem derives_elements_of {element : Pattern κ} {separator : Char}
    {isLazy requiresMore : Bool} {α : Type} (able : α → Prop) (write : α → Text)
    (record : α → List (κ × Option Text))
    (reads : ∀ text marks, Derives element.readings text marks ↔
      ∃ item, able item ∧ text = write item ∧ marks = record item) :
    Derives (elements element separator isLazy requiresMore).readings text marks ↔
      ∃ items : List α, items ≠ [] ∧ (requiresMore = true → 2 ≤ items.length) ∧
        (∀ item ∈ items, able item) ∧ text = Text.joined separator (items.map write) ∧
        marks = items.flatMap record := by
  rw [derives_elements]
  constructor
  · rintro ⟨pieces, ⟨nonempty, rfl, rfl⟩, enough, each⟩
    obtain ⟨items, rfl, able_items⟩ := exists_eq_map
      (fun item => (write item, record item)) able fun piece member => by
        obtain ⟨item, known, same, sameMarks⟩ := (reads _ _).mp (each piece member)
        exact ⟨item, known, Prod.ext same sameMarks⟩
    refine ⟨items, by simpa using nonempty, by simpa using enough, able_items, ?_, ?_⟩
    · simp [Function.comp_def]
    · simp [Function.comp_def, List.flatMap_def]
  · rintro ⟨items, nonempty, enough, able_items, rfl, rfl⟩
    refine ⟨items.map fun item => (write item, record item),
      ⟨by simpa using nonempty, by simp [Function.comp_def],
        by simp [Function.comp_def, List.flatMap_def]⟩, by simpa using enough, ?_⟩
    intro piece member
    obtain ⟨item, found, rfl⟩ := List.mem_map.mp member
    exact (reads _ _).mpr ⟨item, able_items item found, rfl, rfl⟩

end Pattern

end UriTemplates
