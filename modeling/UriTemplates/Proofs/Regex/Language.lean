import UriTemplates.Proofs.Pattern.Written

/-!
# The texts that a regular expression matches

Regular expressions record nothing, so their readings of a whole text only say whether the
text is matched (`Regex.derives_readings`). What is matched is described by recursion on the
expression, with a loop matching the texts that are made of matched pieces
(`Regex.isMatch_loop`).
-/

namespace UriTemplates.Regex

open Readings (Derives)

variable {β : Type}

/-- To read a whole text is to match it, and it records nothing. -/
theorem derives_readings {regex : Regex} {text : Text} {marks : List β} :
    Derives regex.readings text marks ↔ marks = [] ∧ regex.isMatch text = true := by
  rw [isMatch_iff (β := β), Readings.mem_ends]
  constructor
  · intro derived
    exact ⟨regex.silent_readings text _ derived, marks, derived⟩
  · rintro ⟨rfl, marks, derived⟩
    cases regex.silent_readings text _ derived
    exact derived

/-- An expression matches what it reads whole. -/
theorem isMatch_iff_derives {regex : Regex} {text : Text} :
    regex.isMatch text = true ↔ Derives (β := Unit) regex.readings text [] := by
  rw [derives_readings, and_iff_right rfl]

/-- What a search finds is what follows one of the readings. -/
theorem exists_of_search {α : Type} {regex : Regex} {cursor : Cursor}
    {next : Cursor → Option α} {found : α} (searched : regex.search cursor next = some found) :
    ∃ reading ∈ (regex.readings : Readings Unit) cursor.rest,
      next (Cursor.start reading.rest) = some found := by
  rw [regex.search_follows (β := Unit)] at searched
  exact List.exists_of_findSome?_eq_some searched

/-- A search finds an answer if one is given for something that the expression leaves. -/
theorem isSome_search_iff {α : Type} {regex : Regex} {cursor : Cursor}
    {next : Cursor → Option α} :
    (regex.search cursor next).isSome = true ↔
      ∃ rest ∈ (regex.readings : Readings Unit).ends cursor.rest,
        (next (Cursor.start rest)).isSome = true := by
  rw [regex.search_eq (β := Unit), List.findSome?_isSome_iff]

/-- A search for the end of a text finds it just if the whole text is matched. -/
theorem isSome_search_whole_iff {α : Type} {regex : Regex} {cursor : Cursor}
    (answer : Cursor → α) :
    (regex.search cursor fun ended =>
        if ended.left = 0 then some (answer ended) else none).isSome = true ↔
      regex.isMatch cursor.rest = true := by
  rw [isSome_search_iff, isMatch_iff (β := Unit)]
  simp [Cursor.start]

/-- A search to the end of a text answers if the expression matches the text. -/
theorem search_whole {α : Type} (regex : Regex) (cursor : Cursor) (answer : α) :
    (regex.search cursor fun ended => if ended.left = 0 then some answer else none) =
      if regex.isMatch cursor.rest then some answer else none := by
  split
  · rename_i matched
    obtain ⟨found, searched⟩ :=
      Option.isSome_iff_exists.mp ((isSome_search_whole_iff fun _ => answer).mpr matched)
    obtain ⟨reading, -, ended⟩ := exists_of_search searched
    split at ended
    · rw [searched, ended]
    · cases ended
  · rename_i unmatched
    exact Option.not_isSome_iff_eq_none.mp (mt (isSome_search_whole_iff _).mp unmatched)

/-- A text is matched by one expression after the other if the second matches what the first can
leave. -/
theorem isMatch_andThen_iff_exists {first second : Regex} {text : Text} :
    (first.andThen second).isMatch text = true ↔
      ∃ rest ∈ (first.readings : Readings Unit).ends text, second.isMatch rest = true := by
  simp only [isMatch_iff (β := Unit), readings_andThen, Readings.ends_andThen, List.mem_flatMap]

/-- An expression that does not match the empty text reads something. -/
theorem consumes_of_isMatch_nil {regex : Regex} (nonempty : regex.isMatch [] = false) :
    (regex.readings : Readings β).Consumes := by
  rw [regex.isLocal_readings.consumes_iff]
  intro marks derived
  rw [(derives_readings.mp derived).2] at nonempty
  cases nonempty

theorem isMatch_empty {text : Text} : empty.isMatch text = true ↔ text = [] := by
  rw [isMatch_iff_derives, readings, Readings.derives_stop, and_iff_left rfl]

theorem isMatch_char {test : CharTest} {text : Text} :
    (char test).isMatch text = true ↔ ∃ c, text = [c] ∧ test.accepts c = true := by
  simp only [isMatch_iff_derives, readings, Readings.derives_char, and_true]

theorem isMatch_seq {first second : Regex} {text : Text} :
    (seq first second).isMatch text = true ↔ ∃ front back, text = front ++ back ∧
      first.isMatch front = true ∧ second.isMatch back = true := by
  rw [isMatch_iff_derives, readings, Readings.derives_andThen first.isLocal_readings]
  simp only [derives_readings]
  constructor
  · rintro ⟨front, back, _, _, split, -, ⟨-, matched⟩, -, matchedNext⟩
    exact ⟨front, back, split, matched, matchedNext⟩
  · rintro ⟨front, back, split, matched, matchedNext⟩
    exact ⟨front, back, [], [], split, rfl, ⟨rfl, matched⟩, rfl, matchedNext⟩

theorem isMatch_alt {first second : Regex} {text : Text} :
    (alt first second).isMatch text = true ↔
      first.isMatch text = true ∨ second.isMatch text = true := by
  simp only [isMatch_iff_derives, readings, Readings.derives_orElse]

theorem isMatch_group {inner : Regex} {text : Text} :
    (group inner).isMatch text = inner.isMatch text :=
  rfl

theorem isMatch_andThen {first second : Regex} {text : Text} :
    (first.andThen second).isMatch text = true ↔ (seq first second).isMatch text = true := by
  rw [isMatch_iff_derives, isMatch_iff_derives, readings_andThen, readings]

theorem isMatch_loop_optional {body : Regex} {isLazy : Bool} {text : Text} :
    (loop body .optional isLazy).isMatch text = true ↔ text = [] ∨ body.isMatch text = true := by
  rw [isMatch_iff_derives, readings, Readings.loop_optional, Readings.derives_perhaps,
    ← isMatch_iff_derives, and_iff_left rfl]

/-- Expressions without bars that are written directly after each other match a text in two parts.
-/
theorem isMatch_splice {first second : Regex} (undivided : first.isUndivided = true)
    (undividedNext : second.isUndivided = true) {text : Text} :
    (first.splice second).isMatch text = true ↔ ∃ front back, text = front ++ back ∧
      first.isMatch front = true ∧ second.isMatch back = true := by
  rw [splice_eq_andThen undivided undividedNext, isMatch_andThen, isMatch_seq]

theorem isMatch_spliceAll_nil {text : Text} : (spliceAll []).isMatch text = true ↔ text = [] :=
  isMatch_empty

/-- Expressions that are written after a first one without alternatives. -/
theorem isMatch_spliceAll_cons {first : Regex} {regexes : List Regex}
    (undivided : ∀ regex ∈ first :: regexes, regex.isUndivided = true) {text : Text} :
    (spliceAll (first :: regexes)).isMatch text = true ↔ ∃ front back, text = front ++ back ∧
      first.isMatch front = true ∧ (spliceAll regexes).isMatch back = true := by
  obtain ⟨only, later⟩ := List.forall_mem_cons.mp undivided
  exact isMatch_splice only (spliceAll_undivided (β := Unit) later).1

theorem isMatch_oneOf {regexes : List Regex} (nonempty : regexes ≠ []) {text : Text} :
    (oneOf regexes).isMatch text = true ↔ ∃ regex ∈ regexes, regex.isMatch text = true := by
  induction regexes with
  | nil => exact (nonempty rfl).elim
  | cons first regexes ih =>
    by_cases last : regexes = []
    · subst last
      simp [oneOf]
    · obtain ⟨second, others, rfl⟩ := List.exists_cons_of_ne_nil last
      have divided : oneOf (first :: second :: others) = alt first (oneOf (second :: others)) := rfl
      rw [divided, isMatch_alt, ih last]
      simp only [List.mem_cons, exists_eq_or_imp]

/-- A loop whose iterations read something matches what is made of as many matched pieces
as its quantifier allows. -/
theorem isMatch_loop {body : Regex} {quantifier : Quantifier} {isLazy : Bool}
    (nonempty : body.isMatch [] = false) {text : Text} :
    (loop body quantifier isLazy).isMatch text = true ↔
      ∃ pieces : List Text, quantifier.least ≤ pieces.length ∧
        (∀ more, quantifier.further = some more → pieces.length ≤ quantifier.least + more) ∧
        text = pieces.flatten ∧ ∀ piece ∈ pieces, body.isMatch piece = true := by
  have isLocal := body.isLocal_readings (β := Unit)
  have consumes := consumes_of_isMatch_nil (β := Unit) nonempty
  rw [isMatch_iff_derives, readings, Readings.derives_loop isLocal consumes]
  constructor
  · rintro ⟨pieces, enough, bound, read⟩
    refine ⟨pieces.map Prod.fst, by simpa using enough, by simpa using bound, read.text_eq, ?_⟩
    intro piece member
    obtain ⟨⟨piece, marks⟩, found, rfl⟩ := List.mem_map.mp member
    exact (derives_readings.mp (read.derives _ found)).2
  · rintro ⟨pieces, enough, bound, rfl, matched⟩
    refine ⟨pieces.map fun piece => (piece, []), by simpa using enough, by simpa using bound,
      by simp [Function.comp_def], by simp, ?_⟩
    intro piece member
    obtain ⟨text, found, rfl⟩ := List.mem_map.mp member
    exact derives_readings.mpr ⟨rfl, matched text found⟩

/-- The expression of a character matches this character alone. -/
theorem isMatch_ofChar {c : Char} {text : Text} :
    (ofChar c).isMatch text = true ↔ text = [c] := by
  rw [ofChar, isMatch_char]
  constructor
  · rintro ⟨other, rfl, same⟩
    rw [← eq_of_beq same]
  · rintro rfl
    exact ⟨c, rfl, beq_self_eq_true c⟩

theorem isUndivided_ofChars (text : Text) :
    ∀ regex ∈ text.map ofChar, regex.isUndivided = true := by
  intro regex member
  obtain ⟨c, -, rfl⟩ := List.mem_map.mp member
  rfl

/-- The expression of a text matches just that text. -/
theorem isMatch_ofText {written text : Text} :
    (ofText written).isMatch text = true ↔ text = written := by
  induction written generalizing text with
  | nil => exact isMatch_empty
  | cons c written ih =>
    rw [ofText, List.map_cons, isMatch_spliceAll_cons (isUndivided_ofChars (c :: written)),
      ← ofText]
    simp only [isMatch_ofChar, ih]
    constructor
    · rintro ⟨front, back, rfl, rfl, rfl⟩
      rfl
    · rintro rfl
      exact ⟨[c], written, rfl, rfl, rfl⟩

theorem isUndivided_ofText (text : Text) : (ofText text).isUndivided = true :=
  (spliceAll_undivided (β := Unit) (isUndivided_ofChars text)).1

end UriTemplates.Regex
