import UriTemplates.Proofs.Regex.Language

/-!
# Peeling repetitions

A repetition is taken apart from its front, one element at a time, by matching what is left of it
again and again. Main statement: the spans that are found are those of the elements of the first
way to read the whole repetition, each of them read as in that way
(`Pattern.Recording.elementSpans_of_whole?`). This holds whatever elements and separators record
(`Pattern.Recording`), as long as no bar divides what a repetition is written as.
-/

namespace UriTemplates

variable {β : Type}

namespace Readings

/-- What the elements of a repetition and the separators between them record: every element what
the first way to read its span records. -/
inductive Alternates (elements separators : Readings β) : List Text → List β → Prop
  /-- A last element. -/
  | last {span : Text} {marks : List β} (read : elements.whole? span = some marks) :
    Alternates elements separators [span] marks
  /-- An element with a separator and further elements after it. -/
  | more {span gap : Text} {spans : List Text} {marks passed later : List β}
    (read : elements.whole? span = some marks) (passes : separators.Derives gap passed)
    (others : Alternates elements separators spans later) :
    Alternates elements separators (span :: spans) (marks ++ (passed ++ later))

end Readings

namespace Pattern

open Readings

variable {element separator : Regex} {elements separators : Readings β} {isLazy : Bool}

/-- A repetition that requires more is one element, a separator, and a repetition that does not. -/
theorem andThen_loop_moreQuantifier (requiresMore : Bool) :
    elements.andThen ((separators.andThen elements).loop (moreQuantifier requiresMore) isLazy) =
      if requiresMore then
        elements.andThen (separators.andThen (repetition elements separators isLazy))
      else repetition elements separators isLazy := by
  cases requiresMore with
  | false => exact congrArg _ (loop_star _ isLazy)
  | true =>
    simp only [moreQuantifier, ↓reduceIte, loop_plus, andThen_assoc]
    rfl

/-- Readings for the elements and the separators of a repetition, which may record something on
top of what two expressions read. No bar divides what the repetition is written as. -/
structure Recording (element separator : Regex) (elements separators : Readings β) : Prop where
  /-- The elements are what one expression reads. -/
  ends_element : (element.readings : Readings β).ends = elements.ends
  /-- The separators are what the other expression reads. -/
  ends_separator : (separator.readings : Readings β).ends = separators.ends
  isLocal : elements.IsLocal
  isLocal_separators : separators.IsLocal
  isUndivided_element : element.isUndivided = true
  isUndivided : separator.isUndivided = true
  /-- Every separator reads something. -/
  consumes : separators.Consumes

/-- An expression without a bar is its only alternative. -/
theorem alternatives_eq (undivided : separator.isUndivided = true) :
    separator.alternatives = ([], separator) := by
  cases separator with
  | alt first second => cases undivided
  | _ => rfl

/-- How a repetition is divided if its first element leaves a text: it stops at the end of
the text, or it goes on after a separator. -/
def divisionAt? (element separator : Regex) (isLazy : Bool) (span rest : Text) :
    Option Division :=
  let head := some ((Cursor.start span).textTo (Cursor.start rest))
  let stop := if rest = [] then some ⟨head, none⟩ else none
  let more := afterElement? head separator (remainder element separator isLazy)
    (Cursor.start rest)
  if isLazy then stop.or more else more.or stop

/-- The first element is taken off along the ways in which it can be read. -/
theorem firstElement?_eq (element separator : Regex) (isLazy : Bool) (span : Text) :
    firstElement? element separator isLazy span =
      ((element.readings : Readings β).ends span).findSome?
        (divisionAt? element separator isLazy span) := by
  rw [firstElement?, Regex.search_eq (β := β)]
  congr 1
  funext rest
  simp only [Cursor.start, List.length_eq_zero_iff, divisionAt?]
  cases isLazy <;> simp [Option.orElse_eq_or]

/-- A repetition can be divided after its first element if this is all of the text, or if there is a
way on. -/
theorem isSome_divisionAt?_iff {span rest : Text} :
    (divisionAt? element separator isLazy span rest).isSome = true ↔
      rest = [] ∨ (afterElement? (some ((Cursor.start span).textTo (Cursor.start rest))) separator
        (remainder element separator isLazy) (Cursor.start rest)).isSome = true := by
  by_cases ended : rest = [] <;> cases isLazy <;> simp [divisionAt?, ended]

/-- Where no bar divides the separator, a further element is searched for after the first one. -/
theorem firstOfSeveral?_of_undivided (undivided : separator.isUndivided = true) (span : Text) :
    firstOfSeveral? element separator isLazy span =
      element.search (Cursor.start span) fun cursor =>
        afterElement? (some ((Cursor.start span).textTo cursor)) separator
          (remainder element separator isLazy) cursor := by
  simp only [firstOfSeveral?, afterElement?, alternatives_eq undivided]
  rfl

/-- A repetition ends after its first element if the text does and nothing that is preferred goes
on. -/
theorem divisionAt?_of_stop {span rest : Text} (ended : rest = [])
    (noMore : isLazy = false → afterElement? (some ((Cursor.start span).textTo
      (Cursor.start rest))) separator (remainder element separator isLazy)
      (Cursor.start rest) = none) :
    divisionAt? element separator isLazy span rest =
      some ⟨some ((Cursor.start span).textTo (Cursor.start rest)), none⟩ := by
  cases isLazy with
  | true => simp [divisionAt?, ended]
  | false =>
    simp only [divisionAt?, noMore rfl]
    simp [ended]

/-- A repetition goes on after its first element if it can, unless it is lazy and the text has
ended. -/
theorem divisionAt?_of_more {span rest : Text} {division : Division}
    (found : afterElement? (some ((Cursor.start span).textTo (Cursor.start rest))) separator
      (remainder element separator isLazy) (Cursor.start rest) = some division)
    (notEnded : isLazy = true → rest ≠ []) :
    divisionAt? element separator isLazy span rest = some division := by
  cases isLazy with
  | true => simp [divisionAt?, found, notEnded rfl]
  | false => simp [divisionAt?, found]

namespace Recording

variable (recording : Recording element separator elements separators)

include recording

/-- A repetition is an element and then, perhaps, a separator and a repetition. -/
theorem repetition_eq : repetition elements separators isLazy =
    elements.andThen ((separators.andThen (repetition elements separators isLazy)).perhaps
      isLazy) :=
  Readings.repetition_eq recording.consumes recording.isLocal isLazy

/-- What is written as a remainder leaves what a repetition leaves. -/
theorem ends_remainder : ((remainder element separator isLazy).readings : Readings β).ends =
    (repetition elements separators isLazy).ends := by
  have written : separator.splice element = separator.andThen element :=
    Regex.splice_eq_andThen recording.isUndivided recording.isUndivided_element
  rw [remainder, Regex.readings_andThen, moreElements, written]
  apply ends_andThen_congr recording.ends_element
  rw [← loop_star]
  simp only [Regex.readings, Regex.readings_andThen]
  exact ends_loop_congr (ends_andThen_congr recording.ends_separator recording.ends_element) _
    isLazy

/-- A text is the remainder of a repetition just if a repetition reads all of it. -/
theorem asRemainder?_eq (head : Option Text) (text : Text) :
    asRemainder? head (remainder element separator isLazy) (Cursor.start text) =
      if ((repetition elements separators isLazy).whole? text).isSome then
        some ⟨head, some text⟩ else none := by
  have ended : ∀ rest, (if (Cursor.start rest).left = 0 then
        some (⟨head, some ((Cursor.start text).textTo (Cursor.start rest))⟩ : Division)
      else none) = if rest = [] then some ⟨head, some text⟩ else none := by
    intro rest
    cases rest with
    | nil => simp [Cursor.start, Cursor.textTo]
    | cons c rest => simp [Cursor.start]
  rw [asRemainder?, Regex.search_eq (β := β), recording.ends_remainder]
  simp only [ended, isSome_whole?_iff]
  exact findSome?_if_eq _ ([] : Text) _

/-- A text is a remainder if a repetition reads it whole. -/
theorem isSome_asRemainder?_iff (head : Option Text) (text : Text) :
    (asRemainder? head (remainder element separator isLazy)
        (Cursor.start text)).isSome = true ↔
      ((repetition elements separators isLazy).whole? text).isSome = true := by
  rw [asRemainder?, Regex.isSome_search_whole_iff, Regex.isMatch_iff (β := β),
    recording.ends_remainder, isSome_whole?_iff]
  rfl

/-- The ways on after an element are those that its separators lead to. -/
theorem afterElement?_eq (head : Option Text) (rest : Regex) (text : Text) :
    afterElement? head separator rest (Cursor.start text) =
      (separators.ends text).findSome? fun later =>
        asRemainder? head rest (Cursor.start later) := by
  rw [afterElement?, alternatives_eq recording.isUndivided, ← recording.ends_separator]
  exact Regex.search_eq (β := β) separator (Cursor.start text) _

/-- What the search after an element finds is how the first way to read a separator and a
repetition divides the text. -/
theorem afterElement?_of_whole? (head : Option Text) {text : Text} {marks : List β}
    (first : (separators.andThen (repetition elements separators isLazy)).whole? text =
      some marks) :
    ∃ later gap passed marked,
      afterElement? head separator (remainder element separator isLazy) (Cursor.start text) =
        some ⟨head, some later⟩ ∧
      separators.Derives gap passed ∧
      (repetition elements separators isLazy).whole? later = some marked ∧
      marks = passed ++ marked ∧ later.length < text.length := by
  rw [whole?_andThen] at first
  obtain ⟨reading, result, isFirst, read, rfl⟩ := IsFirst.exists_of_findSome? first
  refine ⟨reading.rest, consumed text reading, reading.marks, result, ?_,
    recording.isLocal_separators.derives_consumed isFirst.mem, read, rfl,
    recording.consumes text reading isFirst.mem⟩
  rw [recording.afterElement?_eq, ends,
    isFirst.findSome?_ends (recording.isSome_asRemainder?_iff head),
    recording.asRemainder?_eq, read]
  rfl

/-- There is a way on if the text is read whole as a separator and a repetition. -/
theorem isSome_afterElement?_iff (head : Option Text) (text : Text) :
    (afterElement? head separator (remainder element separator isLazy)
        (Cursor.start text)).isSome = true ↔
      ((separators.andThen (repetition elements separators isLazy)).whole? text).isSome =
        true := by
  rw [recording.afterElement?_eq, isSome_whole?_iff, ends_andThen]
  simp only [List.findSome?_isSome_iff, recording.isSome_asRemainder?_iff, isSome_whole?_iff,
    List.mem_flatMap]

/-- There is no way on if the text is not read whole as a separator and a repetition. -/
theorem afterElement?_eq_none (head : Option Text) {text : Text}
    (unread : (separators.andThen (repetition elements separators isLazy)).whole? text = none) :
    afterElement? head separator (remainder element separator isLazy)
      (Cursor.start text) = none := by
  rw [← Option.not_isSome_iff_eq_none, recording.isSome_afterElement?_iff, unread]
  simp

/-- Where another element has to follow, the first one is taken off with the first way on. -/
theorem firstOfSeveral?_eq (span : Text) :
    firstOfSeveral? element separator isLazy span =
      (elements.ends span).findSome? fun rest =>
        afterElement? (some ((Cursor.start span).textTo (Cursor.start rest))) separator
          (remainder element separator isLazy) (Cursor.start rest) := by
  rw [firstOfSeveral?_of_undivided recording.isUndivided, Regex.search_eq (β := β),
    recording.ends_element]
  rfl

/-- A repetition can be divided where the text is read whole as the end of it or as its
continuation. -/
theorem isSome_divisionAt?_iff (span rest : Text) :
    (divisionAt? element separator isLazy span rest).isSome = true ↔
      (((separators.andThen (repetition elements separators isLazy)).perhaps isLazy).whole?
        rest).isSome = true := by
  rw [isSome_whole?_perhaps, Pattern.isSome_divisionAt?_iff, recording.isSome_afterElement?_iff]

/-- **Peeling a repetition.** The elements that are taken off the front of a repetition are
those of the first way to read it, and each is read as in that way. -/
theorem laterSpans_of_whole? {span : Text} {marks : List β}
    (first : (repetition elements separators isLazy).whole? span = some marks) :
    ∃ spans : List Text, laterSpans element separator isLazy span =
        spans.map (fun span => .ok (some span)) ∧
      Alternates elements separators spans marks := by
  induction size : span.length using Nat.strongRecOn generalizing span marks with
  | ind size ih =>
    subst size
    rw [recording.repetition_eq, whole?_andThen] at first
    obtain ⟨reading, result, isFirst, read, rfl⟩ := IsFirst.exists_of_findSome? first
    have head := isFirst.whole?_consumed recording.isLocal
    have found : firstElement? element separator isLazy span =
        divisionAt? element separator isLazy span reading.rest := by
      rw [firstElement?_eq (β := β), recording.ends_element]
      exact isFirst.findSome?_ends (recording.isSome_divisionAt?_iff span)
    rcases whole?_perhaps read with ⟨ended, rfl, noMore⟩ | ⟨more, notEnded⟩
    · have stopped : divisionAt? element separator isLazy span reading.rest = _ :=
        divisionAt?_of_stop ended fun greedy =>
          recording.afterElement?_eq_none _ (noMore greedy)
      refine ⟨[consumed span reading], ?_, by simpa using .last head⟩
      rw [laterSpans, found, stopped]
      rfl
    · obtain ⟨later, gap, passed, marks, divided, passes, readLater, rfl, shorter⟩ :=
        recording.afterElement?_of_whole?
          (some ((Cursor.start span).textTo (Cursor.start reading.rest))) more
      have shorterSpan : later.length < span.length :=
        Nat.lt_of_lt_of_le shorter (recording.isLocal.rest_length_le isFirst.mem)
      obtain ⟨spans, peeled, others⟩ := ih _ shorterSpan readLater rfl
      refine ⟨consumed span reading :: spans, ?_, .more head passes others⟩
      rw [laterSpans, found, divisionAt?_of_more divided notEnded]
      simp only [dif_pos shorterSpan, peeled]
      rfl

/-- A repetition that requires a further element is divided after its first one, and the
rest of it is peeled. -/
theorem elementSpans_of_whole? (requiresMore : Bool) {span : Text} {marks : List β}
    (first : (elements.andThen ((separators.andThen elements).loop
      (moreQuantifier requiresMore) isLazy)).whole? span = some marks) :
    ∃ spans : List Text, elementSpans element separator isLazy requiresMore span =
        spans.map (fun span => .ok (some span)) ∧
      Alternates elements separators spans marks := by
  rw [andThen_loop_moreQuantifier] at first
  cases requiresMore with
  | false => exact recording.laterSpans_of_whole? first
  | true =>
    rw [if_pos rfl, whole?_andThen] at first
    obtain ⟨reading, result, isFirst, read, rfl⟩ := IsFirst.exists_of_findSome? first
    have head := isFirst.whole?_consumed recording.isLocal
    obtain ⟨later, gap, passed, marks, divided, passes, readLater, rfl, -⟩ :=
      recording.afterElement?_of_whole?
        (some ((Cursor.start span).textTo (Cursor.start reading.rest))) read
    obtain ⟨spans, peeled, others⟩ := recording.laterSpans_of_whole? readLater
    have found : firstOfSeveral? element separator isLazy span =
        some ⟨some (consumed span reading), some later⟩ := by
      rw [recording.firstOfSeveral?_eq, ends,
        isFirst.findSome?_ends fun rest => recording.isSome_afterElement?_iff _ rest]
      exact divided
    refine ⟨consumed span reading :: spans, ?_, .more head passes others⟩
    rw [elementSpans, if_pos rfl, found]
    simp only [peeled]
    rfl

end Recording

end Pattern

end UriTemplates
