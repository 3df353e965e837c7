import UriTemplates.Proofs.Reading.Locality
import UriTemplates.Regex.Search

/-!
# Readings of whole texts

What the first way to read a whole text records (`Readings.whole?`) and what any way to do
so records (`Readings.Derives`). As readings are local, a part of the first way to read a
longer text is the first way to read the span of that part
(`Readings.IsFirst.whole?_consumed`), and the ways to read one thing after another are the
ways to cut the text in two and to read both parts (`Readings.derives_andThen`).
-/

namespace UriTemplates.Readings

variable {β : Type}

/-- What the first way to read a whole text records. -/
def whole? (readings : Readings β) (text : Text) : Option (List β) :=
  (readings text).findSome? fun reading =>
    if reading.rest = [] then some reading.marks else none

/-- Whether some way to read a whole text records just these marks. -/
def Derives (readings : Readings β) (text : Text) (marks : List β) : Prop :=
  ⟨marks, []⟩ ∈ readings text

/-- The first way to read a whole text is a way to read it. -/
theorem derives_of_whole? {readings : Readings β} {text : Text} {marks : List β}
    (first : readings.whole? text = some marks) : readings.Derives text marks := by
  obtain ⟨⟨found, rest⟩, member, read⟩ := List.exists_of_findSome?_eq_some first
  split at read
  · rename_i ended
    cases ended
    cases read
    exact member
  · cases read

/-- There is no first way to read a whole text just if there is no way at all. -/
theorem whole?_eq_none_iff {readings : Readings β} {text : Text} :
    readings.whole? text = none ↔ ∀ marks, ¬ readings.Derives text marks := by
  constructor
  · intro none marks derived
    have := List.findSome?_eq_none_iff.mp none _ derived
    simp at this
  · intro underived
    rw [whole?, List.findSome?_eq_none_iff]
    rintro ⟨marks, rest⟩ member
    by_cases ended : rest = []
    · subst ended
      exact (underived marks member).elim
    · simp [ended]

/-- A text that can be read whole has a first way to be. -/
theorem exists_whole?_of_derives {readings : Readings β} {text : Text} {marks : List β}
    (derived : readings.Derives text marks) : ∃ found, readings.whole? text = some found := by
  rw [← Option.ne_none_iff_exists']
  intro none
  exact whole?_eq_none_iff.mp none marks derived

/-- If all ways to read a whole text record the same, then so does the first one. -/
theorem whole?_eq_of_unique {readings : Readings β} {text : Text} {marks : List β}
    (derived : readings.Derives text marks)
    (unique : ∀ other, readings.Derives text other → other = marks) :
    readings.whole? text = some marks := by
  obtain ⟨found, first⟩ := exists_whole?_of_derives derived
  rw [first, unique found (derives_of_whole? first)]

/-- Items without an answer may be left out beforehand. -/
theorem findSome?_filter_of_none {α δ : Type} (test : α → Bool) (answer : α → Option δ)
    (items : List α) (silent : ∀ item, test item = false → answer item = none) :
    (items.filter test).findSome? answer = items.findSome? answer := by
  induction items with
  | nil => rfl
  | cons item items ih =>
    by_cases kept : test item = true
    · rw [List.filter_cons_of_pos kept, List.findSome?_cons, List.findSome?_cons, ih]
    · have nothing := silent item (by simpa using kept)
      rw [List.filter_cons_of_neg kept, List.findSome?_cons, nothing, ih]

/-- The first way to read up to a given end of a text is the first way to read what stands
before that end. -/
theorem IsLocal.findSome?_leaving {readings : Readings β} (isLocal : readings.IsLocal)
    (span after : Text) :
    ((readings (span ++ after)).findSome? fun reading =>
        if reading.rest = after then some reading.marks else none) =
      readings.whole? span := by
  have refused : ∀ reading : Reading β, leaves after reading = false →
      (if reading.rest = after then some reading.marks else none) = none := by
    intro reading gone
    apply if_neg
    rintro rfl
    simp [leaves] at gone
  rw [← findSome?_filter_of_none _ _ _ refused, isLocal.filter_leaves, List.findSome?_map]
  congr 1
  funext reading
  simp [Reading.before]

/-- A span is read before a text as it is read alone. -/
theorem IsLocal.mem_append_iff {readings : Readings β} (isLocal : readings.IsLocal)
    {span after : Text} {marks : List β} :
    ⟨marks, after⟩ ∈ readings (span ++ after) ↔ readings.Derives span marks := by
  have left : (⟨marks, after⟩ : Reading β) ∈ readings (span ++ after) ↔
      ⟨marks, after⟩ ∈ (readings (span ++ after)).filter (leaves after) := by
    simp [leaves]
  rw [left, isLocal.filter_leaves, List.mem_map]
  constructor
  · rintro ⟨⟨found, rest⟩, member, same⟩
    simp only [Reading.before, Reading.mk.injEq, List.append_left_eq_self] at same
    rw [same.1, same.2] at member
    exact member
  · intro derived
    exact ⟨_, derived, rfl⟩

/-- What a reading consumes and what it leaves make up the text. -/
theorem IsLocal.consumed_append {readings : Readings β} (isLocal : readings.IsLocal)
    {text : Text} {reading : Reading β} (member : reading ∈ readings text) :
    consumed text reading ++ reading.rest = text := by
  obtain ⟨span, rfl⟩ := isLocal.rest_suffix text reading member
  simp [consumed]

/-- What a reading consumes is read whole with the same marks. -/
theorem IsLocal.derives_consumed {readings : Readings β} (isLocal : readings.IsLocal)
    {text : Text} {reading : Reading β} (member : reading ∈ readings text) :
    readings.Derives (consumed text reading) reading.marks := by
  have whole : reading ∈ readings (consumed text reading ++ reading.rest) := by
    rw [isLocal.consumed_append member]
    exact member
  exact isLocal.mem_append_iff.mp whole

/-- Whether a reading of a text is the first one whose rest has a property. -/
structure IsFirst (readings : Readings β) (text : Text) (able : Text → Prop)
    (reading : Reading β) : Prop where
  able_rest : able reading.rest
  split : ∃ earlier later, readings text = earlier ++ reading :: later ∧
    ∀ other ∈ earlier, ¬ able other.rest

namespace IsFirst

variable {readings : Readings β} {text : Text} {able : Text → Prop} {reading : Reading β}

theorem mem (first : readings.IsFirst text able reading) : reading ∈ readings text := by
  obtain ⟨earlier, later, split, -⟩ := first.split
  simp [split]

/-- An answer along the readings stems from the first reading whose rest has one. -/
theorem exists_of_findSome? {α δ : Type} {answer : Text → Option α}
    {combine : Reading β → α → δ} {found : δ}
    (answered : ((readings text).findSome? fun reading =>
      (answer reading.rest).map (combine reading)) = some found) :
    ∃ reading result, readings.IsFirst text (fun rest => (answer rest).isSome = true) reading ∧
      answer reading.rest = some result ∧ found = combine reading result := by
  obtain ⟨earlier, reading, later, split, here, before⟩ :=
    List.findSome?_eq_some_iff.mp answered
  obtain ⟨result, answer_eq, rfl⟩ := Option.map_eq_some_iff.mp here
  refine ⟨reading, result, ⟨by simp [answer_eq], earlier, later, split, ?_⟩, answer_eq, rfl⟩
  intro other member
  simpa using before other member

/-- Any other answer that is given for the same rests is the one of the first reading. -/
theorem findSome?_ends {α : Type} (first : readings.IsFirst text able reading)
    {answer : Text → Option α} (same : ∀ rest, (answer rest).isSome = true ↔ able rest) :
    ((readings text).map Reading.rest).findSome? answer = answer reading.rest := by
  obtain ⟨earlier, later, split, before⟩ := first.split
  have skipped : (earlier.map Reading.rest).findSome? answer = none := by
    rw [List.findSome?_eq_none_iff]
    intro rest member
    obtain ⟨other, earlierOther, rfl⟩ := List.mem_map.mp member
    have silent := mt (same other.rest).mp (before other earlierOther)
    simpa using silent
  obtain ⟨result, found⟩ := Option.isSome_iff_exists.mp ((same reading.rest).mpr first.able_rest)
  rw [split, List.map_append, List.findSome?_append, skipped, List.map_cons,
    List.findSome?_cons, found]
  rfl

/-- **Reading a span again.** The first reading that can be continued is found again as the
first way to read its span, for continuing only depends on what is left. -/
theorem whole?_consumed (isLocal : readings.IsLocal)
    (first : readings.IsFirst text able reading) :
    readings.whole? (consumed text reading) = some reading.marks := by
  obtain ⟨earlier, later, split, before⟩ := first.split
  have skipped : (earlier.findSome? fun other =>
      if other.rest = reading.rest then some other.marks else none) = none := by
    rw [List.findSome?_eq_none_iff]
    intro other member
    apply if_neg
    intro same
    exact before other member (same ▸ first.able_rest)
  rw [← isLocal.findSome?_leaving _ reading.rest, isLocal.consumed_append first.mem, split,
    List.findSome?_append, skipped]
  simp

end IsFirst

theorem derives_stop {text : Text} {marks : List β} :
    Derives stop text marks ↔ text = [] ∧ marks = [] := by
  simp [Derives, stop, eq_comm, and_comm]

theorem derives_char {test : Char → Bool} {text : Text} {marks : List β} :
    Derives (char test) text marks ↔ ∃ c, text = [c] ∧ test c = true ∧ marks = [] := by
  cases text with
  | nil => simp [Derives, char]
  | cons c rest =>
    simp only [Derives, char]
    split
    · rename_i accepted
      simp [accepted, and_comm]
    · rename_i refused
      simp only [List.not_mem_nil, List.cons.injEq, false_iff, not_exists, not_and]
      rintro other ⟨rfl, -⟩ accepted
      exact (refused accepted).elim

theorem derives_orElse {first second : Readings β} {text : Text} {marks : List β} :
    (first.orElse second).Derives text marks ↔
      first.Derives text marks ∨ second.Derives text marks :=
  List.mem_append

/-- To read one thing after another is to cut the text in two and to read both parts. -/
theorem derives_andThen {first second : Readings β} (isLocal : first.IsLocal) {text : Text}
    {marks : List β} :
    (first.andThen second).Derives text marks ↔
      ∃ front back before after, text = front ++ back ∧ marks = before ++ after ∧
        first.Derives front before ∧ second.Derives back after := by
  constructor
  · intro derived
    obtain ⟨reading, member, continuing⟩ := List.mem_flatMap.mp derived
    obtain ⟨⟨after, rest⟩, read, same⟩ := mem_continued.mp continuing
    simp only [Reading.mk.injEq] at same
    rw [same.2] at read
    exact ⟨consumed text reading, reading.rest, reading.marks, after,
      (isLocal.consumed_append member).symm, same.1.symm, isLocal.derives_consumed member, read⟩
  · rintro ⟨front, back, before, after, rfl, rfl, derived, derivedNext⟩
    apply List.mem_flatMap.mpr
    exact ⟨⟨before, back⟩, isLocal.mem_append_iff.mpr derived,
      mem_continued.mpr ⟨⟨after, []⟩, derivedNext, rfl⟩⟩

/-- A recorded span comes before what is recorded inside of it. -/
theorem derives_marked {inner : Readings β} {mark : Text → β} {text : Text} {marks : List β} :
    (inner.marked mark).Derives text marks ↔
      ∃ inside, inner.Derives text inside ∧ marks = mark text :: inside := by
  constructor
  · intro derived
    obtain ⟨⟨inside, rest⟩, member, same⟩ := List.mem_map.mp derived
    simp only [Reading.mk.injEq] at same
    obtain ⟨rfl, rfl⟩ := same
    exact ⟨inside, member, by simp [consumed]⟩
  · rintro ⟨inside, derived, rfl⟩
    exact List.mem_map.mpr ⟨⟨inside, []⟩, derived, by simp [consumed]⟩

theorem whole?_stop (text : Text) :
    whole? (stop : Readings β) text = if text = [] then some [] else none := by
  simp [whole?, stop]

/-- The first alternative that reads a whole text does so. -/
theorem whole?_orElse (first second : Readings β) (text : Text) :
    (first.orElse second).whole? text = (first.whole? text).or (second.whole? text) := by
  simp only [whole?, Readings.orElse, List.findSome?_append]

/-- A whole text is read along the first reading of its beginning that the second can continue to
the end. -/
theorem whole?_andThen (first second : Readings β) (text : Text) :
    (first.andThen second).whole? text =
      (first text).findSome? fun reading =>
        (second.whole? reading.rest).map (reading.marks ++ ·) := by
  simp only [whole?, Readings.andThen, Search.findSome?_flatMap, continued, List.findSome?_map,
    List.map_findSome?]
  congr 1
  funext reading
  congr 1
  funext later
  by_cases ended : later.rest = [] <;> simp [ended]

/-- The first way to read a span and record it is the first way to read it. -/
theorem whole?_marked (inner : Readings β) (mark : Text → β) (text : Text) :
    (inner.marked mark).whole? text = (inner.whole? text).map (mark text :: ·) := by
  simp only [whole?, Readings.marked, List.findSome?_map, List.map_findSome?]
  congr 1
  funext reading
  by_cases ended : reading.rest = [] <;> simp [ended, consumed]

end UriTemplates.Readings
