import UriTemplates.Proofs.Reading.First

/-!
# Readings that commute with a change of the text

A text may be changed in a way that no reading sees: what is read of the changed text is what is
read of the text itself, with the same changes (`Readings.Commutes`). For this, a reading must end
where the text before and the text after are changed independently of each other
(`Text.ChangesAlone`), and loops need texts to keep their length. All combinators keep the property,
so the first reading of a changed text is the changed first reading
(`Readings.Commutes.whole?_change`).
-/

namespace UriTemplates

variable {β : Type} {change : Text → Text} {mark : β → β}

/-- Whether a text is changed in the same way whatever follows it. -/
def Text.ChangesAlone (change : Text → Text) (front : Text) : Prop :=
  ∀ rest, change (front ++ rest) = change front ++ change rest

/-- What changes alone in two parts changes alone as a whole. -/
theorem Text.ChangesAlone.append {front more : Text} (alone : ChangesAlone change front)
    (aloneNext : ChangesAlone change more) : ChangesAlone change (front ++ more) := by
  intro rest
  rw [List.append_assoc, alone, aloneNext, alone, List.append_assoc]

/-- A reading of a changed text. -/
def Reading.changed (change : Text → Text) (mark : β → β) (reading : Reading β) : Reading β :=
  ⟨reading.marks.map mark, change reading.rest⟩

namespace Readings

/-- Whether readings of a changed text are the changed readings of the text. -/
structure Commutes (change : Text → Text) (mark : β → β) (readings : Readings β) : Prop where
  /-- What is read is changed in the same way whatever is left. -/
  changesAlone : ∀ text, ∀ reading ∈ readings text,
    ∃ front, text = front ++ reading.rest ∧ Text.ChangesAlone change front
  /-- A changed text is read like the text. -/
  readings_change : ∀ text,
    readings (change text) = (readings text).map (Reading.changed change mark)

/-- Changed readings are continued to the changed readings. -/
theorem continued_changed (reading : Reading β) (next : List (Reading β)) :
    continued (reading.changed change mark) (next.map (Reading.changed change mark)) =
      (continued reading next).map (Reading.changed change mark) := by
  simp only [continued, List.map_map]
  apply List.map_congr_left
  intro later _
  simp [Reading.changed]

/-- Reading nothing commutes with a change that leaves the empty text as it is. -/
theorem commutes_stop (empty : change [] = []) : Commutes change mark (stop : Readings β) where
  changesAlone text reading member := by
    rw [List.mem_singleton.mp member]
    exact ⟨[], rfl, fun rest => by rw [empty]; rfl⟩
  readings_change _ := rfl

theorem commutes_never : Commutes change mark (never : Readings β) where
  changesAlone _ _ member := absurd member List.not_mem_nil
  readings_change _ := rfl

namespace Commutes

variable {first second body inner : Readings β}

/-- Reading one after the other commutes with a change that both commute with. -/
theorem andThen (commutes : Commutes change mark first)
    (commutesNext : Commutes change mark second) :
    Commutes change mark (first.andThen second) where
  changesAlone text last member := by
    obtain ⟨reading, read, reached⟩ := List.mem_flatMap.mp member
    obtain ⟨later, readLater, rfl⟩ := mem_continued.mp reached
    obtain ⟨front, split, alone⟩ := commutes.changesAlone text reading read
    obtain ⟨more, splitLater, aloneNext⟩ := commutesNext.changesAlone _ later readLater
    exact ⟨front ++ more, by rw [split, splitLater, List.append_assoc], alone.append aloneNext⟩
  readings_change text := by
    simp only [Readings.andThen, commutes.readings_change, List.flatMap_map, List.map_flatMap]
    apply List.flatMap_congr
    intro reading _
    rw [Reading.changed, commutesNext.readings_change]
    exact continued_changed reading (second reading.rest)

theorem orElse (commutes : Commutes change mark first)
    (commutesNext : Commutes change mark second) :
    Commutes change mark (first.orElse second) where
  changesAlone text reading member := by
    rcases List.mem_append.mp member with inFirst | inSecond
    · exact commutes.changesAlone text reading inFirst
    · exact commutesNext.changesAlone text reading inSecond
  readings_change text := by
    simp only [Readings.orElse, commutes.readings_change, commutesNext.readings_change,
      List.map_append]

/-- What is consumed of a changed text is what is consumed of the text, changed. -/
theorem consumed_changed (commutes : Commutes change mark inner) {text : Text}
    {reading : Reading β} (member : reading ∈ inner text) :
    consumed (change text) (reading.changed change mark) = change (consumed text reading) := by
  obtain ⟨front, split, alone⟩ := commutes.changesAlone text reading member
  have here : consumed text reading = front := by
    rw [split]
    exact consumed_append_rest front reading.marks reading.rest
  rw [here, split, alone]
  exact consumed_append_rest (change front) _ (change reading.rest)

/-- A mark of the span that is read is changed with the span. -/
theorem marked (commutes : Commutes change mark inner) {record : Text → β}
    (records : ∀ span, record (change span) = mark (record span)) :
    Commutes change mark (inner.marked record) where
  changesAlone text reading member := by
    obtain ⟨original, read, rfl⟩ := List.mem_map.mp member
    exact commutes.changesAlone text original read
  readings_change text := by
    simp only [Readings.marked, commutes.readings_change, List.map_map]
    apply List.map_congr_left
    intro reading member
    simp only [Function.comp_apply, commutes.consumed_changed member, records]
    rfl

/-- A number of times commutes with a change if one time does. -/
theorem times (commutes : Commutes change mark body) (empty : change [] = []) :
    (count : Nat) → Commutes change mark (body.times count)
  | 0 => commutes_stop empty
  | count + 1 => commutes.andThen (commutes.times empty count)

variable (keeps : ∀ text, (change text).length = text.length)

include keeps

/-- What further iterations consume changes alone if this is so for one iteration. -/
theorem changesAlone_further (commutes : Commutes change mark body) (isLazy : Bool)
    (limit : Option Nat) (text : Text) : ∀ reading ∈ body.further isLazy limit text,
      ∃ front, text = front ++ reading.rest ∧ Text.ChangesAlone change front := by
  induction size : text.length using Nat.strongRecOn generalizing text limit with
  | ind size ih =>
    subst size
    have empty : change [] = [] := List.length_eq_zero_iff.mp (keeps [])
    have ended : Commutes change mark stop := commutes_stop empty
    have stopped := ended.changesAlone text
    have iterated : ∀ reading ∈ (body text).flatMap (afterIteration body isLazy limit text),
        ∃ front, text = front ++ reading.rest ∧ Text.ChangesAlone change front := by
      intro last member
      obtain ⟨reading, read, reached⟩ := List.mem_flatMap.mp member
      obtain ⟨front, split, alone⟩ := commutes.changesAlone text reading read
      simp only [afterIteration] at reached
      split at reached
      · rename_i shorter
        obtain ⟨later, readLater, rfl⟩ := mem_continued.mp reached
        obtain ⟨more, splitLater, aloneNext⟩ := ih _ shorter _ reading.rest rfl later readLater
        exact ⟨front ++ more, by rw [List.append_assoc, ← splitLater, ← split],
          alone.append aloneNext⟩
      · rw [List.mem_singleton.mp reached]
        exact ⟨front, split, alone⟩
    intro reading member
    rw [further_eq] at member
    split at member
    · exact stopped reading member
    · split at member
      · exact (List.mem_append.mp member).elim (stopped reading) (iterated reading)
      · exact (List.mem_append.mp member).elim (iterated reading) (stopped reading)

/-- Further iterations commute with a change if one iteration does and lengths are kept. The
induction is on the length of the text. -/
theorem further (commutes : Commutes change mark body) (isLazy : Bool) (limit : Option Nat) :
    Commutes change mark (body.further isLazy limit) where
  changesAlone := commutes.changesAlone_further keeps isLazy limit
  readings_change text := by
    induction size : text.length using Nat.strongRecOn generalizing text limit with
    | ind size ih =>
      subst size
      have empty : change [] = [] := List.length_eq_zero_iff.mp (keeps [])
      have ended : Commutes change mark stop := commutes_stop empty
      have stopped := ended.readings_change text
      have iterated :
          (body (change text)).flatMap (afterIteration body isLazy limit (change text)) =
            ((body text).flatMap (afterIteration body isLazy limit text)).map
              (Reading.changed change mark) := by
        rw [commutes.readings_change, List.flatMap_map, List.map_flatMap]
        apply List.flatMap_congr
        intro reading _
        have shorter : (reading.changed change mark).rest.length < (change text).length ↔
            reading.rest.length < text.length := by
          rw [Reading.changed, keeps, keeps]
        simp only [afterIteration, shorter]
        split
        · rename_i shorter
          rw [Reading.changed, ih _ shorter _ reading.rest rfl]
          exact continued_changed reading _
        · rfl
      rw [further_eq, further_eq]
      split
      · exact stopped
      · split
        · rw [List.map_append, stopped, iterated]
        · rw [List.map_append, stopped, iterated]

/-- A loop commutes with a change if one iteration does and lengths are kept. -/
theorem loop (commutes : Commutes change mark body) (quantifier : Quantifier) (isLazy : Bool) :
    Commutes change mark (body.loop quantifier isLazy) :=
  (commutes.times (List.length_eq_zero_iff.mp (keeps [])) quantifier.least).andThen
    (commutes.further keeps isLazy quantifier.further)

/-- **The first reading of a changed text** is the changed first reading. -/
theorem whole?_change (commutes : Commutes change mark inner) (text : Text) :
    inner.whole? (change text) = (inner.whole? text).map (List.map mark) := by
  have ended : ∀ rest, change rest = [] ↔ rest = [] := by
    intro rest
    rw [← List.length_eq_zero_iff, keeps, List.length_eq_zero_iff]
  simp only [whole?, commutes.readings_change, List.findSome?_map, List.map_findSome?]
  congr 1
  funext reading
  by_cases stopped : reading.rest = []
  · simp [Reading.changed, ended, stopped]
  · simp [Reading.changed, ended, stopped]

end Commutes

end Readings

end UriTemplates
