import UriTemplates.Proofs.Reading.Loop

/-!
# Readings that spell what they read

If every mark stands for a text, then readings may record just what they read: the texts of the
marks, one after the other, and what is left make up the whole text (`Readings.Spells`). All
combinators keep the property, so the marks of such a reading tell where each of them was read.
-/

namespace UriTemplates.Readings

variable {β : Type}

/-- Whether what readings record spells what they read. -/
def Spells (spell : β → Text) (readings : Readings β) : Prop :=
  ∀ text, ∀ reading ∈ readings text, reading.marks.flatMap spell ++ reading.rest = text

namespace Spells

variable {spell : β → Text} {first second body : Readings β}

theorem stop : Spells spell (stop : Readings β) := by
  intro text reading member
  rw [List.mem_singleton.mp member]
  rfl

/-- A continued reading spells what it consumes if both of its parts do. -/
theorem of_continued {reading last : Reading β} {next : List (Reading β)} {text : Text}
    (spelled : reading.marks.flatMap spell ++ reading.rest = text)
    (spelledNext : ∀ later ∈ next, later.marks.flatMap spell ++ later.rest = reading.rest)
    (member : last ∈ continued reading next) : last.marks.flatMap spell ++ last.rest = text := by
  obtain ⟨later, found, rfl⟩ := mem_continued.mp member
  rw [List.flatMap_append, List.append_assoc, spelledNext later found, spelled]

theorem andThen (spells : first.Spells spell) (spellsNext : second.Spells spell) :
    (first.andThen second).Spells spell := by
  intro text last member
  obtain ⟨reading, read, continuing⟩ := List.mem_flatMap.mp member
  exact of_continued (spells text reading read) (spellsNext reading.rest) continuing

theorem orElse (spells : first.Spells spell) (spellsOther : second.Spells spell) :
    (first.orElse second).Spells spell :=
  fun text reading member =>
    (List.mem_append.mp member).elim (spells text reading) (spellsOther text reading)

/-- What is recorded a number of times spells what is consumed if it does for one time. -/
theorem times (spells : body.Spells spell) : (count : Nat) → (body.times count).Spells spell
  | 0 => stop
  | count + 1 => spells.andThen (spells.times count)

theorem further (spells : body.Spells spell) (isLazy : Bool) (limit : Option Nat) :
    (body.further isLazy limit).Spells spell := by
  intro text
  induction size : text.length using Nat.strongRecOn generalizing text limit with
  | ind size ih =>
    subst size
    have iterated : ∀ last ∈ (body text).flatMap (afterIteration body isLazy limit text),
        last.marks.flatMap spell ++ last.rest = text := by
      intro last member
      obtain ⟨reading, read, continuing⟩ := List.mem_flatMap.mp member
      simp only [afterIteration] at continuing
      split at continuing
      · rename_i shorter
        exact of_continued (spells text reading read) (ih _ shorter _ reading.rest rfl) continuing
      · rw [List.mem_singleton.mp continuing]
        exact spells text reading read
    intro last member
    rw [further_eq] at member
    split at member
    · exact stop text last member
    · split at member
      · exact (List.mem_append.mp member).elim (stop text last) (iterated last)
      · exact (List.mem_append.mp member).elim (iterated last) (stop text last)

/-- What a loop records spells what it consumes if it does for one iteration. -/
theorem loop (spells : body.Spells spell) (quantifier : Quantifier) (isLazy : Bool) :
    (body.loop quantifier isLazy).Spells spell :=
  (spells.times _).andThen (spells.further isLazy _)

/-- A mark that stands for its span spells what is read, if nothing else is recorded. -/
theorem marked {inner : Readings β} (isLocal : inner.IsLocal) (silent : inner.Silent)
    {mark : Text → β} (spelled : ∀ span, spell (mark span) = span) :
    (inner.marked mark).Spells spell := by
  intro text reading member
  obtain ⟨original, read, rfl⟩ := List.mem_map.mp member
  have whole := isLocal.consumed_append read
  simpa [silent text original read, spelled] using whole

end Spells

end UriTemplates.Readings
