import Mathlib.Data.List.Basic
import UriTemplates.Regex.Reading

/-!
# Reading is local

How a text is read does not depend on what follows the part that is read
(`Readings.IsLocal`): the readings of a text that leave a given end of it alone are, in the
same order, the readings of what stands before that end. There is no look-around, and a
loop only asks whether an iteration reads anything. Every combinator keeps locality, so
every regular expression is local (`Regex.isLocal_readings`).
-/

namespace UriTemplates

variable {β γ : Type}

@[ext] theorem Reading.ext {first second : Reading β} (marks : first.marks = second.marks)
    (rest : first.rest = second.rest) : first = second := by
  cases first
  cases second
  cases marks
  cases rest
  rfl

/-- A reading of a text as a reading of a longer one, whose end it leaves alone. -/
def Reading.before (reading : Reading β) (after : Text) : Reading β :=
  ⟨reading.marks, reading.rest ++ after⟩

namespace Readings

/-- Whether a reading leaves at least as much as a text holds. -/
def leaves (after : Text) (reading : Reading β) : Bool :=
  after.length ≤ reading.rest.length

/-- Readings take away a beginning of the text, and how they do so does not depend on
what follows it. -/
structure IsLocal (readings : Readings β) : Prop where
  rest_suffix : ∀ text, ∀ reading ∈ readings text, reading.rest <:+ text
  filter_leaves : ∀ span after,
    (readings (span ++ after)).filter (leaves after) = (readings span).map (·.before after)

theorem IsLocal.rest_length_le {readings : Readings β} (isLocal : readings.IsLocal) {text : Text}
    {reading : Reading β} (member : reading ∈ readings text) :
    reading.rest.length ≤ text.length :=
  (isLocal.rest_suffix text reading member).length_le

theorem leaves_before (reading : Reading β) (after : Text) :
    leaves after (reading.before after) = true := by
  simp [leaves, Reading.before]

/-- The readings that continue a reading have their marks after those of the reading. -/
theorem mem_continued {reading last : Reading β} {next : List (Reading β)} :
    last ∈ continued reading next ↔
      ∃ later ∈ next, ⟨reading.marks ++ later.marks, later.rest⟩ = last := by
  simp [continued]

/-- What a continued reading leaves is what its continuation leaves. -/
theorem filter_leaves_continued (reading : Reading β) (next : List (Reading β)) (after : Text) :
    (continued reading next).filter (leaves after) =
      continued reading (next.filter (leaves after)) := by
  simp only [continued, List.filter_map]
  rfl

/-- A reading is continued in the same way before a text. -/
theorem continued_before (reading : Reading β) (next : List (Reading β)) (after : Text) :
    continued (reading.before after) (next.map (·.before after)) =
      (continued reading next).map (·.before after) := by
  simp only [continued, List.map_map]
  rfl

/-- Items that expand to nothing may be left out beforehand. -/
theorem flatMap_filter_of_nil {α δ : Type} (test : α → Bool) (expand : α → List δ)
    (items : List α) (silent : ∀ item ∈ items, test item = false → expand item = []) :
    (items.filter test).flatMap expand = items.flatMap expand := by
  induction items with
  | nil => rfl
  | cons item items ih =>
    have later := ih fun other member => silent other (List.mem_cons_of_mem item member)
    by_cases kept : test item = true
    · rw [List.filter_cons_of_pos kept, List.flatMap_cons, List.flatMap_cons, later]
    · have nothing := silent item List.mem_cons_self (by simpa using kept)
      rw [List.filter_cons_of_neg kept, List.flatMap_cons, nothing, List.nil_append, later]

/-- Only what the first part leaves alone can be left alone by what continues it. -/
theorem IsLocal.filter_leaves_flatMap {body : Readings β} (isLocal : body.IsLocal)
    {span after : Text} {inLonger inSpan : Reading β → List (Reading β)}
    (shrinks : ∀ reading ∈ body (span ++ after), ∀ last ∈ inLonger reading,
      last.rest.length ≤ reading.rest.length)
    (agrees : ∀ reading ∈ body span,
      (inLonger (reading.before after)).filter (leaves after) =
        (inSpan reading).map (·.before after)) :
    ((body (span ++ after)).flatMap inLonger).filter (leaves after) =
      ((body span).flatMap inSpan).map (·.before after) := by
  have silent : ∀ reading ∈ body (span ++ after), leaves after reading = false →
      (inLonger reading).filter (leaves after) = [] := by
    intro reading member gone
    rw [List.filter_eq_nil_iff]
    intro last reached left
    have shorter := shrinks reading member last reached
    simp only [leaves, decide_eq_false_iff_not, decide_eq_true_eq] at gone left
    omega
  rw [List.filter_flatMap, ← flatMap_filter_of_nil _ _ _ silent, isLocal.filter_leaves,
    List.flatMap_map, List.map_flatMap]
  exact List.flatMap_congr agrees

/-- Where nothing is read, nothing depends on what follows. -/
theorem isLocal_never : IsLocal (never : Readings β) where
  rest_suffix _ _ member := absurd member List.not_mem_nil
  filter_leaves _ _ := rfl

/-- To read nothing does not depend on what follows. -/
theorem isLocal_stop : IsLocal (stop : Readings β) where
  rest_suffix text reading member := by
    cases List.mem_singleton.mp member
    exact List.suffix_refl text
  filter_leaves span after := by
    simp [stop, leaves, Reading.before]

theorem isLocal_char (test : Char → Bool) : IsLocal (char test : Readings β) where
  rest_suffix text reading member := by
    cases text with
    | nil => simp [char] at member
    | cons c rest =>
      simp only [char] at member
      split at member
      · rw [List.mem_singleton.mp member]
        exact List.suffix_cons c rest
      · simp at member
  filter_leaves span after := by
    cases span with
    | nil =>
      cases after with
      | nil => rfl
      | cons c rest =>
        simp only [List.nil_append, char]
        split <;> simp [leaves]
    | cons c rest =>
      simp only [List.cons_append, char]
      split <;> simp [leaves, Reading.before]

/-- Reading one after the other is local if both are. -/
theorem IsLocal.andThen {first second : Readings β} (isLocal : first.IsLocal)
    (nextLocal : second.IsLocal) : (first.andThen second).IsLocal where
  rest_suffix text last member := by
    obtain ⟨reading, read, reached⟩ := List.mem_flatMap.mp member
    obtain ⟨later, readLater, rfl⟩ := mem_continued.mp reached
    exact (nextLocal.rest_suffix _ later readLater).trans (isLocal.rest_suffix _ reading read)
  filter_leaves span after := by
    apply isLocal.filter_leaves_flatMap
    · intro reading _ last reached
      obtain ⟨later, readLater, rfl⟩ := mem_continued.mp reached
      exact (nextLocal.rest_suffix _ later readLater).length_le
    · intro reading _
      rw [filter_leaves_continued, ← continued_before]
      exact congrArg _ (nextLocal.filter_leaves reading.rest after)

theorem IsLocal.orElse {first second : Readings β} (isLocal : first.IsLocal)
    (otherLocal : second.IsLocal) : (first.orElse second).IsLocal where
  rest_suffix text reading member := by
    rcases List.mem_append.mp member with inFirst | inSecond
    · exact isLocal.rest_suffix text reading inFirst
    · exact otherLocal.rest_suffix text reading inSecond
  filter_leaves span after := by
    simp only [Readings.orElse, List.filter_append, List.map_append, isLocal.filter_leaves,
      otherLocal.filter_leaves]

/-- Before a text, a reading consumes the same. -/
theorem consumed_before {span : Text} {reading : Reading β} (after : Text)
    (shorter : reading.rest.length ≤ span.length) :
    consumed (span ++ after) (reading.before after) = consumed span reading := by
  have same : (span ++ after).length - (reading.rest ++ after).length =
      span.length - reading.rest.length := by
    simp only [List.length_append]
    omega
  simp only [consumed, Reading.before, same]
  exact List.take_append_of_le_length (by omega)

theorem IsLocal.marked {inner : Readings β} (isLocal : inner.IsLocal) (mark : Text → β) :
    (inner.marked mark).IsLocal where
  rest_suffix text reading member := by
    obtain ⟨original, read, rfl⟩ := List.mem_map.mp member
    exact isLocal.rest_suffix text original read
  filter_leaves span after := by
    have ends : ((inner (span ++ after)).map fun reading =>
        (⟨mark (consumed (span ++ after) reading) :: reading.marks, reading.rest⟩ :
          Reading β)).filter (leaves after) =
        ((inner (span ++ after)).filter (leaves after)).map fun reading =>
          ⟨mark (consumed (span ++ after) reading) :: reading.marks, reading.rest⟩ := by
      rw [List.filter_map]
      rfl
    simp only [Readings.marked, ends, isLocal.filter_leaves, List.map_map]
    apply List.map_congr_left
    intro reading member
    have same := consumed_before after (isLocal.rest_length_le member)
    simp only [Function.comp_apply, same]
    rfl

/-- To read a number of times is local if to read once is. -/
theorem IsLocal.times {body : Readings β} (isLocal : body.IsLocal) :
    (count : Nat) → (body.times count).IsLocal
  | 0 => isLocal_stop
  | count + 1 => isLocal.andThen (isLocal.times count)

/-- The ways to go on after an iteration: with the rest of the loop or, if the iteration
read nothing, with the end of the loop. -/
def afterIteration (body : Readings β) (isLazy : Bool) (limit : Option Nat) (text : Text)
    (reading : Reading β) : List (Reading β) :=
  if reading.rest.length < text.length then
    continued reading (body.further isLazy (limit.map (· - 1)) reading.rest)
  else
    [reading]

/-- A loop that may go on either stops or does one more iteration, in its order of
preference. -/
theorem further_eq (body : Readings β) (isLazy : Bool) (limit : Option Nat) (text : Text) :
    body.further isLazy limit text =
      if limit = some 0 then stop text
      else if isLazy then
        stop text ++ (body text).flatMap (afterIteration body isLazy limit text)
      else
        (body text).flatMap (afterIteration body isLazy limit text) ++ stop text := by
  unfold further
  simp only [dite_eq_ite]
  rfl

/-- Further iterations leave an end of the text. -/
theorem IsLocal.further_rest_suffix {body : Readings β} (isLocal : body.IsLocal) (isLazy : Bool)
    (limit : Option Nat) (text : Text) :
    ∀ reading ∈ body.further isLazy limit text, reading.rest <:+ text := by
  induction size : text.length using Nat.strongRecOn generalizing text limit with
  | ind size ih =>
    subst size
    have stopped : ∀ reading ∈ (stop text : List (Reading β)), reading.rest <:+ text :=
      isLocal_stop.rest_suffix text
    have iterated : ∀ reading ∈ (body text).flatMap (afterIteration body isLazy limit text),
        reading.rest <:+ text := by
      intro last member
      obtain ⟨reading, read, reached⟩ := List.mem_flatMap.mp member
      have suffix := isLocal.rest_suffix text reading read
      simp only [afterIteration] at reached
      split at reached
      · rename_i shorter
        obtain ⟨later, readLater, rfl⟩ := mem_continued.mp reached
        exact (ih _ shorter _ reading.rest rfl later readLater).trans suffix
      · rw [List.mem_singleton.mp reached]
        exact suffix
    intro reading member
    rw [further_eq] at member
    split at member
    · exact stopped reading member
    · split at member
      · exact (List.mem_append.mp member).elim (stopped reading) (iterated reading)
      · exact (List.mem_append.mp member).elim (iterated reading) (stopped reading)

/-- Further iterations are local if one is. The induction is on the length of the text, of which an
iteration with others after it reads something. -/
theorem IsLocal.further {body : Readings β} (isLocal : body.IsLocal) (isLazy : Bool)
    (limit : Option Nat) : (body.further isLazy limit).IsLocal where
  rest_suffix := isLocal.further_rest_suffix isLazy limit
  filter_leaves span after := by
    induction size : span.length using Nat.strongRecOn generalizing span limit with
    | ind size ih =>
      subst size
      have stopped := (isLocal_stop (β := β)).filter_leaves span after
      have iterated : ((body (span ++ after)).flatMap
            (afterIteration body isLazy limit (span ++ after))).filter (leaves after) =
          ((body span).flatMap (afterIteration body isLazy limit span)).map
            (·.before after) := by
        apply isLocal.filter_leaves_flatMap
        · intro reading _ last reached
          simp only [afterIteration] at reached
          split at reached
          · obtain ⟨later, readLater, rfl⟩ := mem_continued.mp reached
            exact (isLocal.further_rest_suffix _ _ _ later readLater).length_le
          · cases List.mem_singleton.mp reached
            exact Nat.le_refl _
        · intro reading _
          have shorter : (reading.before after).rest.length < (span ++ after).length ↔
              reading.rest.length < span.length := by
            simp [Reading.before]
          simp only [afterIteration, shorter]
          split
          · rename_i shorter
            rw [filter_leaves_continued, ← continued_before]
            exact congrArg _ (ih _ shorter _ reading.rest rfl)
          · simp [leaves_before]
      rw [further_eq, further_eq]
      split
      · exact stopped
      · split
        · rw [List.filter_append, List.map_append, stopped, iterated]
        · rw [List.filter_append, List.map_append, stopped, iterated]

/-- A loop is local if what it repeats is. -/
theorem IsLocal.loop {body : Readings β} (isLocal : body.IsLocal) (quantifier : Quantifier)
    (isLazy : Bool) : (body.loop quantifier isLazy).IsLocal :=
  (isLocal.times quantifier.least).andThen (isLocal.further isLazy quantifier.further)

end Readings

/-- The readings of a regular expression are local. -/
theorem Regex.isLocal_readings (regex : Regex) : Readings.IsLocal (β := β) regex.readings := by
  induction regex with
  | empty => exact Readings.isLocal_stop
  | char test => exact Readings.isLocal_char test.accepts
  | seq first second isLocal nextLocal => exact isLocal.andThen nextLocal
  | alt first second isLocal otherLocal => exact isLocal.orElse otherLocal
  | group inner isLocal => exact isLocal
  | loop body quantifier isLazy isLocal => exact isLocal.loop quantifier isLazy

end UriTemplates
