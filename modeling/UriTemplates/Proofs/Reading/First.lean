import UriTemplates.Proofs.Reading.Loop

/-!
# First readings, part by part

The first reading that can be continued (`Readings.IsFirst`) is found part by part: what
follows a part only asks where the part ends (`Readings.IsFirst.andThen`,
`Readings.IsFirst.whole?_andThen`). Where a single reading can be continued, it is the first one
(`Readings.IsFirst.of_only`), and a lazy loop stops at the first place where it may
(`Readings.IsFirst.further_stop`, `Readings.IsFirst.further_more`).
-/

namespace UriTemplates.Readings

variable {β : Type} {text : Text} {able : Text → Prop}

theorem consumed_append_rest (span : Text) (marks : List β) (after : Text) :
    consumed (span ++ after) ⟨marks, after⟩ = span := by
  simp [consumed]

namespace IsFirst

variable {readings : Readings β} {reading last : Reading β}

/-- A reading that no other one could replace is the first one. -/
theorem of_only (member : reading ∈ readings text) (able_rest : able reading.rest)
    (only : ∀ other ∈ readings text, able other.rest → other = reading) :
    readings.IsFirst text able reading where
  able_rest := able_rest
  split := by
    obtain ⟨earlier, later, split, new⟩ := List.eq_append_cons_of_mem member
    refine ⟨earlier, later, split, fun other found ableOther => new ?_⟩
    rw [← only other (split ▸ List.mem_append_left _ found) ableOther]
    exact found

/-- The only way to read a span is the first one, where the text could be continued after no
other span. -/
theorem of_unique (isLocal : readings.IsLocal) {span after : Text} {marks : List β}
    (derived : readings.Derives span marks)
    (unique : ∀ other, readings.Derives span other → other = marks) (ended : able after)
    (only : ∀ front rest other, readings.Derives front other → front ++ rest = span ++ after →
      able rest → rest = after) :
    readings.IsFirst (span ++ after) able ⟨marks, after⟩ := by
  refine of_only (isLocal.mem_append_iff.mpr derived) ended ?_
  rintro ⟨other, rest⟩ member ableRest
  have split := isLocal.consumed_append member
  obtain rfl := only _ rest other (isLocal.derives_consumed member) split ableRest
  exact Reading.ext (unique other (isLocal.mem_append_iff.mp member)) rfl

theorem orElse_left {other : Readings β} (first : readings.IsFirst text able reading) :
    (readings.orElse other).IsFirst text able reading where
  able_rest := first.able_rest
  split := by
    obtain ⟨earlier, later, split, before⟩ := first.split
    exact ⟨earlier, later ++ other text, by simp [Readings.orElse, split], before⟩

/-- Where no reading of the first alternative will do, the first one of the second is the first of
both. -/
theorem orElse_right {other : Readings β} (unable : ∀ known ∈ other text, ¬ able known.rest)
    (first : readings.IsFirst text able reading) :
    (other.orElse readings).IsFirst text able reading where
  able_rest := first.able_rest
  split := by
    obtain ⟨earlier, later, split, before⟩ := first.split
    exact ⟨other text ++ earlier, later, by simp [Readings.orElse, split],
      List.forall_mem_append.mpr ⟨unable, before⟩⟩

theorem perhaps (first : readings.IsFirst text able reading) :
    (readings.perhaps false).IsFirst text able reading :=
  first.orElse_left

theorem marked (first : readings.IsFirst text able reading) (mark : Text → β) :
    (readings.marked mark).IsFirst text able
      ⟨mark (consumed text reading) :: reading.marks, reading.rest⟩ where
  able_rest := first.able_rest
  split := by
    obtain ⟨earlier, later, split, before⟩ := first.split
    simp only [Readings.marked, split, List.map_append, List.map_cons]
    refine ⟨_, _, rfl, fun other member => ?_⟩
    obtain ⟨original, found, rfl⟩ := List.mem_map.mp member
    exact before original found

/-- The first reading of two parts starts with the first reading of the first part that the
second part can continue. -/
theorem andThen {second : Readings β}
    (first : readings.IsFirst text (fun rest => ∃ later ∈ second rest, able later.rest) reading)
    (next : second.IsFirst reading.rest able last) :
    (readings.andThen second).IsFirst text able ⟨reading.marks ++ last.marks, last.rest⟩ where
  able_rest := next.able_rest
  split := by
    obtain ⟨earlier, later, split, before⟩ := first.split
    obtain ⟨earlierNext, laterNext, splitNext, beforeNext⟩ := next.split
    simp only [Readings.andThen, split, List.flatMap_append, List.flatMap_cons, splitNext,
      continued, List.map_append, List.map_cons, List.append_assoc, List.cons_append]
    rw [← List.append_assoc]
    refine ⟨_, _, rfl, List.forall_mem_append.mpr ⟨fun other member => ?_, fun other member => ?_⟩⟩
    · obtain ⟨known, found, continuing⟩ := List.mem_flatMap.mp member
      obtain ⟨ended, reached, rfl⟩ := List.mem_map.mp continuing
      exact fun ableEnded => before known found ⟨ended, reached, ableEnded⟩
    · obtain ⟨ended, reached, rfl⟩ := List.mem_map.mp member
      exact beforeNext ended reached

/-- **What follows a part** is read from where the first reading of the part ends that it can
continue. -/
theorem whole?_andThen {second : Readings β}
    (first : readings.IsFirst text (fun rest => (second.whole? rest).isSome = true) reading) :
    (readings.andThen second).whole? text =
      (second.whole? reading.rest).map (reading.marks ++ ·) := by
  obtain ⟨earlier, later, split, before⟩ := first.split
  obtain ⟨marks, read⟩ := Option.isSome_iff_exists.mp first.able_rest
  have skipped : (earlier.findSome? fun other =>
      (second.whole? other.rest).map (other.marks ++ ·)) = none := by
    rw [List.findSome?_eq_none_iff]
    intro other member
    rw [Option.not_isSome_iff_eq_none.mp (before other member), Option.map_none]
  rw [Readings.whole?_andThen, split, List.findSome?_append, skipped, Option.none_or,
    List.findSome?_cons, read, Option.map_some]

/-- A lazy loop stops where it may. -/
theorem further_stop {body : Readings β} (ended : able text) :
    (body.further true none).IsFirst text able ⟨[], text⟩ where
  able_rest := ended
  split := ⟨[], (body text).flatMap (afterIteration body true none text),
    by rw [further_eq]; rfl, by simp⟩

/-- A lazy loop goes on where it may not stop. -/
theorem further_more {body : Readings β} (consumes : body.Consumes) (unable : ¬ able text)
    (step : body.IsFirst text (fun rest => ∃ later ∈ body.further true none rest, able later.rest)
      reading)
    (next : (body.further true none).IsFirst reading.rest able last) :
    (body.further true none).IsFirst text able ⟨reading.marks ++ last.marks, last.rest⟩ := by
  rw [consumes.further_eq, if_neg (by simp)]
  exact (step.andThen next).orElse_right (by simpa [stop] using unable)

end IsFirst

end UriTemplates.Readings
