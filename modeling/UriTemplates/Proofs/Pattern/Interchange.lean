import UriTemplates.Proofs.Pattern.Joined

/-!
# Interchangeable readings

What follows a reading only depends on what the reading leaves. So two ways to read are
interchangeable if, whatever follows, the first way that can be continued records the same
(`Readings.Alike`). An option that leaves nothing but what an earlier one leaves is never needed
(`Readings.alike_orElse_of_ends`), and all patterns put together interchangeable ones to
interchangeable ones.
-/

namespace UriTemplates

namespace Readings

variable {β : Type} {first second others more : Readings β}

/-- What is recorded along the first reading that can be continued, by the reading and by its
continuation. -/
def firstWith (readings : Readings β) (text : Text) (next : Text → Option (List β)) :
    Option (List β) :=
  (readings text).findSome? fun reading => (next reading.rest).map (reading.marks ++ ·)

/-- The first reading of a whole text is the first one that can be continued with nothing. -/
theorem whole?_eq_firstWith (readings : Readings β) (text : Text) :
    readings.whole? text =
      readings.firstWith text fun rest => if rest = [] then some [] else none := by
  unfold whole? firstWith
  congr 1
  funext reading
  by_cases ended : reading.rest = [] <;> simp [ended]

/-- The second alternative counts where no reading of the first one can be continued. -/
theorem firstWith_orElse (text : Text) (next : Text → Option (List β)) :
    (first.orElse second).firstWith text next =
      (first.firstWith text next).or (second.firstWith text next) := by
  simp only [firstWith, Readings.orElse, List.findSome?_append]

/-- The first reading of one thing after another is the first one of the first thing that the second
can continue. -/
theorem firstWith_andThen (text : Text) (next : Text → Option (List β)) :
    (first.andThen second).firstWith text next =
      first.firstWith text fun rest => second.firstWith rest next := by
  simp only [firstWith, Readings.andThen, Search.findSome?_flatMap, continued, List.findSome?_map,
    List.map_findSome?]
  congr 1
  funext reading
  congr 1
  funext later
  simp [Function.comp_def]

/-- Continuations that do the same with everything that is left lead to the same first reading. -/
theorem firstWith_congr {text : Text} {next other : Text → Option (List β)}
    (same : ∀ rest ∈ first.ends text, next rest = other rest) :
    first.firstWith text next = first.firstWith text other := by
  unfold firstWith
  rw [← List.head?_filterMap, ← List.head?_filterMap]
  congr 1
  apply List.filterMap_congr
  intro reading member
  rw [same reading.rest (List.mem_map_of_mem member)]

/-- Without a continuation of anything that is left there is no first reading. -/
theorem firstWith_eq_none_iff {text : Text} {next : Text → Option (List β)} :
    first.firstWith text next = none ↔ ∀ rest ∈ first.ends text, next rest = none := by
  simp [firstWith, ends, List.findSome?_eq_none_iff]

/-- Whether readings lead to the same first reading, whatever follows. -/
def Alike (first second : Readings β) : Prop :=
  ∀ text next, first.firstWith text next = second.firstWith text next

namespace Alike

theorem refl (readings : Readings β) : readings.Alike readings :=
  fun _ _ => rfl

theorem whole?_eq (same : first.Alike second) (text : Text) :
    first.whole? text = second.whole? text := by
  rw [whole?_eq_firstWith, whole?_eq_firstWith, same]

/-- Reading one after the other keeps readings alike. -/
theorem andThen (same : first.Alike others) (sameNext : second.Alike more) :
    (first.andThen second).Alike (others.andThen more) := by
  intro text next
  rw [firstWith_andThen, firstWith_andThen, same]
  exact firstWith_congr fun rest _ => sameNext rest next

theorem orElse (same : first.Alike others) (sameNext : second.Alike more) :
    (first.orElse second).Alike (others.orElse more) := by
  intro text next
  rw [firstWith_orElse, firstWith_orElse, same, sameNext]

theorem perhaps (same : first.Alike others) (isLazy : Bool) :
    (first.perhaps isLazy).Alike (others.perhaps isLazy) := by
  cases isLazy
  · exact same.orElse (refl stop)
  · exact (refl stop).orElse same

end Alike

/-- **An option that leaves nothing new is never needed.** -/
theorem alike_orElse_of_ends (covered : ∀ text, second.ends text ⊆ first.ends text) :
    (first.orElse second).Alike first := by
  intro text next
  rw [firstWith_orElse]
  cases found : first.firstWith text next with
  | some marks => rfl
  | none =>
    rw [Option.none_or, firstWith_eq_none_iff]
    exact fun rest member => firstWith_eq_none_iff.mp found rest (covered text member)

/-- Readings leave nothing new if they read no text that others do not read. -/
theorem ends_subset_of_derives (isLocal : first.IsLocal) (isLocalOther : second.IsLocal)
    (covered : ∀ text marks, second.Derives text marks → ∃ marks, first.Derives text marks)
    (text : Text) : second.ends text ⊆ first.ends text := by
  intro rest member
  obtain ⟨marks, read⟩ := mem_ends.mp member
  obtain ⟨found, derived⟩ := covered _ _ (isLocalOther.derives_consumed read)
  have inside : (⟨found, rest⟩ : Reading β) ∈ first (consumed text _ ++ rest) :=
    isLocal.mem_append_iff.mpr derived
  rw [isLocalOther.consumed_append read] at inside
  exact mem_ends.mpr ⟨found, inside⟩

end Readings

namespace Pattern

open Readings (Alike)

variable {κ : Type}

/-- Along the first reading of a sequence its first pattern and the others are read as they are
alone. -/
theorem exists_of_whole?_seq {node : Pattern κ} {nodes : List (Pattern κ)} {text : Text}
    {marks : List (κ × Option Text)}
    (read : (seq (node :: nodes)).readings.whole? text = some marks) :
    ∃ front back before after, text = front ++ back ∧ marks = before ++ after ∧
      node.readings.whole? front = some before ∧
        (seq nodes).readings.whole? back = some after := by
  have isLocal := node.isLocal_readings
  have split := (Readings.whole?_andThen node.readings (seq nodes).readings text).symm.trans read
  obtain ⟨reading, after, first, continued, rfl⟩ := Readings.IsFirst.exists_of_findSome? split
  exact ⟨_, _, _, after, (isLocal.consumed_append first.mem).symm, rfl,
    first.whole?_consumed isLocal, continued⟩

/-- Sequences of interchangeable nodes are interchangeable. -/
theorem alike_seq {nodes others : List (Pattern κ)}
    (same : List.Forall₂ (fun node other => node.readings.Alike other.readings) nodes others) :
    (seq nodes).readings.Alike (seq others).readings := by
  induction same with
  | nil => exact Alike.refl _
  | cons first _ ih => exact first.andThen ih

theorem alike_choice {options others : List (Pattern κ)}
    (each : List.Forall₂ (fun option other => option.readings.Alike other.readings) options
      others) : (choice options).readings.Alike (choice others).readings := by
  induction each with
  | nil => exact Alike.refl _
  | cons first _ ih => exact first.orElse ih

theorem alike_amongst {options others : List (Pattern κ)}
    (each : List.Forall₂ (fun option other => option.readings.Alike other.readings) options
      others) : (amongst options).readings.Alike (amongst others).readings := by
  rw [readings_amongst, readings_amongst]
  exact alike_choice each

theorem alike_optional {inner other : Pattern κ} (same : inner.readings.Alike other.readings)
    (isLazy : Bool) :
    (optional inner isLazy).readings.Alike (optional other isLazy).readings := by
  simp only [readings, Readings.loop_optional]
  exact same.perhaps isLazy

/-- A last option comes after all others. -/
theorem readings_choice_append (options : List (Pattern κ)) (last : Pattern κ) :
    (choice (options ++ [last])).readings = (choice options).readings.orElse last.readings := by
  rw [readings, readings]
  induction options with
  | nil => exact Readings.orElse_never _
  | cons option options ih =>
    funext text
    simp only [List.cons_append, readingsOfEither, ih, Readings.orElse, List.append_assoc]

/-- Repetitions of interchangeable elements are interchangeable. The induction is on the length
of the text, of which every separator takes something away. -/
theorem alike_elements {element other : Pattern κ} (same : element.readings.Alike other.readings)
    (separator : Char) (isLazy : Bool) :
    (elements element separator isLazy false).readings.Alike
      (elements other separator isLazy false).readings := by
  intro text next
  induction length : text.length using Nat.strongRecOn generalizing text with
  | ind length' ih =>
    rw [readings_elements element, readings_elements other, Readings.firstWith_andThen,
      Readings.firstWith_andThen, same]
    apply Readings.firstWith_congr
    intro rest left
    have shorter : ∀ back ∈ (literal [separator] : Pattern κ).readings.ends rest,
        (elements element separator isLazy false).readings.firstWith back next =
          (elements other separator isLazy false).readings.firstWith back next := by
      intro back after
      obtain ⟨_, readSeparator⟩ := Readings.mem_ends.mp after
      obtain ⟨_, readElement⟩ := Readings.mem_ends.mp left
      have isLocal := (literal [separator] : Pattern κ).isLocal_readings
      have split := isLocal.consumed_append readSeparator
      rw [(derives_literal.mp (isLocal.derives_consumed readSeparator)).2] at split
      have bound := other.isLocal_readings.rest_length_le readElement
      refine ih back.length ?_ back rfl
      rw [← length]
      rw [← split] at bound
      exact Nat.lt_of_succ_le bound
    have further : ((literal [separator] : Pattern κ).readings.andThen
          (elements element separator isLazy false).readings).firstWith rest next =
        ((literal [separator] : Pattern κ).readings.andThen
          (elements other separator isLazy false).readings).firstWith rest next := by
      rw [Readings.firstWith_andThen, Readings.firstWith_andThen]
      exact Readings.firstWith_congr shorter
    cases isLazy <;> simp [Readings.perhaps, Readings.firstWith_orElse, further]

end Pattern

end UriTemplates
