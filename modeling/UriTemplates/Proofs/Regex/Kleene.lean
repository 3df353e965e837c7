import Mathlib.Computability.Language
import UriTemplates.Proofs.Regex.Language
import UriTemplates.Proofs.Regex.Written

/-!
# The languages of regular expressions

The texts that an expression matches form a language, and every way to build an expression is an
operation on languages: products, sums, and Kleene stars for loops without a limit. A loop stops
after an iteration that reads nothing, which costs it no text (`Regex.nil_mem_ends_further_iff`).
What is written directly after an expression multiplies its last alternative only
(`Regex.language_splice`).
-/

namespace UriTemplates.Regex

open Computability

/-- The texts that an expression matches. -/
def language (regex : Regex) : Language Char :=
  {text | regex.isMatch text = true}

/-- The language of an expression are the texts that it matches. -/
theorem mem_language {regex : Regex} {text : Text} :
    text ∈ regex.language ↔ regex.isMatch text = true :=
  Iff.rfl

theorem language_empty : empty.language = 1 := by
  ext text
  exact isMatch_empty

theorem language_seq (first second : Regex) :
    (seq first second).language = first.language * second.language := by
  ext text
  rw [mem_language, isMatch_seq, Language.mem_mul]
  constructor
  · rintro ⟨front, back, rfl, matched, matchedNext⟩
    exact ⟨front, matched, back, matchedNext, rfl⟩
  · rintro ⟨front, matched, back, matchedNext, rfl⟩
    exact ⟨front, back, rfl, matched, matchedNext⟩

theorem language_alt (first second : Regex) :
    (alt first second).language = first.language + second.language := by
  ext text
  exact isMatch_alt

theorem language_group (inner : Regex) : (group inner).language = inner.language :=
  rfl

/-- An expression after another one has the product of the languages, even if one of them is empty.
-/
theorem language_andThen (first second : Regex) :
    (first.andThen second).language = first.language * second.language := by
  rw [← language_seq]
  ext text
  exact isMatch_andThen

/-- What an expression can leave of a text is what a matched text is followed by. -/
theorem mem_ends_iff {regex : Regex} {text rest : Text} :
    rest ∈ (regex.readings : Readings Unit).ends text ↔
      ∃ front ∈ regex.language, front ++ rest = text := by
  have isLocal := regex.isLocal_readings (β := Unit)
  rw [Readings.mem_ends]
  constructor
  · rintro ⟨marks, found⟩
    obtain ⟨front, rfl⟩ := isLocal.rest_suffix text _ found
    exact ⟨front, (derives_readings.mp (isLocal.mem_append_iff.mp found)).2, rfl⟩
  · rintro ⟨front, matched, rfl⟩
    exact ⟨[], isLocal.mem_append_iff.mpr (derives_readings.mpr ⟨rfl, matched⟩)⟩

/-- A loop without a limit ends where it is, or after an iteration; one that reads nothing is the
last one. -/
theorem mem_ends_further {body : Readings Unit} {isLazy : Bool} {text rest : Text} :
    rest ∈ (body.further isLazy none).ends text ↔ rest = text ∨
      ∃ middle ∈ body.ends text,
        rest ∈ if middle.length < text.length then (body.further isLazy none).ends middle
          else [middle] := by
  have iterated : ((body text).flatMap (Readings.afterIteration body isLazy none text)).map
        Reading.rest =
      (body.ends text).flatMap fun middle =>
        if middle.length < text.length then (body.further isLazy none).ends middle
        else [middle] := by
    simp only [List.map_flatMap, Readings.ends_afterIteration, Readings.ends, List.flatMap_map,
      Option.map_none]
  rw [Readings.ends, Readings.further_eq, if_neg (by simp)]
  split
  · rw [List.map_append, iterated, List.mem_append, List.mem_flatMap]
    simp [Readings.stop]
  · rw [List.map_append, iterated, List.mem_append, List.mem_flatMap, or_comm]
    simp [Readings.stop]

/-- A loop without a limit reads what is made of matched texts. -/
theorem nil_mem_ends_further_iff {body : Regex} {isLazy : Bool} {text : Text} :
    [] ∈ (Readings.further (β := Unit) body.readings isLazy none).ends text ↔
      text ∈ body.language∗ := by
  constructor
  · intro ended
    -- Every iteration but the last one leaves a shorter text.
    induction size : text.length using Nat.strongRecOn generalizing text with
    | ind size ih =>
      subst size
      rcases mem_ends_further.mp ended with rfl | ⟨middle, iterated, further⟩
      · exact Language.nil_mem_kstar _
      · obtain ⟨front, matched, rfl⟩ := mem_ends_iff.mp iterated
        split at further
        · rename_i shorter
          obtain ⟨pieces, rfl, others⟩ := Language.mem_kstar.mp (ih _ shorter further rfl)
          exact ⟨front :: pieces, rfl, List.forall_mem_cons.mpr ⟨matched, others⟩⟩
        · rename_i same
          cases List.mem_singleton.mp further
          have nothing : front = [] := by simpa using same
          rw [nothing]
          exact Language.nil_mem_kstar _
  · intro repeatedly
    obtain ⟨pieces, rfl, matched⟩ := Language.mem_kstar_iff_exists_nonempty.mp repeatedly
    clear repeatedly
    -- As no piece is empty, the loop may go on after each of them.
    induction pieces with
    | nil => exact mem_ends_further.mpr (.inl rfl)
    | cons piece pieces ih =>
      obtain ⟨⟨first, nonempty⟩, later⟩ := List.forall_mem_cons.mp matched
      refine mem_ends_further.mpr (.inr ⟨pieces.flatten, mem_ends_iff.mpr ⟨piece, first, rfl⟩, ?_⟩)
      have shorter : pieces.flatten.length < (piece :: pieces).flatten.length := by
        simpa using List.length_pos_iff.mpr nonempty
      rw [if_pos shorter]
      exact ih later

/-- An optional expression adds the empty text to the language. -/
theorem language_loop_optional (body : Regex) (isLazy : Bool) :
    (loop body .optional isLazy).language = 1 + body.language := by
  ext text
  rw [mem_language, isMatch_loop_optional, Language.mem_add, Language.mem_one]
  rfl

/-- A star has the closure of the language, greedy or lazy. -/
theorem language_loop_star (body : Regex) (isLazy : Bool) :
    (loop body .star isLazy).language = body.language∗ := by
  ext text
  rw [mem_language, isMatch_iff (β := Unit), readings, Readings.loop_star]
  exact nil_mem_ends_further_iff

/-- A plus has the language before its closure, greedy or lazy. -/
theorem language_loop_plus (body : Regex) (isLazy : Bool) :
    (loop body .plus isLazy).language = body.language * body.language∗ := by
  ext text
  rw [mem_language, isMatch_iff (β := Unit), readings, Readings.loop_plus, Readings.ends_andThen,
    List.mem_flatMap, Language.mem_mul]
  constructor
  · rintro ⟨middle, iterated, ended⟩
    obtain ⟨front, matched, rfl⟩ := mem_ends_iff.mp iterated
    exact ⟨front, matched, middle, nil_mem_ends_further_iff.mp ended, rfl⟩
  · rintro ⟨front, matched, middle, later, rfl⟩
    exact ⟨middle, mem_ends_iff.mpr ⟨front, matched, rfl⟩, nil_mem_ends_further_iff.mpr later⟩

/-- Expressions without bars match one after the other what they match. -/
theorem language_spliceAll {regexes : List Regex}
    (undivided : ∀ regex ∈ regexes, regex.isUndivided = true) :
    (spliceAll regexes).language = (regexes.map language).prod := by
  induction regexes with
  | nil => exact language_empty
  | cons regex regexes ih =>
    obtain ⟨first, later⟩ := List.forall_mem_cons.mp undivided
    have joined : spliceAll (regex :: regexes) = regex.andThen (spliceAll regexes) :=
      splice_eq_andThen first (spliceAll_undivided (β := Unit) later).1
    rw [joined, language_andThen, ih later, List.map_cons, List.prod_cons]

/-- Any alternatives have the sum of their languages if there are some. -/
theorem language_oneOf {regexes : List Regex} (nonempty : regexes ≠ []) :
    (oneOf regexes).language = (regexes.map language).sum := by
  induction regexes with
  | nil => exact (nonempty rfl).elim
  | cons regex regexes ih =>
    by_cases last : regexes = []
    · subst last
      simp [oneOf]
    · rw [oneOf_cons regex last, language_alt, ih last, List.map_cons, List.sum_cons]

/-- What is written after an expression that is divided by bars belongs to the last
alternative. -/
theorem language_splice (first : Regex) {second : Regex} (undivided : second.isUndivided = true) :
    (first.splice second).language = (first.alternatives.1.map language).sum +
      first.alternatives.2.language * second.language := by
  induction first with
  | alt first last _ ih =>
    rw [splice, language_alt, ih, alternatives, List.map_cons, List.sum_cons, add_assoc]
  | _ =>
    rw [splice_eq_andThen rfl undivided, language_andThen]
    exact (zero_add _).symm

end UriTemplates.Regex
